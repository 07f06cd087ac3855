import Mathlib.Algebra.Group.Int.Defs
import LibRedis.Os

/-!
# The default hash

`time33_hash_32`, the hash by which keys go to hosts. Its loop takes eight bytes at a time and a
`switch` with cases that fall through takes those that are left; the result is that of one plain
step for each byte.
-/

namespace LibRedis

/-- `hash = ((hash << 5) + hash) + *str++`: a `char` is signed, and becomes an `int` before it is
added. -/
def time33Step (hash : UInt32) (byte : UInt8) : UInt32 :=
  ((hash <<< 5) + hash) + byte.toInt8.toInt32.toUInt32

/-- The loop: the hash and the bytes that are left. -/
def time33Loop : UInt32 → Bytes → UInt32 × Bytes
  | hash, b₀ :: b₁ :: b₂ :: b₃ :: b₄ :: b₅ :: b₆ :: b₇ :: rest =>
    -- expand loop
    let hash := time33Step hash b₀
    let hash := time33Step hash b₁
    let hash := time33Step hash b₂
    let hash := time33Step hash b₃
    let hash := time33Step hash b₄
    let hash := time33Step hash b₅
    let hash := time33Step hash b₆
    let hash := time33Step hash b₇
    time33Loop hash rest
  | hash, rest => (hash, rest)

/-- The `switch` over the number of bytes that are left: the cases 7 to 1, each of which falls
through to the next. -/
def time33Switch : UInt32 → Bytes → UInt32
  | hash, [b₀, b₁, b₂, b₃, b₄, b₅, b₆] => case6 (time33Step hash b₀) b₁ b₂ b₃ b₄ b₅ b₆
  | hash, [b₀, b₁, b₂, b₃, b₄, b₅] => case6 hash b₀ b₁ b₂ b₃ b₄ b₅
  | hash, [b₀, b₁, b₂, b₃, b₄] => case5 hash b₀ b₁ b₂ b₃ b₄
  | hash, [b₀, b₁, b₂, b₃] => case4 hash b₀ b₁ b₂ b₃
  | hash, [b₀, b₁, b₂] => case3 hash b₀ b₁ b₂
  | hash, [b₀, b₁] => case2 hash b₀ b₁
  | hash, [b₀] => case1 hash b₀
  | hash, _ => hash
where
  case1 (hash : UInt32) (b₀ : UInt8) : UInt32 := time33Step hash b₀
  case2 (hash : UInt32) (b₀ b₁ : UInt8) : UInt32 := case1 (time33Step hash b₀) b₁
  case3 (hash : UInt32) (b₀ b₁ b₂ : UInt8) : UInt32 := case2 (time33Step hash b₀) b₁ b₂
  case4 (hash : UInt32) (b₀ b₁ b₂ b₃ : UInt8) : UInt32 := case3 (time33Step hash b₀) b₁ b₂ b₃
  case5 (hash : UInt32) (b₀ b₁ b₂ b₃ b₄ : UInt8) : UInt32 :=
    case4 (time33Step hash b₀) b₁ b₂ b₃ b₄
  case6 (hash : UInt32) (b₀ b₁ b₂ b₃ b₄ b₅ : UInt8) : UInt32 :=
    case5 (time33Step hash b₀) b₁ b₂ b₃ b₄ b₅

/-- `time33_hash_32`. -/
def time33Hash32 (key : Bytes) : UInt32 :=
  if key.length = 0 then 0
  else
    -- magic number
    let (hash, str) := time33Loop 5381 key
    time33Switch hash str

/-- A byte as a signed 8-bit value. -/
def signedByte (byte : UInt8) : Int := byte.toInt8.toInt

/-- The plain hash: `h -> (33 * h + c) mod 2 ^ 32` over the bytes, which are signed. -/
def plainTime33 (hash : Int) (key : Bytes) : Int :=
  key.foldl (fun hash byte => (33 * hash + signedByte byte) % 2 ^ 32) hash

/-- The word that a byte becomes when it is added. -/
theorem word_signedByte (byte : UInt8) :
    (byte.toInt8.toInt32.toUInt32.toNat : Int) = signedByte byte % 2 ^ 32 := by
  let wide := byte.toInt8.toInt32.toBitVec
  have widened : wide.toInt = signedByte byte := Int8.toInt_toInt32 byte.toInt8
  have value := BitVec.toInt_eq_toNat_cond wide
  have bound := wide.isLt
  change (wide.toNat : Int) = _
  rw [← widened, value]
  split
  · omega
  · omega

/-- One step, as the plain hash takes it. -/
theorem time33Step_toNat (hash : UInt32) (byte : UInt8) :
    ((time33Step hash byte).toNat : Int) = (33 * hash.toNat + signedByte byte) % 2 ^ 32 := by
  have word := word_signedByte byte
  have shifted : (hash <<< 5).toNat = hash.toNat * 32 % 2 ^ 32 := by
    rw [UInt32.toNat_shiftLeft, Nat.shiftLeft_eq]
    rfl
  rw [time33Step, UInt32.toNat_add, UInt32.toNat_add, shifted]
  omega

/-- So for all the bytes. -/
theorem foldl_time33Step (hash : UInt32) (key : Bytes) :
    ((key.foldl time33Step hash).toNat : Int) = plainTime33 hash.toNat key := by
  induction key generalizing hash with
  | nil => rfl
  | cons byte key ih =>
    rw [List.foldl_cons, ih, time33Step_toNat]
    rfl

/-- The loop leaves fewer than eight bytes, which lead to the hash of all of them. -/
theorem time33Loop_fold (hash : UInt32) (key : Bytes) :
    (time33Loop hash key).2.length < 8 ∧
      (time33Loop hash key).2.foldl time33Step (time33Loop hash key).1 =
        key.foldl time33Step hash := by
  fun_induction time33Loop hash key with
  | case1 hash b₀ b₁ b₂ b₃ b₄ b₅ b₆ b₇ rest h₀ h₁ h₂ h₃ h₄ h₅ h₆ h₇ ih =>
    simp only [List.foldl_cons]
    exact ih
  | case2 hash rest short =>
    refine ⟨?_, rfl⟩
    by_contra long
    rcases rest with _ | ⟨b₀, _ | ⟨b₁, _ | ⟨b₂, _ | ⟨b₃, _ | ⟨b₄, _ | ⟨b₅, _ | ⟨b₆, _ |
      ⟨b₇, rest⟩⟩⟩⟩⟩⟩⟩⟩
    case cons.cons.cons.cons.cons.cons.cons.cons => exact short b₀ b₁ b₂ b₃ b₄ b₅ b₆ b₇ rest rfl
    all_goals exact long (by simp)

/-- The `switch` takes what is left, byte by byte. -/
theorem time33Switch_fold (hash : UInt32) {rest : Bytes} (short : rest.length < 8) :
    time33Switch hash rest = rest.foldl time33Step hash := by
  rcases rest with _ | ⟨b₀, _ | ⟨b₁, _ | ⟨b₂, _ | ⟨b₃, _ | ⟨b₄, _ | ⟨b₅, _ | ⟨b₆, _ |
    ⟨b₇, rest⟩⟩⟩⟩⟩⟩⟩⟩
  case cons.cons.cons.cons.cons.cons.cons.cons =>
    simp only [List.length_cons] at short
    omega
  all_goals rfl

/-- The unrolled hash is the plain one, for every key but the empty one, whose hash is zero. -/
theorem time33Hash32_eq (key : Bytes) :
    ((time33Hash32 key).toNat : Int) = if key = [] then 0 else plainTime33 5381 key := by
  rw [time33Hash32]
  by_cases empty : key = []
  · rw [if_pos empty, if_pos (by rw [empty]; rfl)]
    rfl
  · have some : key.length ≠ 0 := fun none => empty (List.eq_nil_of_length_eq_zero none)
    obtain ⟨short, same⟩ := time33Loop_fold 5381 key
    rw [if_neg empty, if_neg some]
    change ((time33Switch (time33Loop 5381 key).1 (time33Loop 5381 key).2).toNat : Int) = _
    rw [time33Switch_fold _ short, same, foldl_time33Step]
    rfl

/-- A key with a NUL and a byte above 127. -/
example : time33Hash32 [0, 255, 65] = 193377029 := by decide

end LibRedis
