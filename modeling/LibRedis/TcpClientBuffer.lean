import Mathlib.Tactic.Ring
import LibRedis.Os

/-!
# The receive buffer

`TcpClientBuffer` keeps received bytes between two offsets into a vector that is reallocated when
it is too small. Sizes are `size_t`, so the doubling loop of `prepare` is written modulo `2 ^ 64`
and may fail to end, and the size it ends with may be one that no vector can have. `Valid` is the
inequality the class states about its pointers together with the shape of the vector's size; every
operation keeps it and says what it does to `unread`, the bytes received and not yet consumed.
-/

namespace LibRedis

/-- `kDefaultBufferSize`. -/
def kDefaultBufferSize : Nat := 512

/-- `kMaxBufferSize`. -/
def kMaxBufferSize : Nat := 65536

/-- `TcpClientBuffer`, its pointers as offsets from the beginning of the vector. -/
structure TcpClientBuffer where
  /-- `buffer_`. -/
  buffer : Bytes
  /-- `read_`: the first byte already read. -/
  read : Nat
  /-- `to_read_`: the first byte to be read next time. -/
  toRead : Nat
  deriving DecidableEq, Repr

namespace TcpClientBuffer

/-- The constructor with the default size. -/
def new : TcpClientBuffer := ⟨List.replicate kDefaultBufferSize 0, 0, 0⟩

/-- `total_size`. -/
def totalSize (b : TcpClientBuffer) : Nat := b.buffer.length

/-- `read_size`. -/
def readSize (b : TcpClientBuffer) : Nat := b.toRead - b.read

/-- `free_size`. -/
def freeSize (b : TcpClientBuffer) : Nat := b.buffer.length - b.toRead

/-- `get_read_buffer`: the bytes received and not yet consumed. -/
def unread (b : TcpClientBuffer) : Bytes := (b.buffer.drop b.read).take b.readSize

/-- `clear`: the vector is cut or padded to the default size. -/
def clear (b : TcpClientBuffer) : TcpClientBuffer where
  buffer := b.buffer.take kDefaultBufferSize ++
    List.replicate (kDefaultBufferSize - b.buffer.length) 0
  read := 0
  toRead := 0

/-- Doubling loop of `prepare`. The size is a 64-bit word, so a loop that has doubled it 64 times
goes on for ever. -/
def growSize : Nat → Nat → Nat → Option Nat
  | 0, _, _ => none
  | fuel + 1, newSize, minNewSize =>
    if newSize ≤ minNewSize then growSize fuel (newSize * 2 % 2 ^ 64) minNewSize else some newSize

/-- `prepare`. -/
def prepare (b : TcpClientBuffer) (size : Nat := kDefaultBufferSize) (drain : Bool := false) :
    Except Abort TcpClientBuffer :=
  if size = 0 then .ok b
  else if !drain && decide (size ≤ b.freeSize) then .ok b
  else
    match growSize 65 b.totalSize ((b.readSize + size) % 2 ^ 64) with
    | none => .error .diverges
    | some newSize =>
      -- the constructor of the new vector throws
      if maxSize 1 < newSize then .error .lengthError
      -- memcpy of the unread bytes to the new vector
      else if newSize < b.readSize then .error .outOfBounds
      else .ok ⟨b.unread ++ List.replicate (newSize - b.readSize) 0, 0, b.readSize⟩

/-- `produce`. -/
def produce (b : TcpClientBuffer) (size : Nat) : Except Abort TcpClientBuffer :=
  if size = 0 then .ok b
  else if b.freeSize < size then .error .assertion
  else .ok { b with toRead := b.toRead + size }

/-- `drain`. -/
def drain (b : TcpClientBuffer) : Except Abort TcpClientBuffer :=
  b.prepare kDefaultBufferSize true

/-- `consume`. -/
def consume (b : TcpClientBuffer) (size : Nat) : Except Abort (Bytes × TcpClientBuffer) := do
  if size = 0 then .error .assertion
  else if b.readSize < size then .error .assertion
  else
    let ret := (b.buffer.drop b.read).take size
    let b := { b with read := b.read + size }
    if b.readSize = 0 ∧ kMaxBufferSize ≤ b.totalSize then
      let b ← b.drain
      return (ret, b)
    else if b.readSize = 0 then return (ret, { b with read := 0, toRead := 0 })
    else return (ret, b)

/-- Bytes written by `recv` at the free end. -/
def fill (b : TcpClientBuffer) (data : Bytes) : TcpClientBuffer :=
  { b with buffer := b.buffer.take b.toRead ++ data ++ b.buffer.drop (b.toRead + data.length) }

/-- The inequality of the class, and the sizes the vector can have. -/
structure Valid (b : TcpClientBuffer) : Prop where
  /-- `read_ <= to_read_`. -/
  ordered : b.read ≤ b.toRead
  /-- `to_read_ <= buffer_.end()`. -/
  inside : b.toRead ≤ b.buffer.length
  /-- The size is the default size doubled, and at most `2 ^ 62`. -/
  shape : ∃ doublings ≤ 53, b.buffer.length = 512 * 2 ^ doublings

/-- The size is at most `2 ^ 62`. -/
theorem Valid.le {b : TcpClientBuffer} (valid : b.Valid) : b.buffer.length ≤ 2 ^ 62 := by
  obtain ⟨doublings, bound, shape⟩ := valid.shape
  have power := Nat.pow_le_pow_right (show 0 < 2 by decide) bound
  omega

/-- A size below that is at most half of it. -/
theorem Valid.half {b : TcpClientBuffer} (valid : b.Valid) (small : b.totalSize < 2 ^ 62) :
    b.totalSize ≤ 2 ^ 61 := by
  obtain ⟨doublings, bound, shape⟩ := valid.shape
  have notTop : doublings ≤ 52 := by
    by_contra large
    obtain rfl : doublings = 53 := by omega
    rw [totalSize, shape] at small
    omega
  have power := Nat.pow_le_pow_right (show 0 < 2 by decide) notTop
  rw [totalSize, shape]
  omega

/-- As many bytes are unread as the pointers say. -/
theorem Valid.length_unread {b : TcpClientBuffer} (valid : b.Valid) :
    b.unread.length = b.readSize := by
  have ordered := valid.ordered
  have inside := valid.inside
  simp only [unread, readSize, List.length_take, List.length_drop]
  omega

/-- A new buffer is valid. -/
theorem new_valid : new.Valid where
  ordered := le_refl 0
  inside := Nat.zero_le _
  shape := ⟨0, by decide, List.length_replicate⟩

/-- A new buffer has no unread bytes. -/
@[simp] theorem new_unread : new.unread = [] := by simp [unread, readSize, new]

/-- Clearing makes a buffer valid. -/
theorem clear_valid (b : TcpClientBuffer) : b.clear.Valid where
  ordered := le_refl 0
  inside := Nat.zero_le _
  shape := by
    refine ⟨0, by decide, ?_⟩
    simp only [clear, List.length_append, List.length_take, List.length_replicate,
      kDefaultBufferSize]
    omega

/-- Clearing drops every unread byte. -/
@[simp] theorem clear_unread (b : TcpClientBuffer) : b.clear.unread = [] := by
  simp [unread, readSize, clear]

/-- Doubling a size either doubles the power of two in it or leaves zero. -/
theorem doubled_shape {newSize : Nat}
    (shape : newSize = 0 ∨ ∃ doublings ≤ 54, newSize = 512 * 2 ^ doublings) :
    newSize * 2 % 2 ^ 64 = 0 ∨ ∃ doublings ≤ 54, newSize * 2 % 2 ^ 64 = 512 * 2 ^ doublings := by
  rcases shape with rfl | ⟨doublings, bound, rfl⟩
  · exact Or.inl rfl
  · rcases Nat.lt_or_eq_of_le bound with below | rfl
    · have power := Nat.pow_le_pow_right (show 0 < 2 by decide) (show doublings + 1 ≤ 54 from below)
      refine Or.inr ⟨doublings + 1, below, ?_⟩
      rw [Nat.mod_eq_of_lt (by rw [Nat.pow_succ] at power; omega)]
      ring
    · exact Or.inl (by decide)

/-- The loop ends only with a size above the bound, again the default size doubled. -/
theorem growSize_some {fuel newSize minNewSize grown : Nat}
    (shape : newSize = 0 ∨ ∃ doublings ≤ 54, newSize = 512 * 2 ^ doublings)
    (ends : growSize fuel newSize minNewSize = some grown) :
    minNewSize < grown ∧ ∃ doublings ≤ 54, grown = 512 * 2 ^ doublings := by
  induction fuel generalizing newSize with
  | zero => simp [growSize] at ends
  | succ fuel ih =>
    rw [growSize] at ends
    split at ends
    · exact ih (doubled_shape shape) ends
    · rename_i above
      obtain rfl := Option.some.inj ends
      refine ⟨by omega, ?_⟩
      rcases shape with rfl | shape
      · omega
      · exact shape

/-- Below `2 ^ 63` the loop ends. -/
theorem growSize_ends (fuel : Nat) {doublings minNewSize : Nat} (bound : doublings ≤ 54)
    (enough : 54 - doublings < fuel) (small : minNewSize < 2 ^ 63) :
    ∃ grown, growSize fuel (512 * 2 ^ doublings) minNewSize = some grown := by
  induction fuel generalizing doublings with
  | zero => omega
  | succ fuel ih =>
    rw [growSize]
    split
    · rename_i below
      have notTop : doublings ≠ 54 := by
        rintro rfl
        omega
      have power := Nat.pow_le_pow_right (show 0 < 2 by decide) (show doublings + 1 ≤ 54 by omega)
      have doubled : 512 * 2 ^ doublings * 2 % 2 ^ 64 = 512 * 2 ^ (doublings + 1) := by
        rw [Nat.mod_eq_of_lt (by rw [Nat.pow_succ] at power; omega)]
        ring
      rw [doubled]
      exact ih (by omega) (by omega)
    · exact ⟨_, rfl⟩

/-- The loop at most doubles the bound, if it does anything. -/
theorem growSize_le {fuel newSize minNewSize grown : Nat}
    (ends : growSize fuel newSize minNewSize = some grown) :
    grown ≤ max newSize (2 * minNewSize) := by
  induction fuel generalizing newSize with
  | zero => simp [growSize] at ends
  | succ fuel ih =>
    rw [growSize] at ends
    split at ends
    · have below := ih ends
      have word := Nat.mod_le (newSize * 2) (2 ^ 64)
      omega
    · obtain rfl := Option.some.inj ends
      exact le_max_left _ _

/-- The loop leaves a size that is large enough. -/
theorem growSize_stays {fuel newSize minNewSize : Nat} (above : minNewSize < newSize) :
    growSize (fuel + 1) newSize minNewSize = some newSize := by
  rw [growSize, if_neg (by omega)]

/-- The loop ends with no smaller size. -/
theorem growSize_ge {fuel newSize minNewSize grown : Nat}
    (shape : ∃ doublings ≤ 54, newSize = 512 * 2 ^ doublings)
    (ends : growSize (fuel + 1) newSize minNewSize = some grown) : newSize ≤ grown := by
  by_cases enough : minNewSize < newSize
  · rw [growSize_stays enough] at ends
    exact le_of_eq (Option.some.inj ends)
  · have above := (growSize_some (Or.inr shape) ends).1
    omega

/-- `prepare` makes a new vector. -/
def Reallocates (b : TcpClientBuffer) (size : Nat) (drain : Bool) : Prop :=
  size ≠ 0 ∧ (drain = true ∨ b.freeSize < size)

instance (b : TcpClientBuffer) (size : Nat) (drain : Bool) : Decidable (b.Reallocates size drain) :=
  inferInstanceAs (Decidable (size ≠ 0 ∧ (drain = true ∨ b.freeSize < size)))

/-- `prepare` without a new vector. -/
theorem prepare_same {b : TcpClientBuffer} {size : Nat} {drain : Bool}
    (stays : ¬ b.Reallocates size drain) : b.prepare size drain = .ok b ∧ size ≤ b.freeSize := by
  rw [prepare]
  by_cases none : size = 0
  · rw [if_pos none]
    exact ⟨rfl, by omega⟩
  · have room : size ≤ b.freeSize := by
      by_contra full
      exact stays ⟨none, Or.inr (not_le.mp full)⟩
    have kept : drain = false := by
      cases drain with
      | false => rfl
      | true => exact absurd ⟨none, Or.inl rfl⟩ stays
    rw [if_neg none, if_pos (by simp [kept, room])]
    exact ⟨rfl, room⟩

/-- A size that the loop may end with, if a vector can have it. -/
theorem shape_of_small {size : Nat} (shape : ∃ doublings ≤ 54, size = 512 * 2 ^ doublings)
    (small : size < 2 ^ 63) : ∃ doublings ≤ 53, size = 512 * 2 ^ doublings := by
  obtain ⟨doublings, bound, rfl⟩ := shape
  refine ⟨doublings, ?_, rfl⟩
  by_contra large
  obtain rfl : doublings = 54 := by omega
  omega

/-- The size of a valid buffer is one that the loop may begin with. -/
theorem Valid.loop_shape {b : TcpClientBuffer} (valid : b.Valid) :
    ∃ doublings ≤ 54, b.totalSize = 512 * 2 ^ doublings := by
  obtain ⟨doublings, bound, shape⟩ := valid.shape
  exact ⟨doublings, by omega, shape⟩

/-- `prepare` with a new vector: its loop ends with no size that a vector can have, or the unread
bytes are at the front of a vector of the size that the loop ends with. -/
theorem Valid.prepare_makes {b : TcpClientBuffer} (valid : b.Valid) {size : Nat} {drain : Bool}
    (makes : b.Reallocates size drain) :
    (∃ abort, b.prepare size drain = .error abort ∧ abort.Unfinished ∧
      ∀ grown, growSize 65 b.totalSize ((b.readSize + size) % 2 ^ 64) = some grown →
        2 ^ 63 ≤ grown) ∨
    ∃ b', b.prepare size drain = .ok b' ∧ b'.Valid ∧ b'.unread = b.unread ∧
      b'.toRead = b.readSize ∧
      growSize 65 b.totalSize ((b.readSize + size) % 2 ^ 64) = some b'.totalSize := by
  have needs : ¬ (!drain && decide (size ≤ b.freeSize)) = true := by
    rcases makes.2 with drains | full
    · simp [drains]
    · simp [full]
  have most : maxSize 1 = 2 ^ 63 - 1 := by decide
  rw [prepare, if_neg makes.1, if_neg needs, most]
  cases grows : growSize 65 b.totalSize ((b.readSize + size) % 2 ^ 64) with
  | none => exact Or.inl ⟨.diverges, rfl, .diverges, by simp⟩
  | some grown =>
    by_cases large : 2 ^ 63 - 1 < grown
    · refine Or.inl ⟨.lengthError, if_pos large, .lengthError, fun size same => ?_⟩
      obtain rfl := Option.some.inj same
      omega
    · have inside := valid.inside
      have kept : b.buffer.length ≤ grown := growSize_ge valid.loop_shape grows
      have room : b.readSize ≤ grown := by
        rw [readSize]
        omega
      have shape := shape_of_small (growSize_some (Or.inr valid.loop_shape) grows).2 (by omega)
      have length : (b.unread ++ List.replicate (grown - b.readSize) 0).length = grown := by
        rw [List.length_append, valid.length_unread, List.length_replicate]
        omega
      refine Or.inr ⟨_, (if_neg large).trans (if_neg (not_lt.mpr room)),
        ⟨Nat.zero_le _, ?_, ?_⟩, ?_, rfl, ?_⟩
      · change b.readSize ≤ _
        rw [length]
        exact room
      · rw [length]
        exact shape
      · change (List.drop 0 _).take (b.readSize - 0) = b.unread
        rw [List.drop_zero, Nat.sub_zero, ← valid.length_unread, List.take_left]
      · exact congrArg some length.symm

/-- What a buffer of at most `2 ^ 61` bytes becomes when it makes room: less than `2 ^ 62` bytes
were asked for, and for less than half of these it stays that small. -/
structure Grows (b : TcpClientBuffer) (wanted : Nat) (b' : TcpClientBuffer) : Prop where
  /-- A vector could be made. -/
  word : b.totalSize ≤ 2 ^ 61 → wanted < 2 ^ 62
  /-- The vector is at most doubled beyond what is wanted. -/
  small : b.totalSize ≤ 2 ^ 61 → wanted < 2 ^ 61 → b'.totalSize ≤ 2 ^ 61

/-- What `prepare` does to a valid buffer: it keeps the unread bytes and makes room for the bytes
asked for, or no vector has room for them, which takes `2 ^ 62` bytes. -/
theorem prepare_cases {b : TcpClientBuffer} (valid : b.Valid) (size : Nat) (drain : Bool)
    (word : b.readSize + size < 2 ^ 64) :
    (∃ abort, b.prepare size drain = .error abort ∧ abort.Unfinished ∧
      2 ^ 62 ≤ b.readSize + size) ∨
    ∃ b', b.prepare size drain = .ok b' ∧ b'.Valid ∧ b'.unread = b.unread ∧ size ≤ b'.freeSize ∧
      b.Grows (b.readSize + size) b' := by
  have ordered := valid.ordered
  have inside := valid.inside
  by_cases makes : b.Reallocates size drain
  · have small := Nat.mod_eq_of_lt word
    rcases valid.prepare_makes makes with
      ⟨abort, aborts, unfinished, large⟩ | ⟨b', returns, valid', kept, toRead, grows⟩
    · refine Or.inl ⟨abort, aborts, unfinished, ?_⟩
      by_contra below
      obtain ⟨doublings, bound, shape⟩ := valid.shape
      obtain ⟨grown, ends⟩ := growSize_ends 65 (show doublings ≤ 54 by omega) (by omega)
        (show b.readSize + size < 2 ^ 63 by omega)
      rw [small, totalSize, shape] at large
      have bound := growSize_le ends
      have most := valid.le
      have least := large grown ends
      omega
    · rw [small] at grows
      obtain ⟨above, -⟩ := growSize_some (Or.inr valid.loop_shape) grows
      have bound := growSize_le grows
      have most := valid'.le
      have size' : b'.totalSize = b'.buffer.length := rfl
      refine Or.inr ⟨b', returns, valid', kept, ?_, ⟨fun _ => by omega,
        fun _ _ => valid'.half (by omega)⟩⟩
      rw [freeSize, toRead]
      omega
  · obtain ⟨returns, room⟩ := prepare_same makes
    refine Or.inr ⟨b, returns, valid, rfl, room, ⟨fun small => ?_, fun small _ => small⟩⟩
    rw [totalSize] at small
    rw [freeSize] at room
    rw [readSize]
    omega

/-- `drain` of a valid buffer without unread bytes returns a new vector of the same size, unless that
was the default size. -/
theorem drain_empty {b : TcpClientBuffer} (valid : b.Valid) (empty : b.unread = [])
    (large : kDefaultBufferSize < b.totalSize) :
    ∃ b', b.drain = .ok b' ∧ b'.Valid ∧ b'.unread = [] ∧ b'.totalSize = b.totalSize := by
  have none : b.readSize = 0 := by rw [← valid.length_unread, empty, List.length_nil]
  have asked : (b.readSize + kDefaultBufferSize) % 2 ^ 64 = kDefaultBufferSize := by
    rw [none]
    rfl
  have stays : growSize 65 b.totalSize kDefaultBufferSize = some b.totalSize := growSize_stays large
  rw [← asked] at stays
  have makes : b.Reallocates kDefaultBufferSize true := ⟨by decide, Or.inl rfl⟩
  rcases valid.prepare_makes makes with ⟨-, -, -, large⟩ | ⟨b', returns, valid', same, -, grows⟩
  · have least := large b.totalSize stays
    have most : b.totalSize ≤ 2 ^ 62 := valid.le
    omega
  · exact ⟨b', returns, valid', same.trans empty, Option.some.inj (grows.symm.trans stays)⟩

/-- Consuming unread bytes returns the oldest ones and leaves the others. -/
theorem consume_ok {b : TcpClientBuffer} (valid : b.Valid) (size : Nat) (some : 0 < size)
    (within : size ≤ b.unread.length) :
    ∃ b', b.consume size = .ok (b.unread.take size, b') ∧ b'.Valid ∧
      b'.unread = b.unread.drop size ∧ b'.totalSize = b.totalSize := by
  have bound : size ≤ b.readSize := valid.length_unread ▸ within
  have ordered := valid.ordered
  have oldest : (b.buffer.drop b.read).take size = b.unread.take size := by
    rw [unread, List.take_take, Nat.min_eq_left bound]
  let moved : TcpClientBuffer := { b with read := b.read + size }
  have movedValid : moved.Valid := by
    refine ⟨?_, valid.inside, valid.shape⟩
    change b.read + size ≤ b.toRead
    rw [readSize] at bound
    omega
  have movedUnread : moved.unread = b.unread.drop size := by
    rw [unread, unread, List.drop_take, List.drop_drop]
    congr 1
    change b.toRead - (b.read + size) = b.toRead - b.read - size
    omega
  rw [consume, if_neg (by omega), if_neg (by omega), oldest]
  change ∃ b', (if moved.readSize = 0 ∧ kMaxBufferSize ≤ moved.totalSize then _ else _) = _ ∧ _
  split
  · rename_i large
    have empty : moved.unread = [] := by
      rw [← List.length_eq_zero_iff, movedValid.length_unread, large.1]
    have above : kDefaultBufferSize < moved.totalSize := lt_of_lt_of_le (by decide) large.2
    obtain ⟨b', returns, valid', same, size'⟩ := drain_empty movedValid empty above
    refine ⟨b', ?_, valid', same.trans (empty.symm.trans movedUnread), size'⟩
    change (moved.drain >>= fun b => pure (_, b)) = _
    rw [returns]
    rfl
  · split
    · rename_i spent
      have empty : moved.unread = [] := by
        rw [← List.length_eq_zero_iff, movedValid.length_unread, spent]
      refine ⟨_, rfl, ⟨Nat.le_refl 0, Nat.zero_le _, valid.shape⟩, ?_, rfl⟩
      rw [← movedUnread, empty]
      simp [unread, readSize]
    · exact ⟨moved, rfl, movedValid, movedUnread, rfl⟩

/-- Filling and producing received bytes appends them to the unread ones. -/
theorem produce_fill {b : TcpClientBuffer} (valid : b.Valid) {data : Bytes}
    (room : data.length ≤ b.freeSize) :
    ∃ b', (b.fill data).produce data.length = .ok b' ∧ b'.Valid ∧ b'.unread = b.unread ++ data ∧
      b'.totalSize = b.totalSize := by
  have ordered := valid.ordered
  have inside := valid.inside
  rw [freeSize] at room
  have front : (b.buffer.take b.toRead).length = b.toRead := by
    rw [List.length_take, Nat.min_eq_left inside]
  have length : (b.fill data).buffer.length = b.buffer.length := by
    simp only [fill, List.length_append, List.length_take, List.length_drop]
    omega
  let grown : TcpClientBuffer := { b.fill data with toRead := b.toRead + data.length }
  have grownValid : grown.Valid := by
    refine ⟨?_, ?_, ?_⟩
    · change b.read ≤ b.toRead + data.length
      omega
    · change b.toRead + data.length ≤ (b.fill data).buffer.length
      omega
    · change ∃ doublings ≤ 53, (b.fill data).buffer.length = _
      rw [length]
      exact valid.shape
  have contents : grown.unread = b.unread ++ data := by
    change ((b.buffer.take b.toRead ++ data ++ _).drop b.read).take
      (b.toRead + data.length - b.read) = _
    have size : b.toRead + data.length - b.read =
        ((b.buffer.take b.toRead).drop b.read ++ data).length := by
      rw [List.length_append, List.length_drop, front]
      omega
    rw [List.append_assoc, List.drop_append_of_le_length (by omega), ← List.append_assoc, size,
      List.take_left, List.drop_take]
    rfl
  rw [produce]
  split
  · rename_i none
    have same : grown = b.fill data := by
      change (⟨(b.fill data).buffer, b.read, b.toRead + data.length⟩ : TcpClientBuffer) = _
      rw [none]
      rfl
    exact ⟨_, rfl, same ▸ grownValid, same ▸ contents, length⟩
  · rw [if_neg (by rw [freeSize, length]; change ¬ b.buffer.length - b.toRead < _; omega)]
    exact ⟨grown, rfl, grownValid, contents, length⟩

end TcpClientBuffer

end LibRedis
