import Mathlib.Algebra.Group.Nat.Defs
import Mathlib.Data.List.TakeWhile

/-!
# Formatted printing into a buffer

A format is a list of texts and conversions, found in a C string; what a conversion prints, and how
many arguments it takes, is a parameter. `vsnprintf` prints into a buffer of a given size and returns
the length of the whole text, as an `int`. Its list of arguments is consumed when a conversion reads
it: reading it once more is undefined.
-/

namespace Printf

/-- A part of a format. -/
inductive Piece (σ : Type) where
  /-- Bytes to be printed as they are. -/
  | text (bytes : List UInt8)
  /-- A conversion. -/
  | conversion (spec : σ)

/-- What each conversion prints of the arguments, and those it leaves; none if there are too few. -/
abbrev Conversions (σ α : Type) := σ → List α → Option (List UInt8 × List α)

/-- A `va_list`. -/
inductive VaList (α : Type) where
  /-- The arguments to come. -/
  | args (args : List α)
  /-- A call has taken arguments from it. -/
  | consumed

/-- Result of `vsnprintf`. -/
structure Printed (α : Type) where
  /-- The value returned. -/
  ret : Int
  /-- The bytes in the buffer, before the NUL. -/
  stored : List UInt8
  /-- What is left of the list. -/
  ap : VaList α

variable {σ α : Type}

/-- The whole text of a format and its arguments. -/
def expand (print : Conversions σ α) : List (Piece σ) → List α → Option (List UInt8)
  | [], _ => some []
  | .text bytes :: rest, args => (expand print rest args).map (bytes ++ ·)
  | .conversion spec :: rest, args => do
    let (bytes, args) ← print spec args
    let text ← expand print rest args
    return bytes ++ text

/-- Whether a format has a conversion. -/
def converts : List (Piece σ) → Bool
  | [] => false
  | .text _ :: rest => converts rest
  | .conversion _ :: _ => true

/-- `vsnprintf`; none where it is undefined. -/
def vsnprintf (print : Conversions σ α) (size : Nat) (format : List (Piece σ)) (ap : VaList α) :
    Option (Printed α) :=
  match ap with
  | .consumed =>
    if converts format then none
    else (expand print format []).map fun text => ⟨returned text, text.take (size - 1), .consumed⟩
  | .args args => (expand print format args).map fun text =>
    ⟨returned text, text.take (size - 1), if converts format then .consumed else .args args⟩
where
  /-- The length of the text, or -1 if it is no `int`. -/
  returned (text : List UInt8) : Int := if text.length < 2 ^ 31 then text.length else -1

/-- Bytes of a conversion that do not end it: its flags, width, precision and length. -/
def isModifier (byte : UInt8) : Bool :=
  byte ∈ ([32, 35, 36, 39, 42, 43, 45, 46, 48, 49, 50, 51, 52, 53, 54, 55, 56, 57, 76, 104, 106,
    108, 113, 116, 122] : List UInt8)

/-- The pieces of a format, from a text or from inside a conversion of which so much is read. Two
percent signs print one. -/
def parse : Option (List UInt8) → List UInt8 → List (Piece (List UInt8))
  | none, [] => []
  | some spec, [] => [.conversion spec]
  | none, byte :: rest =>
    if byte = 37 then parse (some []) rest else .text [byte] :: parse none rest
  | some spec, byte :: rest =>
    if byte = 37 ∧ spec = [] then .text [byte] :: parse none rest
    else if isModifier byte then parse (some (spec ++ [byte])) rest
    else .conversion (spec ++ [byte]) :: parse none rest

/-- The pieces of a C string, which ends at the first NUL. -/
def pieces (format : List UInt8) : List (Piece (List UInt8)) :=
  parse none (format.takeWhile (· ≠ 0))

/-- Without arguments no conversion is defined: by the C standard one whose argument is missing is
not, and neither is one that the standard does not know. -/
def Starves (print : Conversions σ α) : Prop := ∀ spec, print spec [] = none

/-- What can be printed without arguments has no conversion. -/
theorem Starves.converts {print : Conversions σ α} (starves : Starves print)
    {format : List (Piece σ)} {text : List UInt8} (expands : expand print format [] = some text) :
    converts format = false := by
  induction format generalizing text with
  | nil => rfl
  | cons piece rest ih =>
    cases piece with
    | text bytes =>
      obtain ⟨tail, expands, -⟩ := Option.map_eq_some_iff.mp expands
      exact ih expands
    | conversion spec => simp [expand, starves spec] at expands

/-- How what is printed without arguments compares with the bytes it is printed of: it is no longer
behind a percent sign, and shorter than a text that has one. Nothing is printed from inside a
conversion. -/
def Compares : Option (List UInt8) → List UInt8 → List UInt8 → Prop
  | none, format, text => text = format ∧ 37 ∉ format ∨ text.length < format.length
  | some [], format, text => text.length ≤ format.length
  | some (_ :: _), _, _ => False

/-- A pair of percent signs prints one. The induction is on the bytes. -/
theorem Starves.parse {print : Conversions (List UInt8) α} (starves : Starves print)
    {state : Option (List UInt8)} {format text : List UInt8}
    (expands : expand print (parse state format) [] = some text) :
    Compares state format text := by
  induction format generalizing state text with
  | nil =>
    cases state with
    | none => exact Or.inl ⟨(Option.some.inj expands).symm, List.not_mem_nil⟩
    | some spec => simp [Printf.parse, expand, starves spec] at expands
  | cons byte rest ih =>
    cases state with
    | none =>
      rw [Printf.parse] at expands
      split_ifs at expands with percent
      · have inside := ih expands
        exact Or.inr (Nat.lt_succ_of_le inside)
      · obtain ⟨tail, printed, rfl⟩ := Option.map_eq_some_iff.mp expands
        rcases ih printed with ⟨rfl, clean⟩ | shorter
        · exact Or.inl ⟨rfl, List.not_mem_cons_of_ne_of_not_mem (Ne.symm percent) clean⟩
        · exact Or.inr (Nat.succ_lt_succ shorter)
    | some spec =>
      rw [Printf.parse] at expands
      split_ifs at expands with pair modifier
      · have empty : spec = [] := pair.2
        rw [empty]
        obtain ⟨tail, printed, rfl⟩ := Option.map_eq_some_iff.mp expands
        rcases ih printed with ⟨rfl, -⟩ | shorter
        · exact le_rfl
        · exact Nat.succ_le_succ shorter.le
      · have inside := ih expands
        cases spec with
        | nil => exact inside.elim
        | cons first more => exact inside
      · simp [expand, starves (spec ++ [byte])] at expands

/-- A format without a percent sign is printed as it is. -/
theorem expand_parse {print : Conversions (List UInt8) α} {format : List UInt8}
    (clean : 37 ∉ format) (args : List α) : expand print (parse none format) args = some format := by
  induction format with
  | nil => rfl
  | cons byte rest ih =>
    obtain ⟨other, clean⟩ := List.ne_and_not_mem_of_not_mem_cons clean
    rw [parse, if_neg other.symm, expand, ih clean]
    rfl

/-- A text without a NUL is a C string as it is. -/
theorem takeWhile_whole {format : List UInt8} (whole : 0 ∉ format) :
    format.takeWhile (· ≠ 0) = format := by
  rw [List.takeWhile_eq_self_iff]
  intro byte member
  exact decide_eq_true fun zero => whole (zero ▸ member)

/-- Without a percent sign it is printed as it is. -/
theorem expand_pieces {print : Conversions (List UInt8) α} {format : List UInt8}
    (clean : 37 ∉ format) (whole : 0 ∉ format) (args : List α) :
    expand print (pieces format) args = some format := by
  rw [pieces, takeWhile_whole whole, expand_parse clean]

/-- Any other is printed shorter, if at all. -/
theorem Starves.pieces {print : Conversions (List UInt8) α} (starves : Starves print)
    {format text : List UInt8} (expands : expand print (pieces format) [] = some text) :
    text = format ∧ 37 ∉ format ∧ 0 ∉ format ∨ text.length < format.length := by
  have start := List.takeWhile_prefix (· ≠ (0 : UInt8)) (l := format)
  rcases starves.parse expands with ⟨same, clean⟩ | shorter
  · by_cases whole : 0 ∈ format
    · right
      rw [same]
      apply lt_of_le_of_ne start.length_le
      intro equal
      rw [← start.eq_of_length equal] at whole
      have other := List.mem_takeWhile_imp whole
      exact absurd other (by decide)
    · rw [takeWhile_whole whole] at same clean
      exact Or.inl ⟨same, clean, whole⟩
  · exact Or.inr (shorter.trans_le start.length_le)

end Printf
