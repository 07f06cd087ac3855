import Mathlib.Data.List.Basic
import Mathlib.Data.Nat.Digits.Defs

/-!
# Decimal text of numbers

Byte strings carry numbers as ASCII digits. `Decimal.text` prints a natural number and
`Decimal.value` reads a run of digits back; the two are inverse for every number, and the
printed run is exactly what a reader that takes digits for as long as they last will take,
whatever follows it.
-/

namespace Decimal

/-- Bytes of an ASCII text. -/
def ascii (text : String) : List UInt8 := text.toList.map fun c => c.toNat.toUInt8

/-- Whether a byte is one of the ten ASCII digits. -/
def isDigit (byte : UInt8) : Bool := 48 ≤ byte && byte ≤ 57

/-- Number written by a run of ASCII digits, most significant first. -/
def value (digits : List UInt8) : Nat :=
  digits.foldl (fun sofar byte => 10 * sofar + (byte.toNat - 48)) 0

/-- Decimal digits of a natural number, without leading zeros. -/
def text (number : Nat) : List UInt8 := ascii (String.ofList (Nat.toDigits 10 number))

/-- Decimal text of an integer: a minus sign before the digits of a negative one. -/
def intText (number : Int) : List UInt8 :=
  if number < 0 then 45 :: text number.natAbs else text number.natAbs

/-- The digits are the characters of the number, one byte each. -/
theorem text_eq (number : Nat) :
    text number = (Nat.toDigits 10 number).map fun c => c.toNat.toUInt8 := by
  simp [text, ascii]

/-- A digit character and its byte have the same code. -/
theorem digit_byte_toNat {c : Char} (digit : c.isDigit) :
    (c.toNat.toUInt8).toNat = c.toNat ∧ 48 ≤ c.toNat ∧ c.toNat ≤ 57 := by
  simp only [Char.isDigit, Bool.and_eq_true, decide_eq_true_eq] at digit
  obtain ⟨low, high⟩ := digit
  have lowCode : 48 ≤ c.toNat := low
  have highCode : c.toNat ≤ 57 := high
  refine ⟨?_, lowCode, highCode⟩
  rw [Nat.toUInt8_eq, UInt8.toNat_ofNat']
  exact Nat.mod_eq_of_lt (by omega)

/-- Every byte of a printed number is a digit. -/
theorem text_digits (number : Nat) : ∀ byte ∈ text number, isDigit byte = true := by
  intro byte member
  rw [text_eq, List.mem_map] at member
  obtain ⟨c, inside, rfl⟩ := member
  have code := digit_byte_toNat (Nat.isDigit_of_mem_toDigits (by decide) (by decide) inside)
  simp only [isDigit, Bool.and_eq_true, decide_eq_true_eq, UInt8.le_iff_toNat_le, code.1]
  exact code.2

/-- A number has at least one digit. -/
theorem text_ne_nil (number : Nat) : text number ≠ [] := by
  rw [text_eq]
  simp [Nat.toDigits_ne_nil]

/-- Folding the bytes of digit characters folds the characters. -/
theorem foldl_bytes (chars : List Char) (digits : ∀ c ∈ chars, c.isDigit = true) (sofar : Nat) :
    (chars.map fun c => c.toNat.toUInt8).foldl
      (fun sofar byte => 10 * sofar + (byte.toNat - 48)) sofar =
      Nat.ofDigitChars 10 chars sofar := by
  induction chars generalizing sofar with
  | nil => simp
  | cons c chars ih =>
    have code := digit_byte_toNat (digits c List.mem_cons_self)
    rw [List.map_cons, List.foldl_cons, code.1, Nat.ofDigitChars_cons,
      ih (fun d inside => digits d (List.mem_cons_of_mem c inside))]
    rfl

/-- Reading the digits of a number returns the number. -/
@[simp] theorem value_text (number : Nat) : value (text number) = number := by
  rw [value, text_eq, foldl_bytes _ (fun c inside =>
    Nat.isDigit_of_mem_toDigits (by decide) (by decide) inside)]
  exact Nat.ofDigitChars_ten_toDigits

/-- A byte string that does not continue a run of digits. -/
def Stops (rest : List UInt8) : Prop := ∀ byte ∈ rest.head?, isDigit byte = false

/-- Taking digits for as long as they last takes exactly the printed number. -/
theorem takeWhile_text (number : Nat) {rest : List UInt8} (stops : Stops rest) :
    (text number ++ rest).takeWhile isDigit = text number := by
  rw [List.takeWhile_append_of_pos (text_digits number)]
  cases rest with
  | nil => simp
  | cons byte rest => simp [stops byte (by simp)]

/-- What is left behind the digits of a printed number is what followed it. -/
theorem dropWhile_text (number : Nat) {rest : List UInt8} (stops : Stops rest) :
    (text number ++ rest).dropWhile isDigit = rest := by
  have whole := List.takeWhile_append_dropWhile (p := isDigit) (l := text number ++ rest)
  rw [takeWhile_text number stops] at whole
  exact List.append_cancel_left whole

/-- A printed integer is a minus sign and digits. -/
theorem mem_intText {value : Int} {byte : UInt8} (member : byte ∈ intText value) :
    byte = 45 ∨ isDigit byte = true := by
  rw [intText] at member
  split at member
  · rcases List.mem_cons.mp member with minus | digit
    · exact Or.inl minus
    · exact Or.inr (text_digits _ byte digit)
  · exact Or.inr (text_digits _ byte member)

/-- Different integers are printed differently. -/
theorem intText_injective : Function.Injective intText := by
  have digits (left right : Nat) (same : text left = text right) : left = right := by
    have values := congrArg value same
    rwa [value_text, value_text] at values
  have sign (left right : Nat) : 45 :: text left ≠ text right := by
    intro same
    have minus := text_digits right 45 (by rw [← same]; exact List.mem_cons_self)
    exact absurd minus (by decide)
  intro left right same
  unfold intText at same
  split at same <;> split at same
  · have absolute := digits _ _ (List.tail_eq_of_cons_eq same)
    omega
  · exact absurd same (sign _ _)
  · exact absurd same.symm (sign _ _)
  · have absolute := digits _ _ same
    omega

/-- A printed natural number is its digits. -/
theorem intText_natCast (number : Nat) : intText (number : Int) = text number := by
  rw [intText, if_neg (by omega), Int.natAbs_natCast]

/-- A number below a power of ten has no more digits than the power. -/
theorem length_text_le (number power : Nat) (positive : 0 < power) (below : number < 10 ^ power) :
    (text number).length ≤ power := by
  rw [text_eq, List.length_map]
  exact Nat.toDigits_length 10 number power positive below

/-- A decimal number: digits behind an optional sign. -/
inductive Numeral : List UInt8 → Int → Prop
  /-- No sign. -/
  | plain {digits : List UInt8} (some : digits ≠ []) (all : ∀ byte ∈ digits, isDigit byte = true) :
      Numeral digits (value digits)
  /-- A plus sign. -/
  | plus {digits : List UInt8} (some : digits ≠ []) (all : ∀ byte ∈ digits, isDigit byte = true) :
      Numeral (43 :: digits) (value digits)
  /-- A minus sign. -/
  | minus {digits : List UInt8} (some : digits ≠ []) (all : ∀ byte ∈ digits, isDigit byte = true) :
      Numeral (45 :: digits) (-value digits)

/-- A printed number is a numeral. -/
theorem numeral_intText (number : Int) : Numeral (intText number) number := by
  rw [intText]
  split
  · rename_i negative
    have shape : number = -value (text number.natAbs) := by
      rw [value_text]
      omega
    have numeral := Numeral.minus (text_ne_nil number.natAbs) (text_digits number.natAbs)
    rwa [← shape] at numeral
  · rename_i positive
    have shape : number = value (text number.natAbs) := by
      rw [value_text]
      omega
    have numeral := Numeral.plain (text_ne_nil number.natAbs) (text_digits number.natAbs)
    rwa [← shape] at numeral

end Decimal
