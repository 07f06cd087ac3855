import LibRedis.Lib.Resp
import LibRedis.RedisCmd

/-!
# Which replies the reader takes

The reader's view of a reply tree, stated on the tree alone: which replies it can take for a
command, the output they denote, and where it stops inside a reply that holds an error. Nothing
here mentions the wire or the client; `ReadReply` shows that `read_reply` follows it.
-/

namespace LibRedis

open Resp (Reply)

/-- What the reader can take when it checks no type: numbers of 64 bits and non-empty byte strings,
and no error anywhere. -/
inductive Readable : Reply → Prop
  /-- A status. -/
  | status (text : Bytes) : Readable (.status text)
  /-- A number that `strtol` can return. -/
  | integer {value : Int} (low : -2 ^ 63 ≤ value) (high : value < 2 ^ 63) :
      Readable (.integer value)
  /-- A byte string that is not empty. -/
  | bulk {bytes : Bytes} (some : bytes ≠ []) (short : bytes.length < 2 ^ 63) :
      Readable (.bulk bytes)
  /-- The nil bulk. -/
  | nilBulk : Readable .nilBulk
  /-- An array of such replies, possibly empty. -/
  | array {elements : List Reply} (short : elements.length < 2 ^ 63)
      (all : ∀ r ∈ elements, Readable r) : Readable (.array elements)
  /-- The nil array. -/
  | nilArray : Readable .nilArray

/-- Reading a reply in order meets an error before anything else that cannot be read; the replies
that are then left, in the order they are on the wire. -/
inductive MeetsError : Reply → List Reply → Prop
  /-- The reply is the error. -/
  | error (text : Bytes) : MeetsError (.error text) []
  /-- An element meets an error behind readable ones: the rest of it and the elements behind it
  are left. -/
  | array {before after inner : List Reply} {r : Reply}
      (short : (before ++ r :: after).length < 2 ^ 63) (readable : ∀ b ∈ before, Readable b)
      (meets : MeetsError r inner) : MeetsError (.array (before ++ r :: after)) (inner ++ after)

/-- A readable reply meets no error. -/
theorem Readable.not_meets {r : Reply} {left : List Reply} (readable : Readable r) :
    ¬ MeetsError r left := by
  intro meets
  induction meets with
  | error text => cases readable
  | array short before meets ih =>
    cases readable with
    | array _ all => exact ih (all _ (by simp))

/-- An element of the list meets an error behind readable ones. -/
def MeetsErrorIn (elements left : List Reply) : Prop :=
  ∃ before r after inner, elements = before ++ r :: after ∧ (∀ b ∈ before, Readable b) ∧
    MeetsError r inner ∧ left = inner ++ after

/-- An array meets an error as its list of elements does. -/
theorem meetsError_array {elements left : List Reply} (short : elements.length < 2 ^ 63) :
    MeetsError (.array elements) left ↔ MeetsErrorIn elements left := by
  constructor
  · intro meets
    cases meets with
    | array _ readable meets => exact ⟨_, _, _, _, rfl, readable, meets, rfl⟩
  · rintro ⟨before, r, after, inner, rfl, readable, meets, rfl⟩
    exact .array short readable meets

/-- The first element meets the error, or it is readable and a later one does. -/
theorem meetsErrorIn_cons {r : Reply} {rest left : List Reply} :
    MeetsErrorIn (r :: rest) left ↔
      (∃ inner, MeetsError r inner ∧ left = inner ++ rest) ∨
      (Readable r ∧ MeetsErrorIn rest left) := by
  constructor
  · rintro ⟨before, found, after, inner, shape, readable, meets, rfl⟩
    cases before with
    | nil =>
      obtain ⟨rfl, rfl⟩ : r = found ∧ rest = after := by simpa using shape
      exact Or.inl ⟨inner, meets, rfl⟩
    | cons first before =>
      obtain ⟨rfl, rfl⟩ : r = first ∧ rest = before ++ found :: after := by simpa using shape
      exact Or.inr ⟨readable r (by simp), before, found, after, inner, rfl,
        fun b member => readable b (by simp [member]), meets, rfl⟩
  · rintro (⟨inner, meets, rfl⟩ | ⟨first, before, found, after, inner, rfl, readable, meets, rfl⟩)
    · exact ⟨[], r, rest, inner, rfl, by simp, meets, rfl⟩
    · exact ⟨r :: before, found, after, inner, rfl, by simpa using ⟨first, readable⟩, meets, rfl⟩

mutual

/-- The output that a reply denotes when no type is checked. -/
def denote : Reply → RedisOutput
  | .status text => .status text
  | .error text => .error text
  | .integer value => .i value
  | .bulk bytes => .bulk bytes
  | .nilBulk => .nilBulk
  | .array elements => .smbulks (denoteAll elements)
  | .nilArray => .nilSmbulks

/-- The outputs that some replies denote. -/
def denoteAll : List Reply → List RedisOutput
  | [] => []
  | r :: rest => denote r :: denoteAll rest

end

/-- Elementwise denotation is the denotation of the list. -/
theorem denoteAll_eq_map (elements : List Reply) : denoteAll elements = elements.map denote := by
  induction elements with
  | nil => rfl
  | cons first others ih => rw [denoteAll, ih, List.map_cons]

mutual

/-- The reply that an output of untyped reading stands for. -/
def replyOf : RedisOutput → Reply
  | .status text => .status text
  | .error text => .error text
  | .i value => .integer value
  | .bulk bytes => .bulk bytes
  | .nilBulk => .nilBulk
  | .smbulks elements => .array (replyOfAll elements)
  | .none | .mbulks _ | .nilMbulks | .nilSmbulks => .nilArray

/-- The replies that some outputs stand for. -/
def replyOfAll : List RedisOutput → List Reply
  | [] => []
  | output :: rest => replyOf output :: replyOfAll rest

end

mutual

/-- Nothing about a reply is lost in what it denotes. -/
theorem replyOf_denote (r : Reply) : replyOf (denote r) = r := by
  match r with
  | .array elements => rw [denote, replyOf, replyOfAll_denoteAll elements]
  | .status _ | .error _ | .integer _ | .bulk _ | .nilBulk | .nilArray => rfl

/-- Nor about a list of replies. -/
theorem replyOfAll_denoteAll (replies : List Reply) : replyOfAll (denoteAll replies) = replies := by
  match replies with
  | [] => rfl
  | r :: rest => rw [denoteAll, replyOfAll, replyOf_denote r, replyOfAll_denoteAll rest]

end

/-- Different replies denote different outputs. -/
theorem denote_injective {r r' : Reply} (same : denote r = denote r') : r = r' := by
  rw [← replyOf_denote r, same, replyOf_denote]

/-- The byte string of a bulk, or none for the nil bulk. -/
def bulkOf : Reply → Option Bytes
  | .bulk bytes => some bytes
  | .status _ | .error _ | .integer _ | .nilBulk | .array _ | .nilArray => none

/-- A reply that is a bulk, nil or not. -/
def IsBulk (r : Reply) : Prop := r = .nilBulk ∨ ∃ bytes, r = .bulk bytes

/-- A reply that is an array, nil or not. -/
def IsArray (r : Reply) : Prop := r = .nilArray ∨ ∃ elements, r = .array elements

/-- The output that an accepted reply denotes, read for a reply type. -/
def denoteAs (type : ReplyType) (r : Reply) : RedisOutput :=
  match type, r with
  | .multiBulk, .array elements => .mbulks (elements.map bulkOf)
  | .multiBulk, .nilArray => .nilMbulks
  | _, r => denote r

/-- Whether the reader accepts a reply for a reply type. -/
def Accepts (type : ReplyType) (r : Reply) : Prop :=
  match type with
  | .depends => Readable r
  | .specialMultiBulk => IsArray r ∧ Readable r
  | .status => ∃ text, r = .status text
  | .integer => (∃ value, r = .integer value) ∧ Readable r
  | .bulk => IsBulk r ∧ Readable r
  | .multiBulk => IsArray r ∧ Readable r ∧ ∀ elements, r = .array elements → ∀ e ∈ elements, IsBulk e
  | .none => False
  | .error => False

/-- Whether the reader stops at an error without closing the connection, and the replies it then
leaves. -/
def Refuses (type : ReplyType) (r : Reply) (left : List Reply) : Prop :=
  (∃ text, r = .error text ∧ left = []) ∨
  ((type = .depends ∨ type = .specialMultiBulk) ∧ IsArray r ∧ MeetsError r left)

/-- Whether a reply is of a reply type, as far as its first byte tells. -/
def OfType (type : ReplyType) : Reply → Prop
  | .status _ => type = .status
  | .error _ => False
  | .integer _ => type = .integer
  | .bulk _ | .nilBulk => type = .bulk
  | .array _ | .nilArray => type = .multiBulk ∨ type = .specialMultiBulk

/-- A reply is accepted for its own type, or where no type is checked. -/
theorem Accepts.ofType {type : ReplyType} {r : Reply} (accepts : Accepts type r) :
    OfType type r ∨ type = .depends := by
  cases type with
  | none => exact accepts.elim
  | status =>
    obtain ⟨text, rfl⟩ := accepts
    exact Or.inl rfl
  | error => exact accepts.elim
  | integer =>
    obtain ⟨⟨value, rfl⟩, -⟩ := accepts
    exact Or.inl rfl
  | bulk =>
    obtain ⟨rfl | ⟨bytes, rfl⟩, -⟩ := accepts
    · exact Or.inl rfl
    · exact Or.inl rfl
  | multiBulk =>
    obtain ⟨rfl | ⟨elements, rfl⟩, -⟩ := accepts
    · exact Or.inl (Or.inl rfl)
    · exact Or.inl (Or.inl rfl)
  | specialMultiBulk =>
    obtain ⟨rfl | ⟨elements, rfl⟩, -⟩ := accepts
    · exact Or.inl (Or.inr rfl)
    · exact Or.inl (Or.inr rfl)
  | depends => exact Or.inr rfl

/-- Accepted replies are readable. -/
theorem Accepts.readable {type : ReplyType} {r : Reply} (accepts : Accepts type r) :
    Readable r := by
  cases type with
  | none => exact accepts.elim
  | status =>
    obtain ⟨text, rfl⟩ := accepts
    exact .status text
  | error => exact accepts.elim
  | integer => exact accepts.2
  | bulk => exact accepts.2
  | multiBulk => exact accepts.2.1
  | specialMultiBulk => exact accepts.2
  | depends => exact accepts

/-- No error anywhere in a reply. -/
inductive ErrorFree : Reply → Prop
  /-- A status. -/
  | status (text : Bytes) : ErrorFree (.status text)
  /-- A number. -/
  | integer (value : Int) : ErrorFree (.integer value)
  /-- A byte string. -/
  | bulk (bytes : Bytes) : ErrorFree (.bulk bytes)
  /-- The nil bulk. -/
  | nilBulk : ErrorFree .nilBulk
  /-- An array of such replies. -/
  | array {elements : List Reply} (all : ∀ e ∈ elements, ErrorFree e) : ErrorFree (.array elements)
  /-- The nil array. -/
  | nilArray : ErrorFree .nilArray

/-- A reply that is an error or holds none. -/
def NoNestedError (r : Reply) : Prop := (∃ text, r = .error text) ∨ ErrorFree r

/-- Where there is no error, none is met. -/
theorem ErrorFree.not_meets {r : Reply} {left : List Reply} (free : ErrorFree r) :
    ¬ MeetsError r left := by
  intro meets
  induction meets with
  | error text => cases free
  | array short before meets ih =>
    cases free with
    | array all => exact ih (all _ (by simp))

/-- Of a reply without an error inside, the reader only refuses an error, and leaves nothing. -/
theorem NoNestedError.refuses {r : Reply} (flat : NoNestedError r) {type : ReplyType}
    {left : List Reply} (refuses : Refuses type r left) : (∃ text, r = .error text) ∧ left = [] := by
  rcases refuses with ⟨text, rfl, rfl⟩ | ⟨-, isArray, meets⟩
  · exact ⟨⟨text, rfl⟩, rfl⟩
  · rcases flat with ⟨text, rfl⟩ | free
    · simp [IsArray] at isArray
    · exact absurd meets free.not_meets

end LibRedis
