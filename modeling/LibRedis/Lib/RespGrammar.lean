import LibRedis.Lib.Delimited
import LibRedis.Lib.Resp

/-!
# Words of the reply grammar

Which byte strings are replies, whoever wrote them: `Word` relates a reply to the bytes that stand
for it. A reader may be stricter or looser about the parts, so the grammar takes `Rules`: which
texts are numbers, what ends a byte string, and how many elements a count announces. The rules of
the format itself are `Rules.strict`. Under rules that agree on the parts, a stream begins with a
word for one reply only (`Word.agree`). `Reaches` says that reading in order comes to such a part.
-/

namespace Resp

open Decimal

/-- What a reader asks of the parts of a reply. -/
structure Rules where
  /-- The texts that stand for a number. -/
  number : List UInt8 → Int → Prop
  /-- What follows the bytes of a byte string. -/
  ends : List UInt8 → Prop
  /-- How many elements a count announces. -/
  counts : Int → Nat → Prop

/-- The rules of the format. -/
def Rules.strict : Rules where
  number := Numeral
  ends := fun last => last = crlf
  counts := fun count elements => count = elements

/-- The first line of a reply: a marker and a text without an end of a line inside. -/
def firstLine (marker : UInt8) (text : List UInt8) : List UInt8 := marker :: (text ++ crlf)

mutual

/-- The bytes stand for the reply. -/
inductive Word (rules : Rules) : Reply → List UInt8 → Prop
  /-- A line. -/
  | status {text : List UInt8} (line : ¬ crlf <:+: text) :
      Word rules (.status text) (firstLine 43 text)
  /-- A line that reports an error. -/
  | error {text : List UInt8} (line : ¬ crlf <:+: text) :
      Word rules (.error text) (firstLine 45 text)
  /-- A number. -/
  | integer {text : List UInt8} {i : Int} (line : ¬ crlf <:+: text) (number : rules.number text i) :
      Word rules (.integer i) (firstLine 58 text)
  /-- A byte string behind its length. -/
  | bulk {text bytes last : List UInt8} (line : ¬ crlf <:+: text)
      (number : rules.number text bytes.length) (ends : rules.ends last) :
      Word rules (.bulk bytes) (firstLine 36 text ++ (bytes ++ last))
  /-- The length of no byte string. -/
  | nilBulk {text : List UInt8} (line : ¬ crlf <:+: text) (number : rules.number text (-1)) :
      Word rules .nilBulk (firstLine 36 text)
  /-- Replies behind their number. -/
  | array {text words : List UInt8} {count : Int} {elements : List Reply}
      (line : ¬ crlf <:+: text) (number : rules.number text count) (isArray : count ≠ -1)
      (counts : rules.counts count elements.length) (all : Words rules elements words) :
      Word rules (.array elements) (firstLine 42 text ++ words)
  /-- The number of no array. -/
  | nilArray {text : List UInt8} (line : ¬ crlf <:+: text) (number : rules.number text (-1)) :
      Word rules .nilArray (firstLine 42 text)

/-- The bytes stand for the replies, one after the other. -/
inductive Words (rules : Rules) : List Reply → List UInt8 → Prop
  /-- No reply. -/
  | nil : Words rules [] []
  /-- A reply and others. -/
  | cons {r : Reply} {rest : List Reply} {word words : List UInt8} (first : Word rules r word)
      (others : Words rules rest words) : Words rules (r :: rest) (word ++ words)

end

/-- Reading in order comes to such a part: it is there at once, or behind the header of an array
and some of its elements. -/
inductive Reaches (rules : Rules) (part : List UInt8 → Prop) : List UInt8 → Prop
  /-- At once. -/
  | here {word : List UInt8} (holds : part word) : Reaches rules part word
  /-- In an element. -/
  | inside {text words word : List UInt8} {count : Int} {before : List Reply}
      (line : ¬ crlf <:+: text) (number : rules.number text count)
      (more : (before.length : Int) < count) (elements : Words rules before words)
      (inner : Reaches rules part word) :
      Reaches rules part (firstLine 42 text ++ (words ++ word))

/-- Rules that allow at least as much. -/
structure Rules.Within (rules rules' : Rules) : Prop where
  /-- Of the numbers. -/
  number : ∀ {text i}, rules.number text i → rules'.number text i
  /-- Of the ends of byte strings. -/
  ends : ∀ {last}, rules.ends last → rules'.ends last
  /-- Of the counts. -/
  counts : ∀ {count elements}, rules.counts count elements → rules'.counts count elements

mutual

/-- Words are words of looser rules. -/
theorem Word.within {rules rules' : Rules} (within : rules.Within rules') {r : Reply}
    {word : List UInt8} : Word rules r word → Word rules' r word
  | .status line => .status line
  | .error line => .error line
  | .integer line number => .integer line (within.number number)
  | .bulk line number ends => .bulk line (within.number number) (within.ends ends)
  | .nilBulk line number => .nilBulk line (within.number number)
  | .array line number isArray counts all =>
    .array line (within.number number) isArray (within.counts counts) (all.within within)
  | .nilArray line number => .nilArray line (within.number number)

/-- So are words one after the other. -/
theorem Words.within {rules rules' : Rules} (within : rules.Within rules') {replies : List Reply}
    {words : List UInt8} : Words rules replies words → Words rules' replies words
  | .nil => .nil
  | .cons first others => .cons (first.within within) (others.within within)

end

/-- What is reached under some rules is reached under looser ones. -/
theorem Reaches.within {rules rules' : Rules} (within : rules.Within rules')
    {part part' : List UInt8 → Prop} (parts : ∀ word, part word → part' word) {word : List UInt8}
    (reaches : Reaches rules part word) : Reaches rules' part' word := by
  induction reaches with
  | here holds => exact .here (parts _ holds)
  | inside line number more elements inner ih =>
    exact .inside line (within.number number) more (elements.within within) ih

/-- A first line is read back from in front of anything. -/
theorem firstLine_append {marker marker' : UInt8} {text text' rest rest' : List UInt8}
    (line : ¬ crlf <:+: text) (line' : ¬ crlf <:+: text')
    (same : firstLine marker text ++ rest = firstLine marker' text' ++ rest') :
    marker = marker' ∧ text = text' ∧ rest = rest' := by
  obtain ⟨markers, behind⟩ := List.cons.inj same
  have splits := Delimited.splits_pair (show (13 : UInt8) ≠ 10 by decide) line rest
  have splits' := Delimited.splits_pair (show (13 : UInt8) ≠ 10 by decide) line' rest'
  change text ++ [13, 10] ++ rest = text' ++ [13, 10] ++ rest' at behind
  rw [← behind] at splits'
  obtain ⟨texts, rests⟩ := splits.unique splits'
  exact ⟨markers, texts, rests⟩

/-- Rules that do not contradict each other. -/
structure Rules.Agree (rules rules' : Rules) : Prop where
  /-- A text is the same number. -/
  number : ∀ {text i j}, rules.number text i → rules'.number text j → i = j
  /-- Byte strings end after as many bytes. -/
  ends : ∀ {last last'}, rules.ends last → rules'.ends last' → last.length = last'.length
  /-- A count announces as many elements. -/
  counts : ∀ {count elements elements'}, rules.counts count elements →
    rules'.counts count elements' → elements = elements'

/-- A word begins with a first line, with the marker of the reply. -/
theorem Word.shape {rules : Rules} {r : Reply} {word : List UInt8} (holds : Word rules r word) :
    ∃ text behind, ¬ crlf <:+: text ∧ word = firstLine r.marker text ++ behind := by
  cases holds with
  | status line | error line | integer line | nilBulk line | nilArray line =>
    exact ⟨_, [], line, (List.append_nil _).symm⟩
  | bulk line | array line => exact ⟨_, _, line, rfl⟩

/-- Words that begin a stream have the same marker. -/
theorem Word.marker_eq {rules rules' : Rules} {r r' : Reply} {word word' rest rest' : List UInt8}
    (left : Word rules r word) (right : Word rules' r' word')
    (same : word ++ rest = word' ++ rest') : r.marker = r'.marker := by
  obtain ⟨text, behind, line, rfl⟩ := left.shape
  obtain ⟨text', behind', line', rfl⟩ := right.shape
  rw [List.append_assoc, List.append_assoc] at same
  exact (firstLine_append line line' same).1

mutual

/-- Under rules that agree, a stream begins with a word for one reply only. -/
theorem Word.agree {rules rules' : Rules} (agree : rules.Agree rules') {r r' : Reply}
    {word word' rest rest' : List UInt8} (left : Word rules r word) (right : Word rules' r' word')
    (same : word ++ rest = word' ++ rest') : r = r' ∧ rest = rest' := by
  have markers := left.marker_eq right same
  match left with
  | .status line =>
    cases right with
    | status line' =>
      obtain ⟨-, rfl, behind⟩ := firstLine_append line line' same
      exact ⟨rfl, behind⟩
    | error | integer | bulk | nilBulk | array | nilArray => simp [Reply.marker] at markers
  | .error line =>
    cases right with
    | error line' =>
      obtain ⟨-, rfl, behind⟩ := firstLine_append line line' same
      exact ⟨rfl, behind⟩
    | status | integer | bulk | nilBulk | array | nilArray => simp [Reply.marker] at markers
  | .integer line number =>
    cases right with
    | integer line' number' =>
      obtain ⟨-, rfl, behind⟩ := firstLine_append line line' same
      exact ⟨congrArg _ (agree.number number number'), behind⟩
    | status | error | bulk | nilBulk | array | nilArray => simp [Reply.marker] at markers
  | .bulk line number ends =>
    simp only [List.append_assoc] at same
    cases right with
    | bulk line' number' ends' =>
      simp only [List.append_assoc] at same
      obtain ⟨-, rfl, behind⟩ := firstLine_append line line' same
      have length := agree.number number number'
      obtain ⟨rfl, lasts⟩ := List.append_inj behind (by omega)
      exact ⟨rfl, (List.append_inj lasts (agree.ends ends ends')).2⟩
    | nilBulk line' number' =>
      obtain ⟨-, rfl, -⟩ := firstLine_append line line' same
      have length := agree.number number number'
      omega
    | status | error | integer | array | nilArray => simp [Reply.marker] at markers
  | .nilBulk line number =>
    cases right with
    | bulk line' number' =>
      simp only [List.append_assoc] at same
      obtain ⟨-, rfl, -⟩ := firstLine_append line line' same
      have length := agree.number number number'
      omega
    | nilBulk line' number' =>
      obtain ⟨-, rfl, behind⟩ := firstLine_append line line' same
      exact ⟨rfl, behind⟩
    | status | error | integer | array | nilArray => simp [Reply.marker] at markers
  | .array line number isArray counts all =>
    simp only [List.append_assoc] at same
    cases right with
    | array line' number' isArray' counts' all' =>
      simp only [List.append_assoc] at same
      obtain ⟨-, rfl, behind⟩ := firstLine_append line line' same
      obtain rfl := agree.number number number'
      obtain ⟨rfl, rest⟩ := all.agree agree all' (agree.counts counts counts') behind
      exact ⟨rfl, rest⟩
    | nilArray line' number' =>
      obtain ⟨-, rfl, -⟩ := firstLine_append line line' same
      exact absurd (agree.number number number') isArray
    | status | error | integer | bulk | nilBulk => simp [Reply.marker] at markers
  | .nilArray line number =>
    cases right with
    | array line' number' isArray' =>
      simp only [List.append_assoc] at same
      obtain ⟨-, rfl, -⟩ := firstLine_append line line' same
      exact absurd (agree.number number number').symm isArray'
    | nilArray line' number' =>
      obtain ⟨-, rfl, behind⟩ := firstLine_append line line' same
      exact ⟨rfl, behind⟩
    | status | error | integer | bulk | nilBulk => simp [Reply.marker] at markers

/-- So does it with words for as many replies. -/
theorem Words.agree {rules rules' : Rules} (agree : rules.Agree rules')
    {replies replies' : List Reply} {words words' rest rest' : List UInt8}
    (left : Words rules replies words)
    (right : Words rules' replies' words') (length : replies.length = replies'.length)
    (same : words ++ rest = words' ++ rest') : replies = replies' ∧ rest = rest' := by
  match left with
  | .nil =>
    cases right with
    | nil => exact ⟨rfl, same⟩
    | cons => cases length
  | .cons first others =>
    cases right with
    | nil => cases length
    | cons first' others' =>
      rw [List.append_assoc, List.append_assoc] at same
      obtain ⟨rfl, behind⟩ := first.agree agree first' same
      obtain ⟨rfl, rest⟩ := others.agree agree others' (Nat.succ.inj length) behind
      exact ⟨rfl, rest⟩

end

mutual

/-- A well-formed reply is written as a word of the format. -/
theorem word_encode {r : Reply} (wellFormed : r.WellFormed) : Word .strict r (encode r) := by
  have shape := encode_eq r
  match r with
  | .status text =>
    cases wellFormed with
    | status line => exact .status line
  | .error text =>
    cases wellFormed with
    | error line => exact .error line
  | .integer i => exact .integer (no_crlf_intText i) (numeral_intText i)
  | .bulk bytes =>
    have word : Word .strict (.bulk bytes) _ :=
      .bulk (no_crlf_intText _) (numeral_intText bytes.length) rfl
    rwa [shape, Reply.marker, Reply.line, Reply.body, Reply.announced]
  | .nilBulk => exact .nilBulk (no_crlf_intText (-1)) (numeral_intText (-1))
  | .array elements =>
    have all : ∀ e ∈ elements, e.WellFormed := by
      cases wellFormed with
      | array all => exact all
    have word : Word .strict (.array elements) _ :=
      .array (no_crlf_intText _) (numeral_intText elements.length) (by omega) rfl
        (words_encodeAll all)
    rwa [shape, Reply.marker, Reply.line, Reply.body, Reply.announced]
  | .nilArray => exact .nilArray (no_crlf_intText (-1)) (numeral_intText (-1))

/-- So are well-formed replies one after the other. -/
theorem words_encodeAll {replies : List Reply} (wellFormed : ∀ r ∈ replies, r.WellFormed) :
    Words .strict replies (encodeAll replies) := by
  match replies with
  | [] => exact .nil
  | r :: rest =>
    exact .cons (word_encode (wellFormed r List.mem_cons_self))
      (words_encodeAll fun r member => wellFormed r (List.mem_cons_of_mem _ member))

end

end Resp
