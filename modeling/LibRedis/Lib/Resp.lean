import LibRedis.Lib.Decimal
import Mathlib.Data.List.Infix
import Mathlib.Data.List.TakeWhile

/-!
# The RESP wire format

Replies are trees: lines, bulk strings announced by their length, and arrays announced by their
number of elements. Requests are arrays of bulk strings. `encode` and `request` write them;
`parseRequest` reads a request back, and `parseRequest_append` says that bytes behind a request do
not change how it is read, so a request is never read from a part of itself.
-/

namespace Resp

open Decimal

/-- The end of a line. -/
def crlf : List UInt8 := [13, 10]

/-- A reply. -/
inductive Reply where
  /-- `+`: a line. -/
  | status (text : List UInt8)
  /-- `-`: a line that reports an error. -/
  | error (text : List UInt8)
  /-- `:`: a number. -/
  | integer (value : Int)
  /-- `$`: a byte string of announced length. -/
  | bulk (bytes : List UInt8)
  /-- `$-1`: no byte string. -/
  | nilBulk
  /-- `*`: so many replies. -/
  | array (elements : List Reply)
  /-- `*-1`: no array. -/
  | nilArray

/-- A bulk string on the wire. -/
def bulk (bytes : List UInt8) : List UInt8 :=
  36 :: (text bytes.length ++ crlf ++ bytes ++ crlf)

mutual

/-- A reply on the wire. -/
def encode : Reply → List UInt8
  | .status text => 43 :: (text ++ crlf)
  | .error text => 45 :: (text ++ crlf)
  | .integer value => 58 :: (intText value ++ crlf)
  | .bulk bytes => bulk bytes
  | .nilBulk => 36 :: 45 :: 49 :: crlf
  | .array elements => 42 :: (text elements.length ++ crlf ++ encodeAll elements)
  | .nilArray => 42 :: 45 :: 49 :: crlf

/-- Replies on the wire, one after the other. -/
def encodeAll : List Reply → List UInt8
  | [] => []
  | r :: rest => encode r ++ encodeAll rest

end

mutual

/-- How deep the arrays of a reply are nested. -/
def Reply.depth : Reply → Nat
  | .array elements => depthAll elements + 1
  | .status _ | .error _ | .integer _ | .bulk _ | .nilBulk | .nilArray => 0

/-- The greatest depth of some replies. -/
def depthAll : List Reply → Nat
  | [] => 0
  | r :: rest => max r.depth (depthAll rest)

end

/-- The lines inside a reply hold no end of a line. -/
inductive Reply.WellFormed : Reply → Prop
  /-- A status is one line. -/
  | status {text : List UInt8} (line : ¬ crlf <:+: text) : WellFormed (.status text)
  /-- An error is one line. -/
  | error {text : List UInt8} (line : ¬ crlf <:+: text) : WellFormed (.error text)
  /-- Any number. -/
  | integer (value : Int) : WellFormed (.integer value)
  /-- Any byte string. -/
  | bulk (bytes : List UInt8) : WellFormed (.bulk bytes)
  /-- The nil bulk. -/
  | nilBulk : WellFormed .nilBulk
  /-- Every element is well formed. -/
  | array {elements : List Reply} (all : ∀ r ∈ elements, WellFormed r) :
      WellFormed (.array elements)
  /-- The nil array. -/
  | nilArray : WellFormed .nilArray

/-- The lengths that a reader has no room for. -/
structure Limits where
  /-- The line of a status, an error or a number. -/
  line : Nat
  /-- A byte string. -/
  bulk : Nat
  /-- The number of elements of an array. -/
  count : Nat

/-- Every line, byte string and array inside a reply is shorter than the limit for it. -/
inductive Reply.Bounded (limits : Limits) : Reply → Prop
  /-- A status line. -/
  | status {text : List UInt8} (short : text.length < limits.line) : Bounded limits (.status text)
  /-- An error line. -/
  | error {text : List UInt8} (short : text.length < limits.line) : Bounded limits (.error text)
  /-- The line of a number. -/
  | integer {value : Int} (short : (intText value).length < limits.line) :
      Bounded limits (.integer value)
  /-- A byte string. -/
  | bulk {bytes : List UInt8} (short : bytes.length < limits.bulk) : Bounded limits (.bulk bytes)
  /-- The nil bulk. -/
  | nilBulk : Bounded limits .nilBulk
  /-- An array and its elements. -/
  | array {elements : List Reply} (short : elements.length < limits.count)
      (all : ∀ r ∈ elements, Bounded limits r) : Bounded limits (.array elements)
  /-- The nil array. -/
  | nilArray : Bounded limits .nilArray

/-- The first byte of a reply. -/
def Reply.marker : Reply → UInt8
  | .status _ => 43
  | .error _ => 45
  | .integer _ => 58
  | .bulk _ | .nilBulk => 36
  | .array _ | .nilArray => 42

/-- The number that announces a bulk string or an array. -/
def Reply.announced : Reply → Int
  | .bulk bytes => bytes.length
  | .array elements => elements.length
  | .status _ | .error _ | .integer _ | .nilBulk | .nilArray => -1

/-- What stands between the first byte of a reply and the end of its first line. -/
def Reply.line : Reply → List UInt8
  | .status text => text
  | .error text => text
  | .integer value => intText value
  | .bulk bytes => intText (Reply.announced (.bulk bytes))
  | .nilBulk => intText (Reply.announced .nilBulk)
  | .array elements => intText (Reply.announced (.array elements))
  | .nilArray => intText (Reply.announced .nilArray)

/-- What follows the first line of a reply. -/
def Reply.body : Reply → List UInt8
  | .bulk bytes => bytes ++ crlf
  | .array elements => encodeAll elements
  | .status _ | .error _ | .integer _ | .nilBulk | .nilArray => []

/-- A reply is its first line and what follows. -/
theorem encode_eq (r : Reply) : encode r = r.marker :: (r.line ++ crlf ++ r.body) := by
  cases r with
  | bulk bytes =>
    simp [encode, bulk, Reply.marker, Reply.line, Reply.announced, Reply.body, intText_natCast]
  | array elements =>
    simp [encode, Reply.marker, Reply.line, Reply.announced, Reply.body, intText_natCast]
  | nilBulk => rfl
  | nilArray => rfl
  | status text => simp [encode, Reply.marker, Reply.line, Reply.body]
  | error text => simp [encode, Reply.marker, Reply.line, Reply.body]
  | integer value => simp [encode, Reply.marker, Reply.line, Reply.body]

/-- A byte string without a carriage return holds no end of a line. -/
theorem no_crlf_of_plain {line : List UInt8} (plain : ∀ byte ∈ line, byte ≠ 13) :
    ¬ crlf <:+: line := by
  intro inside
  exact plain 13 (inside.subset (by simp [crlf])) rfl

/-- A printed number holds no end of a line. -/
theorem no_crlf_intText (value : Int) : ¬ crlf <:+: intText value := by
  refine no_crlf_of_plain fun byte member => ?_
  rintro rfl
  rcases mem_intText member with minus | digit
  · exact absurd minus (by decide)
  · exact absurd digit (by decide)

/-- The first line of a well-formed reply holds no end of a line. -/
theorem Reply.WellFormed.line {r : Reply} (wellFormed : r.WellFormed) : ¬ crlf <:+: r.line := by
  cases wellFormed with
  | status line => exact line
  | error line => exact line
  | integer value => exact no_crlf_intText value
  | bulk bytes => exact no_crlf_intText _
  | nilBulk => exact no_crlf_intText _
  | array all => exact no_crlf_intText _
  | nilArray => exact no_crlf_intText _

/-- The first line of a reply is short if every length in the reply is. -/
theorem Reply.Bounded.line {limits : Limits} (some : 20 < limits.line)
    (bulks : limits.bulk ≤ 2 ^ 64) (counts : limits.count ≤ 2 ^ 64) {r : Reply}
    (bounded : r.Bounded limits) : r.line.length < limits.line := by
  have count : ∀ number : Nat, number < 2 ^ 64 → (intText (number : Int)).length < limits.line := by
    intro number below
    have digits := length_text_le number 20 (by decide) (by omega)
    rw [intText_natCast]
    omega
  have nil : (intText (-1)).length < limits.line := by
    have two : (intText (-1)).length = 2 := by decide
    omega
  cases bounded with
  | status short => exact short
  | error short => exact short
  | integer short => exact short
  | bulk short => exact count _ (lt_of_lt_of_le short bulks)
  | nilBulk => exact nil
  | array short all => exact count _ (lt_of_lt_of_le short counts)
  | nilArray => exact nil

/-- No reply is written as nothing. -/
theorem encode_ne_nil (r : Reply) : encode r ≠ [] := by
  cases r <;> simp [encode, bulk]

/-- The line of a number of 64 bits is short. -/
theorem Reply.Bounded.integer64 {limits : Limits} (some : 20 < limits.line) {value : Int}
    (low : -2 ^ 63 ≤ value) (high : value < 2 ^ 63) : Reply.Bounded limits (.integer value) := by
  have digits := length_text_le value.natAbs 19 (by decide) (by omega)
  refine .integer ?_
  rw [intText]
  split
  · rw [List.length_cons]
    omega
  · omega

mutual

/-- A reply is nested less deeply than it is long. -/
theorem depth_lt_length (r : Reply) : r.depth < (encode r).length := by
  match r with
  | .array elements =>
    have inside := depthAll_le_length elements
    have ends : crlf.length = 2 := rfl
    simp only [Reply.depth, encode, List.length_cons, List.length_append]
    omega
  | .status _ | .error _ | .integer _ | .bulk _ | .nilBulk | .nilArray =>
    exact List.length_pos_iff.mpr (encode_ne_nil _)

/-- So are some replies one after the other. -/
theorem depthAll_le_length (replies : List Reply) :
    depthAll replies ≤ (encodeAll replies).length := by
  match replies with
  | [] => exact le_rfl
  | r :: rest =>
    have first := depth_lt_length r
    have others := depthAll_le_length rest
    simp only [depthAll, encodeAll, List.length_append]
    omega

end

/-- The depth of an element is at most that of the list. -/
theorem depth_le_depthAll {r : Reply} {elements : List Reply} (member : r ∈ elements) :
    r.depth ≤ depthAll elements := by
  induction elements with
  | nil => simp at member
  | cons first rest ih =>
    rw [depthAll]
    rcases List.mem_cons.mp member with rfl | later
    · exact le_max_left _ _
    · exact (ih later).trans (le_max_right _ _)

/-- Lists of replies are written one after the other. -/
@[simp] theorem encodeAll_append (left right : List Reply) :
    encodeAll (left ++ right) = encodeAll left ++ encodeAll right := by
  induction left with
  | nil => rfl
  | cons r rest ih => rw [List.cons_append, encodeAll, ih, encodeAll, List.append_assoc]

/-- Every reply takes a byte. -/
theorem length_le_encodeAll (replies : List Reply) :
    replies.length ≤ (encodeAll replies).length := by
  induction replies with
  | nil => exact le_rfl
  | cons r rest ih =>
    have some := List.length_pos_iff.mpr (encode_ne_nil r)
    rw [encodeAll, List.length_cons, List.length_append]
    omega

/-- A list of replies is written as nothing only if it is empty. -/
theorem encodeAll_eq_nil {replies : List Reply} : encodeAll replies = [] ↔ replies = [] := by
  cases replies with
  | nil => simp [encodeAll]
  | cons r rest => simp [encodeAll, encode_ne_nil]

/-- A request: its arguments as an array of bulk strings. -/
def request (args : List (List UInt8)) : List UInt8 :=
  42 :: (text args.length ++ crlf ++ args.flatMap bulk)

/-- A marker, a number and the end of the line: the number and what follows. -/
def parseCount (marker : UInt8) : List UInt8 → Option (Nat × List UInt8)
  | [] => none
  | byte :: line =>
    if byte ≠ marker ∨ line.takeWhile isDigit = [] then none
    else
      match line.dropWhile isDigit with
      | 13 :: 10 :: rest => some (value (line.takeWhile isDigit), rest)
      | _ => none

/-- A bulk string: its bytes and what follows. -/
def parseBulk (bytes : List UInt8) : Option (List UInt8 × List UInt8) :=
  (parseCount 36 bytes).bind fun (length, rest) =>
    if rest.length < length + 2 ∨ (rest.drop length).take 2 ≠ crlf then none
    else some (rest.take length, rest.drop (length + 2))

/-- So many bulk strings. -/
def parseBulks : Nat → List UInt8 → Option (List (List UInt8) × List UInt8)
  | 0, bytes => some ([], bytes)
  | count + 1, bytes =>
    (parseBulk bytes).bind fun (first, rest) =>
      (parseBulks count rest).map fun (others, rest) => (first :: others, rest)

/-- A request: its arguments and what follows. -/
def parseRequest (bytes : List UInt8) : Option (List (List UInt8) × List UInt8) :=
  (parseCount 42 bytes).bind fun (count, rest) => parseBulks count rest

/-- So many requests. -/
def parseRequests : Nat → List UInt8 → Option (List (List (List UInt8)) × List UInt8)
  | 0, bytes => some ([], bytes)
  | count + 1, bytes =>
    (parseRequest bytes).bind fun (first, rest) =>
      (parseRequests count rest).map fun (others, rest) => (first :: others, rest)

/-- The end of a line does not continue a number. -/
theorem crlf_stops (rest : List UInt8) : Stops (crlf ++ rest) := by
  intro byte first
  obtain rfl : (13 : UInt8) = byte := by simpa [crlf] using first
  decide

/-- A count is read back. -/
theorem parseCount_text (marker : UInt8) (number : Nat) (rest : List UInt8) :
    parseCount marker (marker :: (text number ++ crlf ++ rest)) = some (number, rest) := by
  rw [parseCount, List.append_assoc, takeWhile_text number (crlf_stops rest),
    dropWhile_text number (crlf_stops rest),
    if_neg (by simp [text_ne_nil]), value_text]
  rfl

/-- A bulk string is read back, whatever its bytes are. -/
theorem parseBulk_bulk (bytes rest : List UInt8) :
    parseBulk (bulk bytes ++ rest) = some (bytes, rest) := by
  have shape : bulk bytes ++ rest =
      36 :: (text bytes.length ++ crlf ++ (bytes ++ (crlf ++ rest))) := by
    simp [bulk]
  have enough : ¬ (bytes ++ (crlf ++ rest)).length < bytes.length + 2 := by
    simp [crlf]
  rw [parseBulk, shape, parseCount_text]
  simp only [Option.bind_some, List.drop_left, List.take_left, ← List.drop_drop]
  exact if_neg (not_or.mpr ⟨enough, by simp [crlf]⟩)

/-- Bulk strings are read back in order. -/
theorem parseBulks_bulks (args : List (List UInt8)) (rest : List UInt8) :
    parseBulks args.length (args.flatMap bulk ++ rest) = some (args, rest) := by
  induction args with
  | nil => rfl
  | cons first others ih =>
    rw [List.length_cons, parseBulks, List.flatMap_cons, List.append_assoc, parseBulk_bulk]
    simp only [Option.bind_some, ih, Option.map_some]

/-- A request is read back, whatever its arguments hold. -/
theorem parseRequest_request (args : List (List UInt8)) (rest : List UInt8) :
    parseRequest (request args ++ rest) = some (args, rest) := by
  have shape : request args ++ rest =
      42 :: (text args.length ++ crlf ++ (args.flatMap bulk ++ rest)) := by
    simp [request]
  rw [parseRequest, shape, parseCount_text]
  exact parseBulks_bulks args rest

/-- Requests one after the other are read back in order. -/
theorem parseRequests_requests (requests : List (List (List UInt8))) (rest : List UInt8) :
    parseRequests requests.length (requests.flatMap request ++ rest) = some (requests, rest) := by
  induction requests with
  | nil => rfl
  | cons first others ih =>
    rw [List.length_cons, parseRequests, List.flatMap_cons, List.append_assoc,
      parseRequest_request]
    simp only [Option.bind_some, ih, Option.map_some]

/-- A count that was read is read the same with more bytes behind. -/
theorem parseCount_append {marker : UInt8} {bytes rest : List UInt8} {number : Nat}
    (parsed : parseCount marker bytes = some (number, rest)) (more : List UInt8) :
    parseCount marker (bytes ++ more) = some (number, rest ++ more) := by
  cases bytes with
  | nil => simp [parseCount] at parsed
  | cons byte line =>
    rw [parseCount] at parsed
    split at parsed
    · simp at parsed
    · rename_i good
      split at parsed
      · rename_i tail ends
        obtain ⟨rfl, rfl⟩ : value (line.takeWhile isDigit) = number ∧ tail = rest := by
          simpa using parsed
        have digits : ∀ byte ∈ line.takeWhile isDigit, isDigit byte = true :=
          fun byte member => List.mem_takeWhile_imp member
        have whole : line ++ more = line.takeWhile isDigit ++ (13 :: 10 :: (tail ++ more)) := by
          nth_rewrite 1 [← List.takeWhile_append_dropWhile (p := isDigit) (l := line)]
          rw [ends]
          simp
        have stop : isDigit 13 = false := by decide
        have taken : (line ++ more).takeWhile isDigit = line.takeWhile isDigit := by
          rw [whole, List.takeWhile_append_of_pos digits, List.takeWhile_cons, stop]
          simp
        have dropped : (line ++ more).dropWhile isDigit = 13 :: 10 :: (tail ++ more) := by
          have parts := List.takeWhile_append_dropWhile (p := isDigit) (l := line ++ more)
          rw [taken] at parts
          exact List.append_cancel_left (parts.trans whole)
        rw [List.cons_append, parseCount, taken, dropped, if_neg good]
        rfl
      · simp at parsed

/-- A bulk string that was read is read the same with more bytes behind. -/
theorem parseBulk_append {bytes rest content : List UInt8}
    (parsed : parseBulk bytes = some (content, rest)) (more : List UInt8) :
    parseBulk (bytes ++ more) = some (content, rest ++ more) := by
  rw [parseBulk, Option.bind_eq_some_iff] at parsed
  obtain ⟨⟨length, tail⟩, count, body⟩ := parsed
  simp only at body
  split at body
  · simp at body
  · rename_i good
    obtain ⟨long, ends⟩ := not_or.mp good
    rw [Nat.not_lt] at long
    rw [not_not] at ends
    obtain ⟨rfl, rfl⟩ : tail.take length = content ∧ tail.drop (length + 2) = rest := by
      simpa using body
    rw [parseBulk, parseCount_append count more]
    simp only [Option.bind_some]
    rw [List.take_append_of_le_length (by omega),
      List.drop_append_of_le_length (show length + 2 ≤ tail.length by omega),
      List.drop_append_of_le_length (show length ≤ tail.length by omega),
      List.take_append_of_le_length (by rw [List.length_drop]; omega)]
    refine if_neg (not_or.mpr ⟨?_, not_not.mpr ends⟩)
    rw [List.length_append]
    omega

/-- Bulk strings that were read are read the same with more bytes behind. -/
theorem parseBulks_append {count : Nat} {bytes rest : List UInt8} {args : List (List UInt8)}
    (parsed : parseBulks count bytes = some (args, rest)) (more : List UInt8) :
    parseBulks count (bytes ++ more) = some (args, rest ++ more) := by
  induction count generalizing bytes args with
  | zero =>
    obtain ⟨rfl, rfl⟩ : [] = args ∧ bytes = rest := by simpa [parseBulks] using parsed
    rfl
  | succ count ih =>
    rw [parseBulks, Option.bind_eq_some_iff] at parsed
    obtain ⟨⟨first, tail⟩, one, others⟩ := parsed
    rw [Option.map_eq_some_iff] at others
    obtain ⟨⟨later, behind⟩, readLater, whole⟩ := others
    obtain ⟨rfl, rfl⟩ : first :: later = args ∧ behind = rest := by simpa using whole
    rw [parseBulks, parseBulk_append one more]
    simp only [Option.bind_some, ih readLater, Option.map_some]

/-- A request that was read is read the same with more bytes behind. -/
theorem parseRequest_append {bytes rest : List UInt8} {args : List (List UInt8)}
    (parsed : parseRequest bytes = some (args, rest)) (more : List UInt8) :
    parseRequest (bytes ++ more) = some (args, rest ++ more) := by
  rw [parseRequest, Option.bind_eq_some_iff] at parsed
  obtain ⟨⟨count, tail⟩, header, body⟩ := parsed
  rw [parseRequest, parseCount_append header more]
  exact parseBulks_append body more

/-- No request is read from a part of one. -/
theorem parseRequest_part {args : List (List UInt8)} {part more : List UInt8}
    (whole : part ++ more = request args) (missing : more ≠ []) : parseRequest part = none := by
  cases parsed : parseRequest part with
  | none => rfl
  | some read =>
    have complete := parseRequest_append parsed more
    have all := parseRequest_request args []
    rw [List.append_nil, ← whole, complete] at all
    simp [missing] at all

end Resp
