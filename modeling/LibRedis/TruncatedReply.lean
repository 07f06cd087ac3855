import LibRedis.BulkValues
import LibRedis.EncodedScan

/-!
# Truncated replies

A stream that ends in the middle of a reply. `read_reply` returns false and has closed the
connection, at whatever byte the reply is cut and however the stream ends, unless it comes to the
header of a byte string of `2 ^ 62 - 2` bytes or more, for which no receive buffer has room, or for
a multi-bulk of bulks to one of `2 ^ 60` elements or more, for which no vector has room. There the
constructor of the vector or `reserve` throws, or the doubling loop of the buffer never ends.
-/

namespace LibRedis

open Decimal (ascii intText)
open Resp (Reply crlf encode encodeAll)

/-- The type that the elements of an array are held to. -/
def elementType : ReplyType → Option ReplyType
  | .multiBulk => some .bulk
  | .specialMultiBulk | .depends => some .depends
  | .none | .status | .error | .integer | .bulk => none

/-- Reading a reply for a type comes, within these bytes, to the header of a byte string that the
receive buffer has no room for, or of an array that the vector of its elements has no room for. -/
inductive TooLarge : ReplyType → Reply → Bytes → Prop
  /-- The header of the byte string is there. -/
  | bulk {type : ReplyType} {bytes stream : Bytes} (allowed : type = .bulk ∨ type = .depends)
      (large : 2 ^ 62 ≤ bytes.length + 2) (decoded : bytes.length < 2 ^ 63)
      (header : 36 :: (intText bytes.length ++ crlf) <+: stream) :
      TooLarge type (.bulk bytes) stream
  /-- The header of an array of bulks is there. Only for these is room made at once. -/
  | count {elements : List Reply} {stream : Bytes} (large : 2 ^ 60 ≤ elements.length)
      (decoded : elements.length < 2 ^ 63)
      (header : 42 :: (intText elements.length ++ crlf) <+: stream) :
      TooLarge .multiBulk (.array elements) stream
  /-- It is an element of an array, behind elements that are accepted. -/
  | array {type inner : ReplyType} {before after : List Reply} {e : Reply} {stream : Bytes}
      (held : elementType type = some inner) (short : (before ++ e :: after).length < 2 ^ 63)
      (accepted : ∀ b ∈ before, Accepts inner b) (large : TooLarge inner e stream) :
      TooLarge type (.array (before ++ e :: after))
        (42 :: (intText (before ++ e :: after).length ++ crlf ++ encodeAll before ++ stream))

/-- The first line of the reply has then arrived. -/
theorem TooLarge.header {type : ReplyType} {r : Reply} {stream : Bytes}
    (large : TooLarge type r stream) : r.marker :: r.line ++ crlf <+: stream := by
  cases large with
  | bulk allowed large decoded header => exact header
  | count large decoded header => exact header
  | @array _ _ before after e stream held short accepted large =>
    refine ⟨encodeAll before ++ stream, ?_⟩
    simp [Reply.marker, Reply.line, Reply.announced]

namespace ReplyScan

variable {decode : Bytes → Option Int} {clean : Prop}

/-- The first line of a reply in a stream that begins with the reply, or with a part of it. -/
theorem line_part {r : Reply} (wellFormed : r.WellFormed) {part missing rest : Bytes}
    (whole : part ++ missing = encode r ++ rest) :
    (line part = .starves ∧ ¬ r.marker :: r.line ++ crlf <+: part) ∨
    (∃ behind, line part = .takes (r.marker :: r.line) behind ∧
      part = r.marker :: r.line ++ crlf ++ behind ∧ behind ++ missing = r.body ++ rest) := by
  have later := line_extends part missing
  rw [whole, line_reply wellFormed] at later
  generalize found : line part = result at later
  generalize taken : Scan.takes (r.marker :: r.line) (r.body ++ rest) = result' at later
  cases later with
  | starves _ =>
    refine Or.inl ⟨rfl, fun ⟨behind, shape⟩ => ?_⟩
    refine line_eq_starves.mp found (r.marker :: r.line) behind ?_
    rw [← shape]
    exact Delimited.splits_pair (by decide)
      (no_crlf_cons (RedisProtocol.marker_ne r) wellFormed.line) _
  | takes header behind =>
    obtain ⟨rfl, left⟩ := Scan.takes.inj taken
    exact Or.inr ⟨behind, rfl, (line_eq_takes.mp found).1.eq, left.symm⟩
  | stops | refuses | stalls => cases taken

/-- An element that is taken off the front of a part of a stream was there whole. -/
theorem taken_whole {α : Type} {element deeper : Bytes → Scan UInt8 α} {accepted : Prop}
    {value taken : α} {e : Reply} {part missing rest left : Bytes}
    (settles : Settles (2 ^ 62) (encode e).length accepted value rest (deeper (encode e ++ rest)))
    (later : Scan.Extends missing (element part) (deeper (part ++ missing)))
    (whole : part ++ missing = encode e ++ rest) (takes : element part = .takes taken left) :
    accepted ∧ part = encode e ++ left ∧ left ++ missing = rest := by
  rw [whole, takes] at later
  generalize deeper (encode e ++ rest) = result at settles later
  cases later
  generalize same : Scan.takes taken (left ++ missing) = result at settles
  cases settles with
  | takes accepts =>
    obtain ⟨-, rest⟩ := Scan.takes.inj same
    refine ⟨accepts, @List.append_cancel_right _ part missing _ ?_, rest⟩
    rw [whole, List.append_assoc, rest]
  | refuses | stalls => cases same

/-- How the elements of an array are scanned: one that is there whole settles, and a part of one
stalls where it is stuck. The deeper scan is the one of streams that are longer than the bound. -/
structure Elements {α : Type} (bound : Nat) (element deeper : Bytes → Scan UInt8 α)
    (accepted : Reply → Prop) (value : Reply → α) (stuck : Reply → Bytes → Prop)
    (elements : List Reply) : Prop where
  /-- A short element settles. -/
  settles : ∀ e ∈ elements, ∀ rest, (encode e).length < bound →
    Settles (2 ^ 62) (encode e).length (accepted e) (value e) rest (element (encode e ++ rest))
  /-- Any element settles in the deeper scan. -/
  whole : ∀ e ∈ elements, ∀ rest,
    Settles (2 ^ 62) (encode e).length (accepted e) (value e) rest (deeper (encode e ++ rest))
  /-- What is decided stays decided in the deeper scan. -/
  later : ∀ stream more, Scan.Extends more (element stream) (deeper (stream ++ more))
  /-- Where a part of an element stalls. -/
  stalls : ∀ e ∈ elements, ∀ part missing rest, part.length < bound →
    part ++ missing = encode e ++ rest → (element part = .stalls ↔ stuck e part)

/-- The elements behind the first one are scanned in the same way. -/
theorem Elements.tail {α : Type} {bound : Nat} {element deeper : Bytes → Scan UInt8 α}
    {accepted : Reply → Prop} {value : Reply → α} {stuck : Reply → Bytes → Prop} {first : Reply}
    {others : List Reply}
    (all : Elements bound element deeper accepted value stuck (first :: others)) :
    Elements bound element deeper accepted value stuck others where
  settles := fun e member => all.settles e (by simp [member])
  whole := fun e member => all.whole e (by simp [member])
  later := all.later
  stalls := fun e member => all.stalls e (by simp [member])

/-- Scanning the elements of an array stalls at the first element that stalls. -/
theorem times_stalls {α : Type} {bound : Nat} (small : bound ≤ 2 ^ 60)
    {element deeper : Bytes → Scan UInt8 α} {accepted : Reply → Prop} {value : Reply → α}
    {stuck : Reply → Bytes → Prop} {elements : List Reply}
    (all : Elements bound element deeper accepted value stuck elements)
    {part missing rest : Bytes} (short : part.length < bound)
    (whole : part ++ missing = encodeAll elements ++ rest) :
    Scan.times element elements.length part = .stalls ↔
      ∃ before e after behind, elements = before ++ e :: after ∧ (∀ b ∈ before, accepted b) ∧
        part = encodeAll before ++ behind ∧ stuck e behind := by
  induction elements generalizing part with
  | nil => simp [Scan.times]
  | cons first others ih =>
    rw [encodeAll, List.append_assoc] at whole
    have here := all.stalls first (by simp) part missing _ short whole
    rw [List.length_cons, Scan.times, Scan.bind_eq_stalls]
    constructor
    · rintro (stuckHere | ⟨taken, left, takes, further⟩)
      · exact ⟨[], first, others, part, rfl, by simp, rfl, here.mp stuckHere⟩
      · obtain ⟨accepts, rfl, behind_⟩ :=
          taken_whole (all.whole first (by simp) _) (all.later part missing) whole takes
        have shorter : left.length < bound := by
          rw [List.length_append] at short
          omega
        have stuckLater : Scan.times element others.length left = .stalls := by
          rcases Scan.bind_eq_stalls.mp further with stuckLater | ⟨_, _, _, wrong⟩
          · exact stuckLater
          · cases wrong
        obtain ⟨before, e, after, behind, rfl, each, rfl, found⟩ :=
          (ih all.tail shorter behind_).mp stuckLater
        exact ⟨first :: before, e, after, behind, rfl, List.forall_mem_cons.mpr ⟨accepts, each⟩,
          by rw [encodeAll, List.append_assoc], found⟩
    · rintro ⟨before, e, after, behind, same, each, rfl, found⟩
      cases before with
      | nil =>
        obtain ⟨rfl, rfl⟩ := List.cons.inj same
        exact Or.inl (here.mpr found)
      | cons b before =>
        rw [List.cons_append] at same
        obtain ⟨rfl, rfl⟩ := List.cons.inj same
        have accepts := each first (by simp)
        have left : encodeAll before ++ behind ++ missing =
            encodeAll (before ++ e :: after) ++ rest := by
          simpa [encodeAll] using whole
        rw [encodeAll, List.append_assoc] at short ⊢
        rw [List.length_append] at short
        have further := (ih all.tail (by omega) left).mpr
          ⟨before, e, after, behind, rfl, fun b member => each b (by simp [member]), rfl, found⟩
        have arrived := all.settles first (by simp) (encodeAll before ++ behind) (by omega)
        revert arrived
        generalize element (encode first ++ (encodeAll before ++ behind)) = result
        rintro (- | fails | long)
        · refine Or.inr ⟨value first, _, rfl, ?_⟩
          rw [further, Scan.bind_stalls]
        · exact absurd accepts fails
        · omega

/-- A scan behind a header stalls if the header is decoded and what follows stalls. -/
theorem number_stalls (decodes : Decodes clean decode) {α : Type} (marker : UInt8) (i : Int)
    (stream : Bytes) (next : Int → Bytes → Scan UInt8 α) :
    (number decode (marker :: intText i) stream).bind next = .stalls ↔
      clean ∧ RedisProtocol.InRange i ∧ next i stream = .stalls := by
  rw [number, List.tail_cons]
  by_cases good : clean ∧ RedisProtocol.InRange i
  · rw [decodes.some good.1 good.2, Scan.bind_takes]
    exact ⟨fun stalls => ⟨good.1, good.2, stalls⟩, fun all => all.2.2⟩
  · rw [decodes.none good]
    exact iff_of_false (by simp) fun all => good ⟨all.1, all.2.1⟩

/-- A bulk behind its header stalls exactly if it is too long but still a number of 64 bits. -/
theorem bulkBehind_stalls (decodes : Decodes clean decode) (bytes stream : Bytes) :
    bulkBehind decode (2 ^ 62) (36 :: intText bytes.length) stream = .stalls ↔
      clean ∧ bytes.length < 2 ^ 63 ∧ 2 ^ 62 ≤ bytes.length + 2 := by
  rw [bulkBehind, number_stalls decodes]
  refine and_congr_right fun _ => ?_
  simp only [RedisProtocol.InRange]
  by_cases empty : bytes.length = 0
  · rw [if_pos (by omega)]
    exact iff_of_false (fun all => by cases all.2) (by omega)
  · rw [if_neg (by omega), if_neg (by omega), Int.toNat_natCast, payload]
    by_cases long : 2 ^ 62 ≤ bytes.length + 2
    · rw [if_pos long, Scan.bind_stalls]
      exact ⟨fun all => ⟨by omega, long⟩, fun all => ⟨by omega, rfl⟩⟩
    · rw [if_neg long]
      refine iff_of_false (fun all => ?_) (by omega)
      have stalls := all.2
      split at stalls <;> cases stalls

/-- The nil bulk does not stall. -/
theorem bulkBehind_nil (decodes : Decodes clean decode) (stream : Bytes) :
    bulkBehind decode (2 ^ 62) (36 :: intText (-1)) stream ≠ .stalls := by
  rw [bulkBehind, Ne, number_stalls decodes]
  exact fun all => nomatch all.2.2

/-- What is made of a value that was scanned does not stall. -/
theorem map_stalls {α γ : Type} {scan : Scan UInt8 α} (view : α → γ) :
    (scan.bind fun value rest => .takes (view value) rest) = .stalls ↔ scan = .stalls := by
  cases scan with
  | takes value rest => exact iff_of_false nofun nofun
  | stops | refuses | starves | stalls => simp [Scan.bind]

/-- An element of a multi-bulk of bulks stalls at a byte string that is too long. -/
theorem bulk_stalls (decodes : Decodes clean decode) {e : Reply} (wellFormed : e.WellFormed)
    {part missing rest : Bytes} (whole : part ++ missing = encode e ++ rest) :
    bulk decode (2 ^ 62) part = .stalls ↔ clean ∧ TooLarge .bulk e part := by
  rw [bulk]
  rcases line_part wellFormed whole with ⟨starves, absent⟩ | ⟨behind, takes, rfl, left⟩
  · rw [starves, Scan.bind_starves]
    exact iff_of_false (by simp) fun large => absent large.2.header
  · rw [takes, Scan.bind_takes]
    simp only [List.head?_cons, Option.some.injEq]
    cases e with
    | bulk bytes =>
      change bulkBehind decode (2 ^ 62) (36 :: intText bytes.length) behind = .stalls ↔ _
      rw [bulkBehind_stalls decodes]
      constructor
      · rintro ⟨isClean, small, large⟩
        exact ⟨isClean, .bulk (Or.inl rfl) large small
          (by simp [Reply.marker, Reply.line, Reply.announced])⟩
      · rintro ⟨isClean, large⟩
        cases large with
        | bulk allowed large small header => exact ⟨isClean, small, large⟩
    | nilBulk =>
      refine iff_of_false (bulkBehind_nil decodes behind) fun large => ?_
      cases large.2
    | array elements =>
      refine iff_of_false (by simp [Reply.marker]) fun large => ?_
      obtain ⟨-, large⟩ := large
      generalize shape : Reply.marker (.array elements) :: Reply.line (.array elements) ++ crlf ++
        behind = stream at large
      cases large with
      | array held _ _ _ => cases held
    | status | error | integer | nilArray =>
      refine iff_of_false (by simp [Reply.marker]) fun large => ?_
      cases large.2

/-- The header of an array is no part of the elements. -/
theorem array_large {type : ReplyType} {elements : List Reply} {behind : Bytes} :
    TooLarge type (.array elements)
        (42 :: (intText elements.length ++ crlf) ++ behind) ↔
      elements.length < 2 ^ 63 ∧ (type = .multiBulk ∧ 2 ^ 60 ≤ elements.length ∨
        ∃ inner, elementType type = some inner ∧ ∃ before e after left,
          elements = before ++ e :: after ∧ (∀ b ∈ before, Accepts inner b) ∧
          behind = encodeAll before ++ left ∧ TooLarge inner e left) := by
  constructor
  · intro large
    generalize shape : 42 :: (intText (elements.length : Int) ++ crlf) ++ behind = stream at large
    cases large with
    | count large decoded header => exact ⟨decoded, Or.inl ⟨rfl, large⟩⟩
    | @array _ inner before after e left held short accepted large =>
      refine ⟨short, Or.inr ⟨inner, held, before, e, after, left, rfl, accepted, ?_, large⟩⟩
      simpa using shape
  · rintro ⟨short, ⟨rfl, large⟩ | ⟨inner, held, before, e, after, left, rfl, accepted, rfl, large⟩⟩
    · exact .count large short (List.prefix_append _ _)
    · have whole := TooLarge.array held short accepted large
      simpa using whole

/-- The elements of an array, each of which is accepted or stalls as its type says, stall as the
array does. -/
theorem elements_stall {α : Type} {bound : Nat} (few : bound ≤ 2 ^ 60)
    {element deeper : Bytes → Scan UInt8 α} {value : Reply → α} {type inner : ReplyType}
    (held : elementType type = some inner) {elements : List Reply}
    (all : Elements bound element deeper (Accepts inner) value (TooLarge inner) elements)
    (room : ¬ (type = .multiBulk ∧ 2 ^ 60 ≤ elements.length))
    {behind missing rest : Bytes} (short : behind.length < bound)
    (whole : behind ++ missing = encodeAll elements ++ rest) :
    RedisProtocol.InRange elements.length ∧
        Scan.times element elements.length behind = .stalls ↔
      TooLarge type (.array elements) (42 :: (intText elements.length ++ crlf) ++ behind) := by
  have small : RedisProtocol.InRange elements.length ↔ elements.length < 2 ^ 63 := by
    simp only [RedisProtocol.InRange]
    omega
  rw [array_large, small, times_stalls few all short whole, or_iff_right room]
  refine and_congr_right fun _ => ⟨fun found => ⟨inner, held, found⟩, ?_⟩
  rintro ⟨inner', held', found⟩
  obtain rfl := Option.some.inj (held.symm.trans held')
  exact found

/-- An array behind its header. -/
theorem array_stalls {bound : Nat} (few : bound ≤ 2 ^ 60) (decodes : Decodes clean decode)
    {elements : List Reply} (wellFormed : ∀ e ∈ elements, e.WellFormed)
    {child : Bytes → Scan UInt8 RedisOutput} (deeper : Bytes → Scan UInt8 RedisOutput)
    (all : clean → Elements bound child deeper (Accepts .depends) denote (TooLarge .depends) elements)
    (type : ReplyType) {behind missing rest : Bytes} (short : behind.length < bound)
    (whole : behind ++ missing = encodeAll elements ++ rest) :
    (if type = .multiBulk then
        multiBulkReply decode (2 ^ 62) (42 :: intText elements.length) behind
      else if type = .specialMultiBulk ∨ type = .depends then
        specialReply decode child (42 :: intText elements.length) behind
      else .refuses) = .stalls ↔
      clean ∧ TooLarge type (.array elements)
        (42 :: (intText elements.length ++ crlf) ++ behind) := by
  by_cases multiBulk : type = .multiBulk
  · subst multiBulk
    rw [if_pos rfl, multiBulkReply, number_stalls decodes]
    refine and_congr_right fun isClean => ?_
    rw [if_neg (by omega), if_neg (by omega)]
    by_cases large : 2 ^ 60 ≤ elements.length
    · rw [if_pos (by omega), array_large, and_iff_left rfl]
      simp only [RedisProtocol.InRange, large, and_self, true_or, and_true]
      omega
    rw [if_neg (by omega), map_stalls, Int.toNat_natCast]
    have settles : ∀ e ∈ elements, ∀ rest, Settles (2 ^ 62) (encode e).length (Accepts .bulk e)
        (bulkOf e) rest (bulk decode (2 ^ 62) (encode e ++ rest)) := fun e member rest =>
      (bulk_settles decodes (wellFormed e member) rest).congr (and_iff_right isClean)
    have bulks : Elements bound (bulk decode (2 ^ 62)) (bulk decode (2 ^ 62)) (Accepts .bulk) bulkOf
        (TooLarge .bulk) elements :=
      ⟨fun e member rest _ => settles e member rest, settles, bulk_extends,
        fun e member part missing rest _ whole =>
          (bulk_stalls decodes (wellFormed e member) whole).trans (and_iff_right isClean)⟩
    exact elements_stall few rfl bulks (fun both => large both.2) short whole
  · rw [if_neg multiBulk]
    by_cases special : type = .specialMultiBulk ∨ type = .depends
    · rw [if_pos special, specialReply, number_stalls decodes]
      refine and_congr_right fun isClean => ?_
      rw [if_neg (by omega), map_stalls, Int.toNat_natCast]
      have held : elementType type = some .depends := by
        rcases special with rfl | rfl <;> rfl
      exact elements_stall few held (all isClean) (fun both => multiBulk both.1) short whole
    · rw [if_neg special]
      refine iff_of_false (by simp) fun large => ?_
      obtain ⟨inner, held, -⟩ := (array_large.mp large.2).2.resolve_left fun both =>
        multiBulk both.1
      cases type with
      | multiBulk => exact multiBulk rfl
      | specialMultiBulk => exact special (Or.inl rfl)
      | depends => exact special (Or.inr rfl)
      | none | status | error | integer | bulk => cases held

/-- The nil array does not stall. -/
theorem nilArray_stalls (decodes : Decodes clean decode) (child : Bytes → Scan UInt8 RedisOutput)
    (type : ReplyType) (behind : Bytes) :
    (if type = .multiBulk then multiBulkReply decode (2 ^ 62) (42 :: intText (-1)) behind
      else if type = .specialMultiBulk ∨ type = .depends then
        specialReply decode child (42 :: intText (-1)) behind
      else .refuses) ≠ .stalls := by
  split
  · rw [multiBulkReply, Ne, number_stalls decodes]
    exact fun all => nomatch all.2.2
  · split
    · rw [specialReply, Ne, number_stalls decodes]
      exact fun all => nomatch all.2.2
    · exact nofun

/-- A part of a reply without errors stalls at a byte string that is too long. The induction is on
the fuel, which the part stays below in length. -/
theorem reply_stalls (decodes : Decodes clean decode) {fuel : Nat} (few : fuel ≤ 2 ^ 60) {r : Reply}
    (wellFormed : r.WellFormed) (free : ErrorFree r) (type : ReplyType)
    {part missing rest : Bytes} (short : part.length < fuel)
    (whole : part ++ missing = encode r ++ rest) :
    reply decode (2 ^ 62) fuel type part = .stalls ↔ clean ∧ TooLarge type r part := by
  induction fuel generalizing r type part missing rest with
  | zero => omega
  | succ fuel ih =>
    rw [reply]
    rcases line_part wellFormed whole with ⟨starves, absent⟩ | ⟨behind, takes, rfl, left⟩
    · rw [starves, Scan.bind_starves]
      exact iff_of_false (by simp) fun large => absent large.2.header
    · rw [takes, Scan.bind_takes]
      have shorter : behind.length < fuel := by
        have left := line_shorter takes
        omega
      have typed {scan : Scan UInt8 RedisOutput} (other : ReplyType) :
          (if type = other ∨ type = .depends then scan else .refuses) = .stalls ↔
            (type = other ∨ type = .depends) ∧ scan = .stalls := by
        split
        · rename_i allowed
          exact ⟨fun stalls => ⟨allowed, stalls⟩, fun both => both.2⟩
        · rename_i refused
          exact iff_of_false (by simp) fun both => refused both.1
      cases r with
      | error text => cases free
      | status text =>
        refine iff_of_false (fun stalls => ?_) fun large => by cases large.2
        cases ((typed .status).mp stalls).2
      | integer value =>
        refine iff_of_false (fun stalls => ?_) fun large => by cases large.2
        have wrong := (number_stalls decodes 58 value behind _).mp ((typed .integer).mp stalls).2
        cases wrong.2.2
      | nilBulk =>
        refine iff_of_false (fun stalls => ?_) fun large => by cases large.2
        exact bulkBehind_nil decodes behind ((map_stalls _).mp ((typed .bulk).mp stalls).2)
      | nilArray =>
        refine iff_of_false (fun stalls => ?_) fun large => by cases large.2
        exact nilArray_stalls decodes _ type behind stalls
      | bulk bytes =>
        change (if type = .bulk ∨ type = .depends then
          bulkReply decode (2 ^ 62) (36 :: intText bytes.length) behind else .refuses) = .stalls ↔ _
        rw [typed, bulkReply, map_stalls, bulkBehind_stalls decodes]
        constructor
        · rintro ⟨allowed, isClean, small, large⟩
          exact ⟨isClean, .bulk allowed large small
            (by simp [Reply.marker, Reply.line, Reply.announced])⟩
        · rintro ⟨isClean, large⟩
          cases large with
          | bulk allowed large small header => exact ⟨allowed, isClean, small, large⟩
      | array elements =>
        have formed : ∀ e ∈ elements, e.WellFormed := by
          cases wellFormed with
          | array all => exact all
        have clear : ∀ e ∈ elements, ErrorFree e := by
          cases free with
          | array all => exact all
        -- The elements are scanned whole to the depth of the array.
        refine array_stalls (by omega) decodes formed
          (reply decode (2 ^ 62) (max fuel (Reply.array elements).depth) .depends)
          (fun isClean => ?_) type shorter left
        have accepts (e : Reply) : Accepted clean .depends e ↔ Accepts .depends e :=
          ⟨fun accepted => accepted.1, fun accepts => ⟨accepts, Or.inl isClean⟩⟩
        refine ⟨fun e member rest small => ?_, fun e member rest => ?_,
          fun stream more => reply_extends (le_max_left _ _) .depends stream more,
          fun e member part missing rest few same => ?_⟩
        · have deep := Resp.depth_lt_length e
          exact (reply_settles decodes (formed e member) (clear e member) (by omega) .depends
            rest).congr (accepts e)
        · have below := Resp.depth_le_depthAll member
          rw [Reply.depth]
          exact (reply_settles decodes (formed e member) (clear e member) (by omega) .depends
            rest).congr (accepts e)
        · exact (ih (by omega) (formed e member) (clear e member) .depends few same).trans
            (and_iff_right isClean)

/-- Behind a part of a reply, a scan has neither taken the reply nor stopped at an error. -/
theorem reply_part (decodes : Decodes clean decode) {fuel : Nat} {r : Reply}
    (wellFormed : r.WellFormed) (flat : NoNestedError r) (type : ReplyType) {part missing : Bytes}
    (cut : missing ≠ []) (whole : part ++ missing = encode r) :
    reply decode (2 ^ 62) fuel type part = .refuses ∨
      reply decode (2 ^ 62) fuel type part = .starves ∨
      reply decode (2 ^ 62) fuel type part = .stalls := by
  have nothing (rest : Bytes) : rest ++ missing ≠ [] := by simp [cut]
  rcases flat with ⟨text, rfl⟩ | free
  · cases fuel with
    | zero => exact Or.inr (Or.inl rfl)
    | succ fuel =>
      refine Or.inr (Or.inl ?_)
      rw [reply]
      have alone : part ++ missing = encode (.error text) ++ [] := by simpa using whole
      rcases line_part wellFormed alone with
        ⟨starves, -⟩ | ⟨behind, -, -, left⟩
      · rw [starves, Scan.bind_starves]
      · exact absurd left (nothing behind)
  · have settles : Settles (2 ^ 62) _ _ _ _ _ := reply_settles decodes wellFormed free
      (show r.depth < max fuel (r.depth + 1) by omega) type []
    have later : Scan.Extends missing (reply decode (2 ^ 62) fuel type part)
        (reply decode (2 ^ 62) (max fuel (r.depth + 1)) type (part ++ missing)) :=
      reply_extends (le_max_left _ _) type part missing
    rw [whole] at later
    rw [List.append_nil] at settles
    revert later
    generalize reply decode (2 ^ 62) fuel type part = result
    generalize reply decode (2 ^ 62) (max fuel (r.depth + 1)) type (encode r) = final at settles
    rintro (⟨taken, left⟩ | left | - | later | -)
    · generalize same : Scan.takes taken (left ++ missing) = final at settles
      cases settles with
      | takes accepts => exact absurd (Scan.takes.inj same).2 (nothing left)
      | refuses | stalls => cases same
    · cases settles
    · exact Or.inl rfl
    · exact Or.inr (Or.inl rfl)
    · exact Or.inr (Or.inr rfl)

end ReplyScan

namespace RedisProtocol

variable {π : Type}

/-- `parse_integer` decodes printed numbers of 64 bits as long as `errno` is clean. -/
theorem decodes (p : RedisProtocol π) : ReplyScan.Decodes p.CleanErrno p.decode where
  some := fun clean range =>
    (p.decode_numeral (Decimal.numeral_intText _)).mpr ⟨⟨clean, range⟩, rfl⟩
  none := fun bad => Option.eq_none_iff_forall_ne_some.mpr fun _ decoded =>
    bad ((p.decode_numeral (Decimal.numeral_intText _)).mp decoded).1

/-- `read_reply` returns false and has given up the connection. -/
def GivesUp (p : RedisProtocol π) (c : RedisCommand) : Prop :=
  ∃ out p', p.readReply c = .ok (false, { c with out := out }, p') ∧ p'.tcpClient.fd = -1 ∧
    p'.tcpClient.buffer.readSize = 0 ∧ p'.blockingMode = false ∧ p'.transactionMode = false

/-- On a stream that ends in the middle of a reply, `read_reply` gives up unless a byte string or
an array that is too large is announced before the end; and where all the bytes arrive, only
then. -/
theorem readReply_truncated_iff {p : RedisProtocol π} (valid : p.Valid) (allocated : p.Allocated)
    (prompt : p.Prompt) (short : p.stream.length < 2 ^ 60) (c : RedisCommand) {r : Reply}
    (wellFormed : r.WellFormed) (flat : NoNestedError r) {missing : Bytes} (cut : missing ≠ [])
    (shape : p.stream ++ missing = encode r) :
    (¬ (p.CleanErrno ∧ TooLarge (p.replyType c) r p.stream) → p.GivesUp c) ∧
    (p.Arrives → (p.GivesUp c ↔ ¬ (p.CleanErrno ∧ TooLarge (p.replyType c) r p.stream))) := by
  have fits : p.Fits (2 ^ 62) := Or.inr ⟨rfl, allocated.small valid, short⟩
  obtain ⟨result, follows, same⟩ := readReply_follows valid fits c
  have alone : p.stream ++ missing = encode r ++ [] := by rw [shape, List.append_nil]
  have stalls : p.scan (2 ^ 62) c = .stalls ↔
      p.CleanErrno ∧ TooLarge (p.replyType c) r p.stream := by
    rcases flat with ⟨text, rfl⟩ | free
    · refine iff_of_false (fun stalls => ?_) fun large => ?_
      · rw [scan, ReplyScan.reply] at stalls
        rcases ReplyScan.line_part wellFormed alone with ⟨starves, -⟩ | ⟨behind, takes, -⟩
        · rw [starves] at stalls
          cases stalls
        · rw [takes] at stalls
          cases stalls
      · obtain ⟨-, large⟩ := large
        generalize p.replyType c = type at large
        cases large
    · exact ReplyScan.reply_stalls p.decodes (by omega) wellFormed free (p.replyType c)
        (Nat.lt_succ_self _) alone
  have part : p.scan (2 ^ 62) c = .refuses ∨ p.scan (2 ^ 62) c = .starves ∨
      p.scan (2 ^ 62) c = .stalls :=
    ReplyScan.reply_part p.decodes wellFormed flat (p.replyType c) cut shape
  -- Where the scan has neither taken nor stopped, the reader does not return or closes.
  have outcomes : (∃ abort, p.readReply c = .error abort ∧ p.scan (2 ^ 62) c = .stalls) ∨
      (p.GivesUp c ∧ (p.Arrives → p.scan (2 ^ 62) c ≠ .stalls)) := by
    rw [GivesUp, same]
    clear same
    revert part
    generalize p.scan (2 ^ 62) c = scan at follows
    generalize seen : result.map flagged = shown at follows
    intro part
    cases follows with
    | @aborts _ abort reason =>
      refine Or.inl ⟨abort, ?_, reason rfl prompt⟩
      cases result with
      | error abort =>
        cases seen
        rfl
      | ok returned => cases seen
    | closes ends reason =>
      obtain ⟨⟨ok, out, p'⟩, rfl, shows⟩ := map_returns seen
      obtain ⟨rfl, rfl⟩ := flagged_none shows
      have empty : p'.tcpClient.buffer.readSize = 0 := by
        rw [← ends.reads.valid.buffer.length_unread, List.length_eq_zero_iff]
        exact (List.append_eq_nil_iff.mp ends.stream_nil).1
      refine Or.inr ⟨⟨out, p', rfl, ends.fd, empty, ends.blockingMode, ends.transactionMode⟩,
        fun arrives stalled => ?_⟩
      rcases reason rfl arrives with refused | starved
      · cases refused.symm.trans stalled
      · cases starved.symm.trans stalled
    | takes keeps => rcases part with part | part | part <;> cases part
    | stops keeps => rcases part with part | part | part <;> cases part
  constructor
  · intro small
    rcases outcomes with ⟨-, -, stalled⟩ | ⟨givesUp, -⟩
    · exact absurd (stalls.mp stalled) small
    · exact givesUp
  · intro arrives
    rcases outcomes with ⟨abort, aborts, stalled⟩ | ⟨givesUp, fits⟩
    · refine iff_of_false ?_ fun small => small (stalls.mp stalled)
      rintro ⟨out, p', returns, -⟩
      rw [aborts] at returns
      cases returns
    · exact iff_of_true givesUp fun large => fits arrives (stalls.mpr large)

/-- The header of a byte string of the greatest length that a header can announce. -/
def longestHeader : Bytes := ascii "$9223372036854775807\r\n"

/-- What follows the header. -/
theorem longestHeader_append {b : Bytes} (longest : b.length = 2 ^ 63 - 1) :
    longestHeader ++ (b ++ crlf) = encode (.bulk b) := by
  have header : longestHeader = 36 :: (Decimal.text (2 ^ 63 - 1) ++ crlf) := by decide +kernel
  rw [encode, Resp.bulk, longest, header]
  simp only [List.cons_append, List.append_assoc]

/-- There is such a byte string. -/
theorem exists_longest : ∃ b : Bytes, b.length = 2 ^ 63 - 1 :=
  ⟨List.replicate (2 ^ 63 - 1) 0, List.length_replicate⟩

/-- GET answered by the header of this byte string and the end of the stream: the call never
returns. -/
theorem readReply_not_givesUp : ∃ (p : RedisProtocol ScriptedPeer) (c : RedisCommand) (r : Reply)
    (missing : Bytes), p.Valid ∧ p.Allocated ∧ p.Prompt ∧ p.stream.length < 2 ^ 60 ∧
      r.WellFormed ∧ NoNestedError r ∧ missing ≠ [] ∧ p.stream ++ missing = encode r ∧
      ¬ p.GivesUp c := by
  obtain ⟨valid, shape⟩ := greeted_valid longestHeader [.chunk 30, .eof]
  obtain ⟨b, longest⟩ := exists_longest
  refine ⟨greeted longestHeader [.chunk 30, .eof], .new .get, .bulk b, b ++ crlf, valid,
    greeted_allocated _ _, Or.inl (by decide), ?_, .bulk b, Or.inr (.bulk b), by simp [crlf], ?_,
    ?_⟩
  · rw [shape]
    decide
  · rw [shape]
    exact longestHeader_append longest
  · have hangs : ((greeted longestHeader [.chunk 30, .eof]).readReply (.new .get)).toOption.isSome =
        false := by
      decide +kernel
    rintro ⟨out, p', returns, -⟩
    rw [returns] at hangs
    cases hangs

/-- A GET whose reply ends inside the byte string gives up; one whose reply ends behind the header
of the longest byte string does not. -/
theorem readReply_truncated_iff_get :
    (greeted (ascii "$3\r\nfo") [.chunk 1, .chunk 8, .eof]).GivesUp (.new .get) ∧
    ¬ (greeted longestHeader [.chunk 30]).GivesUp (.new .get) := by
  obtain ⟨valid, shape⟩ := greeted_valid (ascii "$3\r\nfo") [.chunk 1, .chunk 8, .eof]
  obtain ⟨valid', shape'⟩ := greeted_valid longestHeader [.chunk 30]
  have finishes : (greeted (ascii "$3\r\nfo") [.chunk 1, .chunk 8, .eof]).Prompt :=
    Or.inr ⟨by decide, by decide +kernel⟩
  have arrives : (greeted longestHeader [.chunk 30]).Arrives := by
    intro outcome member
    exact ⟨30, List.mem_singleton.mp (List.mem_of_mem_take member)⟩
  constructor
  · refine (readReply_truncated_iff valid (greeted_allocated _ _) finishes (by rw [shape]; decide)
      (.new .get) (.bulk (ascii "foo")) (Or.inr (.bulk _)) (List.cons_ne_nil 111 crlf)
      (by rw [shape]; decide)).1 fun large => ?_
    cases large.2 with
    | bulk allowed large => exact absurd large (by decide)
  · obtain ⟨b, longest⟩ := exists_longest
    intro givesUp
    refine ((readReply_truncated_iff valid' (greeted_allocated _ _) (Or.inl (by decide))
      (by rw [shape']; decide) (.new .get) (.bulk b) (Or.inr (.bulk b)) (by simp [crlf])
      ((congrArg (· ++ _) shape').trans (longestHeader_append longest))).2 arrives).mp givesUp
      ⟨⟨by decide, by decide⟩, .bulk (Or.inl rfl) ?_ ?_ ?_⟩
    · omega
    · omega
    · rw [shape', longest]
      decide +kernel

end RedisProtocol

end LibRedis
