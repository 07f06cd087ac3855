import LibRedis.Reply
import LibRedis.ReadReply
import LibRedis.ReplyScan

/-!
# Scanning well-formed replies

What the scan of the reader makes of a stream that begins with the encoding of a reply without
errors: it takes exactly the reply, refuses it, or stalls at a byte string that is too long. Behind
a part of the encoding it can only starve, refuse or stall; where it stalls is said by
`StallsIn`.
-/

namespace LibRedis

open Decimal (intText)
open Resp (Reply crlf encode encodeAll)

namespace ReplyScan

variable {decode : Bytes → Option Int} {limit : Nat} {clean : Prop}

/-- Printed numbers of 64 bits are decoded, if `errno` is clean, and no others. -/
structure Decodes (clean : Prop) (decode : Bytes → Option Int) : Prop where
  /-- A number of 64 bits. -/
  some : ∀ {value : Int}, clean → RedisProtocol.InRange value →
    decode (intText value) = .some value
  /-- Any other number. -/
  none : ∀ {value : Int}, ¬ (clean ∧ RedisProtocol.InRange value) → decode (intText value) = .none

/-- How something of this size without errors is scanned when it has arrived whole. -/
inductive Settles (limit size : Nat) (accepted : Prop) {α : Type} (value : α) (rest : Bytes) :
    Scan UInt8 α → Prop
  /-- It is taken. -/
  | takes (accepts : accepted) : Settles limit size accepted value rest (.takes value rest)
  /-- It is refused. -/
  | refuses (fails : ¬ accepted) : Settles limit size accepted value rest .refuses
  /-- It is too long, or has too many elements. -/
  | stalls (long : min limit (2 ^ 60) ≤ size) : Settles limit size accepted value rest .stalls

/-- What is accepted may be stated in another way. -/
theorem Settles.congr {limit size : Nat} {accepted accepted' : Prop} {α : Type} {value : α}
    {rest : Bytes} {scan : Scan UInt8 α} (settles : Settles limit size accepted value rest scan)
    (same : accepted ↔ accepted') : Settles limit size accepted' value rest scan :=
  propext same ▸ settles

/-- What is made of something that settles is made of its value. -/
theorem Settles.map {limit size size' : Nat} {accepted accepted' : Prop} {α γ : Type} {value : α}
    {rest : Bytes} {scan : Scan UInt8 α} (settles : Settles limit size accepted value rest scan)
    (less : size ≤ size') (same : accepted ↔ accepted') (view : α → γ) :
    Settles limit size' accepted' (view value) rest
      (scan.bind fun value rest => .takes (view value) rest) := by
  cases settles with
  | takes accepts => exact .takes (same.mp accepts)
  | refuses fails => exact .refuses fun accepts => fails (same.mpr accepts)
  | stalls long => exact .stalls (long.trans less)

/-- The header of a bulk or an array is decoded, or the reply is refused. -/
theorem number_settles (decodes : Decodes clean decode) {size : Nat} {accepted : Prop} {α : Type}
    {value : α} {rest : Bytes} (marker : UInt8) (i : Int) (stream : Bytes)
    {next : Int → Bytes → Scan UInt8 α} (needed : accepted → clean ∧ RedisProtocol.InRange i)
    (goes : clean → RedisProtocol.InRange i →
      Settles limit size accepted value rest (next i stream)) :
    Settles limit size accepted value rest
      ((number decode (marker :: intText i) stream).bind next) := by
  rw [number, List.tail_cons]
  by_cases good : clean ∧ RedisProtocol.InRange i
  · rw [decodes.some good.1 good.2]
    exact goes good.1 good.2
  · rw [decodes.none good]
    exact .refuses fun accepts => good (needed accepts)

/-- The first line of a well-formed reply is taken. -/
theorem line_reply {r : Reply} (wellFormed : r.WellFormed) (rest : Bytes) :
    line (encode r ++ rest) = .takes (r.marker :: r.line) (r.body ++ rest) := by
  refine line_eq_takes.mpr ⟨?_, List.cons_ne_nil _ _⟩
  have whole : encode r ++ rest = r.marker :: r.line ++ crlf ++ (r.body ++ rest) := by
    rw [Resp.encode_eq]
    simp
  rw [whole]
  exact Delimited.splits_pair (by decide)
    (no_crlf_cons (RedisProtocol.marker_ne r) wellFormed.line) _

/-- A bulk behind its header. -/
theorem bulkBehind_settles (decodes : Decodes clean decode) {r : Reply} (isBulk : IsBulk r)
    (rest : Bytes) :
    Settles limit (encode r).length (clean ∧ Readable r) (bulkOf r) rest
      (bulkBehind decode limit (36 :: intText r.announced) (r.body ++ rest)) := by
  have range : Readable r → RedisProtocol.InRange r.announced := by
    rintro readable
    rcases isBulk with rfl | ⟨bytes, rfl⟩
    · exact ⟨by decide, by decide⟩
    · cases readable with
      | bulk _ short =>
        simp only [RedisProtocol.InRange, Reply.announced]
        omega
  refine number_settles decodes 36 r.announced _ (And.imp_right range) fun isClean inRange => ?_
  rcases isBulk with rfl | ⟨bytes, rfl⟩
  · exact .takes ⟨isClean, .nilBulk⟩
  · have announced : (Reply.bulk bytes).announced = (bytes.length : Int) := rfl
    rw [announced] at inRange ⊢
    have high := inRange.2
    by_cases empty : bytes = []
    · subst empty
      refine .refuses ?_
      rintro ⟨-, readable⟩
      cases readable with
      | bulk some _ => exact some rfl
    · have positive := List.length_pos_iff.mpr empty
      rw [if_neg (by omega), if_neg (by omega), Int.toNat_natCast, payload]
      by_cases long : limit ≤ bytes.length + 2
      · rw [if_pos long]
        refine .stalls ?_
        simp only [encode, Resp.bulk, crlf, List.length_cons, List.length_append, List.length_nil]
        omega
      · have enough : ¬ (bytes ++ crlf ++ rest).length < bytes.length + 2 := by
          simp [crlf]
        have shape : (Reply.bulk bytes).body ++ rest = bytes ++ (crlf ++ rest) := by
          rw [Reply.body, List.append_assoc]
        have two : bytes.length + 2 = bytes.length + crlf.length := rfl
        rw [if_neg long, shape, if_neg (by rwa [← List.append_assoc]), List.take_left, two,
          ← List.drop_drop, List.drop_left, List.drop_left]
        exact .takes ⟨isClean, .bulk empty (by omega)⟩

/-- An element of a multi-bulk of bulks. -/
theorem bulk_settles (decodes : Decodes clean decode) {e : Reply} (wellFormed : e.WellFormed)
    (rest : Bytes) :
    Settles limit (encode e).length (clean ∧ IsBulk e ∧ Readable e) (bulkOf e) rest
      (bulk decode limit (encode e ++ rest)) := by
  rw [bulk, line_reply wellFormed, Scan.bind_takes]
  by_cases isBulk : IsBulk e
  · have marker : e.marker = 36 := by
      rcases isBulk with rfl | ⟨bytes, rfl⟩ <;> rfl
    have line : e.line = intText e.announced := by
      rcases isBulk with rfl | ⟨bytes, rfl⟩ <;> rfl
    rw [marker, line, if_pos (show (36 :: intText e.announced).head? = some 36 from rfl)]
    have behind : Settles limit _ _ _ _ _ := bulkBehind_settles decodes isBulk rest
    revert behind
    generalize bulkBehind decode limit _ _ = result
    rintro (⟨isClean, readable⟩ | fails | long)
    · exact .takes ⟨isClean, isBulk, readable⟩
    · exact .refuses fun accepts => fails ⟨accepts.1, accepts.2.2⟩
    · exact .stalls long
  · have marker : e.marker ≠ 36 := by
      cases e with
      | bulk bytes => exact absurd (Or.inr ⟨bytes, rfl⟩) isBulk
      | nilBulk => exact absurd (Or.inl rfl) isBulk
      | status | error | integer | array | nilArray => simp [Reply.marker]
    rw [if_neg (by simpa using marker)]
    exact .refuses fun accepts => isBulk accepts.2.1

/-- So many replies, each of which settles. -/
theorem times_settles {α : Type} {element : Bytes → Scan UInt8 α} {accepted : Reply → Prop}
    {value : Reply → α} (elements : List Reply)
    (settles : ∀ e ∈ elements, ∀ rest, Settles limit (encode e).length (accepted e) (value e) rest
      (element (encode e ++ rest))) (rest : Bytes) :
    Settles limit (encodeAll elements).length (∀ e ∈ elements, accepted e) (elements.map value) rest
      (Scan.times element elements.length (encodeAll elements ++ rest)) := by
  induction elements with
  | nil => exact .takes (by simp)
  | cons first others ih =>
    have parts : (encodeAll (first :: others)).length =
        (encode first).length + (encodeAll others).length := by
      rw [encodeAll, List.length_append]
    have head := settles first (by simp) (encodeAll others ++ rest)
    have tail := ih fun e member => settles e (by simp [member])
    rw [List.length_cons, Scan.times, parts, encodeAll, List.append_assoc]
    revert head
    generalize element (encode first ++ (encodeAll others ++ rest)) = result
    rintro (accepts | fails | long)
    · exact tail.map (by omega)
        (by simp only [List.forall_mem_cons, accepts, true_and]) (value first :: ·)
    · exact .refuses fun all => fails (all first (by simp))
    · exact .stalls (by omega)

/-- What a reply needs to be accepted for a type: a status needs no clean `errno`. -/
def Accepted (clean : Prop) (type : ReplyType) (r : Reply) : Prop :=
  Accepts type r ∧ (clean ∨ ∃ text, r = .status text)

/-- What is no status needs a clean `errno`. -/
theorem accepted_iff {type : ReplyType} {r : Reply} (numbered : ∀ text, r ≠ .status text) :
    Accepted clean type r ↔ clean ∧ Accepts type r := by
  constructor
  · rintro ⟨accepts, isClean | ⟨text, rfl⟩⟩
    · exact ⟨isClean, accepts⟩
    · exact absurd rfl (numbered text)
  · exact fun ⟨isClean, accepts⟩ => ⟨accepts, Or.inl isClean⟩

/-- A reply type check lets pass what can be accepted. -/
theorem typed_settles {size : Nat} {r : Reply} {type other : ReplyType} {rest : Bytes}
    {scan : Scan UInt8 RedisOutput} (ofType : OfType type r → type = other)
    (goes : type = other ∨ type = .depends →
      Settles limit size (Accepted clean type r) (denoteAs type r) rest scan) :
    Settles limit size (Accepted clean type r) (denoteAs type r) rest
      (if type = other ∨ type = .depends then scan else .refuses) := by
  by_cases passes : type = other ∨ type = .depends
  · rw [if_pos passes]
    exact goes passes
  · rw [if_neg passes]
    exact .refuses fun accepts => passes (accepts.1.ofType.imp_left ofType)

/-- The bulk that a reply is. -/
theorem bulkReply_settles (decodes : Decodes clean decode) {r : Reply} (isBulk : IsBulk r)
    {type : ReplyType} (allowed : type = .bulk ∨ type = .depends) (rest : Bytes) :
    Settles limit (encode r).length (Accepted clean type r) (denoteAs type r) rest
      (bulkReply decode limit (36 :: intText r.announced) (r.body ++ rest)) := by
  have denotes : denoteAs type r = (bulkOf r).elim .nilBulk .bulk := by
    rcases isBulk with rfl | ⟨bytes, rfl⟩ <;> rcases allowed with rfl | rfl <;> rfl
  have same : clean ∧ Readable r ↔ Accepted clean type r := by
    rw [accepted_iff (by rcases isBulk with rfl | ⟨bytes, rfl⟩ <;> simp)]
    rcases allowed with rfl | rfl
    · exact and_congr_right fun _ => ⟨fun readable => ⟨isBulk, readable⟩, fun accepts => accepts.2⟩
    · exact Iff.rfl
  rw [denotes]
  exact (bulkBehind_settles decodes isBulk rest).map le_rfl same
    fun bulk => bulk.elim RedisOutput.nilBulk .bulk

/-- The array that a reply is, as a multi-bulk of bulks. -/
theorem multiBulkReply_settles (decodes : Decodes clean decode) {r : Reply} (isArray : IsArray r)
    (wellFormed : r.WellFormed) (rest : Bytes) :
    Settles limit (encode r).length (Accepted clean .multiBulk r) (denoteAs .multiBulk r) rest
      (multiBulkReply decode limit (42 :: intText r.announced) (r.body ++ rest)) := by
  have readable : Accepted clean .multiBulk r → clean ∧ Readable r := by
    rw [accepted_iff (by rcases isArray with rfl | ⟨elements, rfl⟩ <;> simp)]
    exact fun ⟨isClean, accepts⟩ => ⟨isClean, accepts.readable⟩
  refine number_settles decodes 42 r.announced _ (fun accepts => ?_) fun isClean inRange => ?_
  · refine ⟨(readable accepts).1, ?_⟩
    rcases isArray with rfl | ⟨elements, rfl⟩
    · exact ⟨by decide, by decide⟩
    · cases (readable accepts).2 with
      | array short _ =>
        simp only [RedisProtocol.InRange, Reply.announced]
        omega
  · rcases isArray with rfl | ⟨elements, rfl⟩
    · exact .takes ⟨⟨Or.inl rfl, .nilArray, by simp⟩, Or.inl isClean⟩
    · have announced : (Reply.array elements).announced = (elements.length : Int) := rfl
      have all : ∀ e ∈ elements, e.WellFormed := by
        cases wellFormed with
        | array all => exact all
      rw [announced] at inRange ⊢
      have high := inRange.2
      have size : elements.length ≤ (encode (.array elements)).length := by
        have each := Resp.length_le_encodeAll elements
        simp only [encode, List.length_cons, List.length_append]
        omega
      rw [if_neg (by omega), if_neg (by omega)]
      by_cases large : 2 ^ 60 ≤ (elements.length : Int)
      · rw [if_pos large]
        exact .stalls (by omega)
      rw [if_neg large, Int.toNat_natCast]
      refine (times_settles elements (fun e member => bulk_settles decodes (all e member)) rest).map
        ?_ ?_ RedisOutput.mbulks
      · simp only [encode, List.length_cons, List.length_append]
        omega
      · rw [accepted_iff (by simp)]
        constructor
        · intro accepts
          refine ⟨isClean, Or.inr ⟨elements, rfl⟩,
            .array (by omega) fun e member => (accepts e member).2.2, fun others same => ?_⟩
          exact Reply.array.inj same ▸ fun e member => (accepts e member).2.1
        · rintro ⟨-, -, readable, bulks⟩ e member
          refine ⟨isClean, bulks elements rfl e member, ?_⟩
          cases readable with
          | array _ each => exact each e member

/-- The array that a reply is, element by element. -/
theorem specialReply_settles (decodes : Decodes clean decode) {r : Reply} (isArray : IsArray r)
    {child : Bytes → Scan UInt8 RedisOutput}
    (reads : ∀ elements, r = .array elements → ∀ e ∈ elements, ∀ rest,
      Settles limit (encode e).length (Accepted clean .depends e) (denote e) rest
        (child (encode e ++ rest)))
    {type : ReplyType} (allowed : type = .specialMultiBulk ∨ type = .depends) (rest : Bytes) :
    Settles limit (encode r).length (Accepted clean type r) (denoteAs type r) rest
      (specialReply decode child (42 :: intText r.announced) (r.body ++ rest)) := by
  have denotes : denoteAs type r = denote r := by
    rcases allowed with rfl | rfl <;> rfl
  have same : Accepted clean type r ↔ clean ∧ Readable r := by
    rw [accepted_iff (by rcases isArray with rfl | ⟨elements, rfl⟩ <;> simp)]
    rcases allowed with rfl | rfl
    · exact and_congr_right fun _ => ⟨fun accepts => accepts.2, fun readable => ⟨isArray, readable⟩⟩
    · exact Iff.rfl
  rw [denotes]
  refine number_settles decodes 42 r.announced _ (fun accepts => ?_) fun isClean inRange => ?_
  · obtain ⟨isClean, readable⟩ := same.mp accepts
    refine ⟨isClean, ?_⟩
    rcases isArray with rfl | ⟨elements, rfl⟩
    · exact ⟨by decide, by decide⟩
    · cases readable with
      | array short _ =>
        simp only [RedisProtocol.InRange, Reply.announced]
        omega
  · rcases isArray with rfl | ⟨elements, rfl⟩
    · exact .takes (same.mpr ⟨isClean, .nilArray⟩)
    · have announced : (Reply.array elements).announced = (elements.length : Int) := rfl
      rw [announced] at inRange ⊢
      have high := inRange.2
      rw [if_neg (by omega), Int.toNat_natCast, denote, denoteAll_eq_map]
      refine (times_settles elements (reads elements rfl) rest).map ?_ ?_ RedisOutput.smbulks
      · simp only [encode, List.length_cons, List.length_append]
        omega
      · rw [same]
        constructor
        · exact fun accepts => ⟨isClean, .array (by omega) fun e member => (accepts e member).1⟩
        · rintro ⟨-, readable⟩ e member
          cases readable with
          | array _ each => exact ⟨each e member, Or.inl isClean⟩

/-- The scan of a reply without errors that has arrived whole. The induction is on the fuel, which
the depth of the reply stays below. -/
theorem reply_settles (decodes : Decodes clean decode) {fuel : Nat} {r : Reply}
    (wellFormed : r.WellFormed) (free : ErrorFree r) (deep : r.depth < fuel) (type : ReplyType)
    (rest : Bytes) :
    Settles limit (encode r).length (Accepted clean type r) (denoteAs type r) rest
      (reply decode limit fuel type (encode r ++ rest)) := by
  induction fuel generalizing r type rest with
  | zero => omega
  | succ fuel ih =>
    have children : ∀ elements, r = .array elements → ∀ e ∈ elements, ∀ rest,
        Settles limit (encode e).length (Accepted clean .depends e) (denote e) rest
          (reply decode limit fuel .depends (encode e ++ rest)) := by
      rintro elements rfl e member rest
      have below := Resp.depth_le_depthAll member
      rw [Reply.depth] at deep
      cases wellFormed with
      | array allFormed =>
        cases free with
        | array allFree =>
          exact ih (allFormed e member) (allFree e member) (by omega) .depends rest
    have arrays (isArray : IsArray r) (ofType : OfType type r →
        type = .multiBulk ∨ type = .specialMultiBulk) :
        Settles limit (encode r).length (Accepted clean type r) (denoteAs type r) rest
          (if type = .multiBulk then
            multiBulkReply decode limit (42 :: intText r.announced) (r.body ++ rest)
          else if type = .specialMultiBulk ∨ type = .depends then
            specialReply decode (reply decode limit fuel .depends) (42 :: intText r.announced)
              (r.body ++ rest)
          else .refuses) := by
      by_cases multiBulk : type = .multiBulk
      · rw [if_pos multiBulk]
        subst multiBulk
        exact multiBulkReply_settles decodes isArray wellFormed rest
      · rw [if_neg multiBulk]
        exact typed_settles (fun isOf => (ofType isOf).resolve_left multiBulk)
          fun allowed => specialReply_settles decodes isArray children allowed rest
    rw [reply, line_reply wellFormed, Scan.bind_takes]
    cases r with
    | status text =>
      change Settles _ _ _ _ _ (if type = .status ∨ type = .depends then
        .takes (RedisOutput.status text) rest else .refuses)
      refine typed_settles id fun allowed => ?_
      have denotes : denoteAs type (.status text) = .status text := by
        rcases allowed with rfl | rfl <;> rfl
      rw [← denotes]
      refine .takes ⟨?_, Or.inr ⟨text, rfl⟩⟩
      rcases allowed with rfl | rfl
      · exact ⟨text, rfl⟩
      · exact .status text
    | error text => cases free
    | integer value =>
      change Settles _ _ _ _ _ (if type = .integer ∨ type = .depends then
        integerReply decode (58 :: intText value) rest else .refuses)
      refine typed_settles id fun allowed => ?_
      have denotes : denoteAs type (.integer value) = .i value := by
        rcases allowed with rfl | rfl <;> rfl
      have same : Accepts type (.integer value) ↔ RedisProtocol.InRange value := by
        have readable : Readable (.integer value) ↔ RedisProtocol.InRange value := by
          constructor
          · rintro ⟨⟩
            exact ⟨‹_›, ‹_›⟩
          · exact fun range => .integer range.1 range.2
        rcases allowed with rfl | rfl
        · exact ⟨fun accepts => readable.mp accepts.2, fun range =>
            ⟨⟨value, rfl⟩, readable.mpr range⟩⟩
        · exact readable
      rw [denotes, accepted_iff (by simp), same]
      exact number_settles decodes 58 value rest id fun isClean range => .takes ⟨isClean, range⟩
    | bulk bytes =>
      change Settles _ _ _ _ _ (if type = .bulk ∨ type = .depends then bulkReply decode limit
        (36 :: intText (Reply.announced (.bulk bytes))) _ else .refuses)
      exact typed_settles id fun allowed =>
        bulkReply_settles decodes (Or.inr ⟨bytes, rfl⟩) allowed rest
    | nilBulk =>
      change Settles _ _ _ _ _ (if type = .bulk ∨ type = .depends then bulkReply decode limit
        (36 :: intText (Reply.announced .nilBulk)) _ else .refuses)
      exact typed_settles id fun allowed => bulkReply_settles decodes (Or.inl rfl) allowed rest
    | array elements => exact arrays (Or.inr ⟨elements, rfl⟩) id
    | nilArray => exact arrays (Or.inl rfl) id

end ReplyScan

end LibRedis
