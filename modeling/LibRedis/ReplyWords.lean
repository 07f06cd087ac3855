import LibRedis.Lib.RespGrammar
import LibRedis.ReadScan

/-!
# What the reader takes are words

Soundness of the scans: whatever a scan of a reply takes is a word of the reply grammar, under the
rules by which the reader decodes numbers, and the output is what the word denotes. A scan stops
only behind an error line and stalls only at the header of a byte string that there is no room
for, each of them where reading in order comes to it, or at the header of an array of bulks that
there is no room for. The induction is on the fuel, as the reader recurses; each function of the
reader has one lemma.
-/

namespace LibRedis

open Resp (Reply Rules Word Words Reaches firstLine)

namespace ReplyScan

variable (decode : Bytes → Option Int) (counted : Bool) (limit : Nat)

/-- The rules by which the reader decodes: `strtol` for the numbers, any two bytes behind a byte
string, and no elements for a negative count where it does not check the count. -/
def rules : Rules where
  number := fun text i => decode text = some i
  ends := fun last => last.length = 2
  counts := fun count elements => count.toNat = elements ∧ (counted = true → 0 ≤ count)

/-- A line that reports an error. -/
def ErrorLine (part : Bytes) : Prop := ∃ text, ¬ redisLineEnd <:+: text ∧ part = firstLine 45 text

/-- The header of a byte string that there is no room for. -/
def Oversized (part : Bytes) : Prop :=
  ∃ text i, ¬ redisLineEnd <:+: text ∧ decode text = some i ∧ (limit : Int) ≤ i + 2 ∧
    part = firstLine 36 text

/-- The header of an array that a vector of pointers has no room for. -/
def OversizedCount (part : Bytes) : Prop :=
  ∃ text i, ¬ redisLineEnd <:+: text ∧ decode text = some i ∧ 2 ^ 60 ≤ i ∧ part = firstLine 42 text

/-- Reading a reply for a type comes to a header that there is no room for: of a byte string, or of
the reply itself if that is an array of bulks. -/
def NoRoom (type : ReplyType) (part : Bytes) : Prop :=
  Reaches (rules decode counted) (Oversized decode limit) part ∨
    type = .multiBulk ∧ OversizedCount decode part

/-- Some of so many elements, and such a part behind them. -/
def Among (count : Nat) (part : Bytes → Prop) (stream : Bytes) : Prop :=
  ∃ before words rest, before.length < count ∧ Words (rules decode counted) before words ∧ part rest ∧
    stream = words ++ rest

variable {decode counted limit}

/-- Among elements behind the header of an array. -/
theorem Among.inside {text stream : Bytes} {count : Int} {part : Bytes → Prop}
    (line : ¬ redisLineEnd <:+: text) (number : decode text = some count)
    (among : Among decode counted count.toNat (Reaches (rules decode counted) part) stream) :
    Reaches (rules decode counted) part (firstLine 42 text ++ stream) := by
  obtain ⟨before, words, rest, more, elements, inner, rfl⟩ := among
  exact .inside line number (by omega) elements inner

/-- A line that is taken. -/
theorem line_finds (stream : Bytes) :
    Scan.Finds (fun header part => ∃ marker text, header = marker :: text ∧
        ¬ redisLineEnd <:+: text ∧ part = firstLine marker text)
      (fun _ => False) (fun _ => False) stream (line stream) := by
  cases scanned : line stream with
  | takes header rest =>
    obtain ⟨splits, some⟩ := line_eq_takes.mp scanned
    obtain ⟨marker, text, rfl⟩ := List.exists_cons_of_ne_nil some
    refine .takes splits.eq ⟨marker, text, rfl, fun inside => ?_, rfl⟩
    exact splits.clean (by decide) (inside.trans (List.suffix_cons marker text).isInfix)
  | refuses => exact .refuses
  | starves => exact .starves
  | stops rest | stalls =>
    unfold line at scanned
    split at scanned
    · cases scanned
    · split at scanned
      · cases scanned
      · cases scanned

/-- A number that is decoded, which takes nothing. -/
theorem number_finds (marker : UInt8) (text stream : Bytes) :
    Scan.Finds (fun i part => part = [] ∧ decode text = some i) (fun _ => False) (fun _ => False)
      stream (number decode (marker :: text) stream) := by
  unfold number
  rw [List.tail_cons]
  cases decoded : decode text with
  | none => exact .refuses
  | some i => exact .takes rfl ⟨rfl, rfl⟩

/-- A payload of the announced length, and two more bytes. -/
theorem payload_finds (count : Nat) (stream : Bytes) :
    Scan.Finds (fun bytes part => bytes.length = count ∧ ∃ last, last.length = 2 ∧
        part = bytes ++ last)
      (fun _ => False) (fun part => part = [] ∧ limit ≤ count + 2) stream
      (payload limit count stream) := by
  unfold payload
  split
  · rename_i large
    exact .stalls rfl ⟨rfl, large⟩
  · split
    · exact .starves
    · rename_i enough
      rw [not_lt] at enough
      have last : ((stream.drop count).take 2).length = 2 := by
        rw [List.length_take, List.length_drop]
        omega
      have split : stream = stream.take count ++ (stream.drop count).take 2 ++
          stream.drop (count + 2) := by
        rw [List.append_assoc, ← List.drop_drop, List.take_append_drop, List.take_append_drop]
      exact .takes split ⟨by rw [List.length_take]; omega, _, last, rfl⟩

/-- Where the decoded numbers are numbers of 64 bits, an announced length is one. -/
abbrev Ranged (decode : Bytes → Option Int) : Prop :=
  ∀ text i, decode text = some i → RedisProtocol.InRange i

/-- A bulk behind its header. -/
theorem bulkBehind_finds (counted : Bool) (ranged : Ranged decode) {text : Bytes}
    (line : ¬ redisLineEnd <:+: text) (stream : Bytes) :
    Scan.Finds (fun bulk part => ∃ r, Word (rules decode counted) r (firstLine 36 text ++ part) ∧
        (IsBulk r ∧ Readable r) ∧ bulk = bulkOf r)
      (fun _ => False) (fun part => Oversized decode limit (firstLine 36 text ++ part)) stream
      (bulkBehind decode limit (36 :: text) stream) := by
  refine (number_finds 36 text stream).bind (fun _ wrong => wrong) (fun _ wrong => wrong.elim) ?_
  rintro i _ rest ⟨rfl, decoded⟩
  split
  · exact .refuses
  · rename_i good
    split
    · rename_i nil
      rw [nil] at decoded
      refine .takes (List.nil_append _).symm ⟨.nilBulk, ?_, ⟨Or.inl rfl, .nilBulk⟩, rfl⟩
      rw [List.append_nil, List.append_nil]
      exact .nilBulk line decoded
    · rename_i notNil
      have positive : (i.toNat : Int) = i := by omega
      refine (payload_finds i.toNat rest).bind (fun _ wrong => wrong) ?_ ?_
      · rintro _ ⟨rfl, large⟩
        exact ⟨text, i, line, decoded, by omega, by simp⟩
      · rintro bytes _ rest ⟨length, last, two, rfl⟩
        have announced : decode text = some (bytes.length : Int) := by
          rw [length, positive]
          exact decoded
        refine .takes (List.nil_append _).symm
          ⟨.bulk bytes, ?_, ⟨Or.inr ⟨bytes, rfl⟩, ?_⟩, rfl⟩
        · rw [List.nil_append, List.append_nil]
          exact .bulk line announced two
        · have small := (ranged _ _ announced).2
          refine .bulk (fun empty => ?_) (by omega)
          rw [empty, List.length_nil] at length
          omega

/-- A bulk. -/
theorem bulk_finds (counted : Bool) (ranged : Ranged decode) (stream : Bytes) :
    Scan.Finds (fun bulk part => ∃ r, Word (rules decode counted) r part ∧ (IsBulk r ∧ Readable r) ∧
        bulk = bulkOf r)
      (fun _ => False) (Oversized decode limit) stream (bulk decode limit stream) := by
  refine (line_finds stream).bind (fun _ wrong => wrong) (fun _ wrong => wrong.elim) ?_
  rintro _ _ rest ⟨marker, text, rfl, line, rfl⟩
  split
  · rename_i isBulk
    obtain rfl : marker = 36 := by simpa using isBulk
    exact bulkBehind_finds counted ranged line rest
  · exact .refuses

/-- So many elements, if each of them finds a word. -/
theorem times_finds {α : Type} {element : Bytes → Scan UInt8 α} {good : Reply → Prop}
    {value : Reply → α} {stop stall : Bytes → Prop}
    (finds : ∀ stream, Scan.Finds (fun found part =>
      ∃ r, Word (rules decode counted) r part ∧ good r ∧ found = value r) stop stall stream
        (element stream)) (count : Nat) (stream : Bytes) :
    Scan.Finds (fun found part => ∃ elements, Words (rules decode counted) elements part ∧
        (∀ e ∈ elements, good e) ∧ elements.length = count ∧ found = elements.map value)
      (Among decode counted count stop) (Among decode counted count stall) stream
      (Scan.times element count stream) := by
  -- behind the first element, what is found among the others is found among all
  have later {r : Reply} {word : Bytes} {count : Nat} (first : Word (rules decode counted) r word)
      {part : Bytes → Prop} {more : Bytes} (among : Among decode counted count part more) :
      Among decode counted (count + 1) part (word ++ more) := by
    obtain ⟨before, words, rest, below, elements, holds, rfl⟩ := among
    exact ⟨r :: before, word ++ words, rest, Nat.succ_lt_succ below, .cons first elements, holds,
      (List.append_assoc _ _ _).symm⟩
  induction count generalizing stream with
  | zero => exact .takes rfl ⟨[], .nil, by simp, rfl, rfl⟩
  | succ count ih =>
    have atOnce {part : Bytes → Prop} (stream : Bytes) (holds : part stream) :
        Among decode counted (count + 1) part stream :=
      ⟨[], [], stream, Nat.succ_pos count, .nil, holds, rfl⟩
    refine (finds stream).bind atOnce atOnce ?_
    rintro _ word rest ⟨r, first, isGood, rfl⟩
    refine (ih rest).bind (fun _ => later first) (fun _ => later first) ?_
    rintro _ words rest ⟨elements, others, good, length, rfl⟩
    refine .takes (List.nil_append _).symm ⟨r :: elements, ?_,
      List.forall_mem_cons.mpr ⟨isGood, good⟩, congrArg (· + 1) length, rfl⟩
    rw [List.append_nil]
    exact .cons first others

/-- An array of bulks behind its header. -/
theorem multiBulkReply_finds (counted : Bool) (ranged : Ranged decode) {text : Bytes}
    (line : ¬ redisLineEnd <:+: text) (stream : Bytes) :
    Scan.Finds (fun output part => ∃ r, Word (rules decode counted) r (firstLine 42 text ++ part) ∧
        Accepts .multiBulk r ∧ output = denoteAs .multiBulk r)
      (fun _ => False)
      (fun part => NoRoom decode counted limit .multiBulk (firstLine 42 text ++ part))
      stream (multiBulkReply decode limit (42 :: text) stream) := by
  refine (number_finds 42 text stream).bind (fun _ wrong => wrong) (fun _ wrong => wrong.elim) ?_
  rintro i _ rest ⟨rfl, decoded⟩
  split
  · exact .refuses
  · split
    · rename_i nil
      rw [nil] at decoded
      refine .takes (List.nil_append _).symm
        ⟨.nilArray, ?_, ⟨Or.inl rfl, .nilArray, nofun⟩, rfl⟩
      rw [List.append_nil, List.append_nil]
      exact .nilArray line decoded
    split
    · rename_i large
      refine .stalls (List.nil_append _).symm (Or.inr ⟨rfl, text, i, line, decoded, large, ?_⟩)
      rw [List.append_nil, List.append_nil]
    · rename_i notLess notNil notLarge
      refine (times_finds (bulk_finds counted ranged) i.toNat rest).bind ?_ ?_ ?_
      · rintro _ ⟨before, words, rest, -, -, wrong, -⟩
        exact wrong
      · rintro _ ⟨before, words, part, more, elements, large, rfl⟩
        exact Or.inl (Among.inside line decoded
          ⟨before, words, part, more, elements, .here large, rfl⟩)
      · rintro _ words rest ⟨elements, all, good, length, rfl⟩
        have small := (ranged _ _ decoded).2
        refine .takes (List.nil_append _).symm ⟨.array elements, ?_, ⟨Or.inr ⟨elements, rfl⟩,
          .array (by omega) fun e member => (good e member).2, ?_⟩, rfl⟩
        · rw [List.append_nil]
          exact .array line decoded notNil ⟨length.symm, fun _ => by omega⟩ all
        · rintro _ ⟨rfl⟩ e member
          exact (good e member).1

/-- An array read element by element, behind its header. -/
theorem specialReply_finds (loose : counted = false) (ranged : Ranged decode)
    {child : Bytes → Scan UInt8 RedisOutput}
    (finds : ∀ stream, Scan.Finds
      (fun output part => ∃ r, Word (rules decode counted) r part ∧ Readable r ∧ output = denote r)
      (Reaches (rules decode counted) ErrorLine)
      (Reaches (rules decode counted) (Oversized decode limit)) stream
      (child stream))
    {text : Bytes} (line : ¬ redisLineEnd <:+: text) (stream : Bytes) :
    Scan.Finds (fun output part => ∃ r, Word (rules decode counted) r (firstLine 42 text ++ part) ∧
        (IsArray r ∧ Readable r) ∧ output = denote r)
      (fun part => Reaches (rules decode counted) ErrorLine (firstLine 42 text ++ part))
      (fun part =>
        Reaches (rules decode counted) (Oversized decode limit) (firstLine 42 text ++ part))
      stream (specialReply decode child (42 :: text) stream) := by
  refine (number_finds 42 text stream).bind (fun _ wrong => wrong.elim)
    (fun _ wrong => wrong.elim) ?_
  rintro i _ rest ⟨rfl, decoded⟩
  split
  · rename_i nil
    rw [nil] at decoded
    refine .takes (List.nil_append _).symm ⟨.nilArray, ?_, ⟨Or.inl rfl, .nilArray⟩, rfl⟩
    rw [List.append_nil, List.append_nil]
    exact .nilArray line decoded
  · rename_i notNil
    refine (times_finds finds i.toNat rest).bind (fun _ => Among.inside line decoded)
      (fun _ => Among.inside line decoded) ?_
    rintro _ words rest ⟨elements, all, good, length, rfl⟩
    have small := (ranged _ _ decoded).2
    refine .takes (List.nil_append _).symm
      ⟨.array elements, ?_, ⟨Or.inr ⟨elements, rfl⟩, .array (by omega) good⟩, ?_⟩
    · rw [List.append_nil]
      have unchecked : counted ≠ true := by simp [loose]
      exact .array line decoded notNil ⟨length.symm, fun checked => absurd checked unchecked⟩ all
    · rw [denote, denoteAll_eq_map]

/-- A reply: what is taken is a word for a reply that is accepted, and the output denotes it. -/
theorem reply_finds (ranged : Ranged decode) (fuel : Nat) (type : ReplyType)
    (checks : counted = true → type = .multiBulk) (stream : Bytes) :
    Scan.Finds (fun output part => ∃ r, Word (rules decode counted) r part ∧ Accepts type r ∧
        output = denoteAs type r)
      (Reaches (rules decode counted) ErrorLine) (NoRoom decode counted limit type) stream
      (reply decode limit fuel type stream) := by
  induction fuel generalizing type stream with
  | zero => exact .starves
  | succ fuel ih =>
    refine (line_finds stream).bind (fun _ wrong => wrong.elim) (fun _ wrong => wrong.elim) ?_
    rintro _ _ rest ⟨marker, text, rfl, line, rfl⟩
    unfold replyBehind
    simp only [List.head?_cons, Option.some.injEq, List.tail_cons]
    split
    · rename_i isError
      rw [isError]
      refine .stops (List.nil_append _).symm (.here ⟨text, line, ?_⟩)
      rw [List.append_nil]
    split
    · rename_i isStatus
      rw [isStatus]
      split
      · rename_i allowed
        refine .takes (List.nil_append _).symm ⟨.status text, ?_, ?_, ?_⟩
        · rw [List.append_nil]
          exact .status line
        · rcases allowed with rfl | rfl
          · exact ⟨text, rfl⟩
          · exact .status text
        · rcases allowed with rfl | rfl <;> rfl
      · exact .refuses
    split
    · rename_i isInteger
      rw [isInteger]
      split
      · rename_i allowed
        refine (number_finds 58 text rest).bind (fun _ wrong => wrong.elim)
          (fun _ wrong => wrong.elim) ?_
        rintro i _ rest ⟨rfl, decoded⟩
        have range := ranged _ _ decoded
        refine .takes (List.nil_append _).symm ⟨.integer i, ?_, ?_, ?_⟩
        · rw [List.append_nil, List.append_nil]
          exact .integer line decoded
        · rcases allowed with rfl | rfl
          · exact ⟨⟨i, rfl⟩, .integer range.1 range.2⟩
          · exact .integer range.1 range.2
        · rcases allowed with rfl | rfl <;> rfl
      · exact .refuses
    split
    · rename_i isBulk
      rw [isBulk]
      split
      · rename_i allowed
        refine (bulkBehind_finds counted ranged line rest).bind (fun _ wrong => wrong.elim)
          (fun _ large => Or.inl (.here large)) ?_
        rintro _ part rest ⟨r, word, ⟨isBulk, readable⟩, rfl⟩
        refine .takes (List.nil_append _).symm ⟨r, ?_, ?_, ?_⟩
        · rw [List.append_nil]
          exact word
        · rcases allowed with rfl | rfl
          · exact ⟨isBulk, readable⟩
          · exact readable
        · rcases isBulk with rfl | ⟨bytes, rfl⟩ <;> rcases allowed with rfl | rfl <;> rfl
      · exact .refuses
    split
    · rename_i isArray
      rw [isArray]
      split
      · rename_i multiBulk
        rw [multiBulk]
        refine Scan.Finds.mono (multiBulkReply_finds counted ranged line rest) ?_ ?_ ?_
        · exact fun _ _ found => found
        · exact fun _ wrong => wrong.elim
        · exact fun _ large => large
      · split
        · rename_i allowed
          have loose : counted = false := by
            rcases allowed with rfl | rfl <;> simpa using checks
          have child (stream : Bytes) := Scan.Finds.mono
            (ih .depends (fun checked => absurd checked (by simp [loose])) stream)
            (fun _ _ found => found) (fun _ error => error)
            fun _ large => large.resolve_right fun array => nomatch array.1
          refine Scan.Finds.mono (specialReply_finds loose ranged child line rest) ?_ ?_ ?_
          · rintro output part ⟨r, word, ⟨isArray, readable⟩, rfl⟩
            rcases allowed with rfl | rfl
            · exact ⟨r, word, ⟨isArray, readable⟩, rfl⟩
            · exact ⟨r, word, readable, rfl⟩
          · exact fun _ error => error
          · exact fun _ large => Or.inl large
        · exact .refuses
    · exact .refuses

end ReplyScan

namespace RedisProtocol

variable {π : Type}

open ReplyScan (ErrorLine NoRoom)

/-- Whether the reader checks the count of an array: where it reads a multi-bulk of bulks. -/
def counted (p : RedisProtocol π) (c : RedisCommand) : Bool := p.replyType c == .multiBulk

/-- The rules by which `read_reply` decodes. -/
def rules (p : RedisProtocol π) (c : RedisCommand) : Rules :=
  ReplyScan.rules p.decode (p.counted c)

/-- The stream between two states is a word for a reply that is accepted, and the output is what it
denotes. -/
def Takes (p : RedisProtocol π) (c : RedisCommand) (rules : Rules) (c' : RedisCommand)
    (p' : RedisProtocol π) : Prop :=
  ∃ word r, p.stream = word ++ p'.stream ∧ Word rules r word ∧ Accepts (p.replyType c) r ∧
    c' = { c with out := denoteAs (p.replyType c) r }

/-- The stream between two states ends with an error line that reading in order comes to. -/
def StopsAtError (p : RedisProtocol π) (rules : Rules) (p' : RedisProtocol π) : Prop :=
  ∃ word, p.stream = word ++ p'.stream ∧ Reaches rules ErrorLine word

/-- The stream begins with a header that reading the reply in order comes to and has no room for: of
a byte string of `2 ^ 62 - 2` bytes or more, or of an array of `2 ^ 60` bulks or more. -/
def ReachesOversized (p : RedisProtocol π) (c : RedisCommand) : Prop :=
  ∃ word rest, p.stream = word ++ rest ∧
    NoRoom p.decode (p.counted c) (2 ^ 62) (p.replyType c) word

/-- The scan of the reply finds words. -/
theorem scan_finds (p : RedisProtocol π) (limit : Nat) (c : RedisCommand) :
    Scan.Finds (fun output part => ∃ r, Word (p.rules c) r part ∧ Accepts (p.replyType c) r ∧
        output = denoteAs (p.replyType c) r)
      (Reaches (p.rules c) ErrorLine) (NoRoom p.decode (p.counted c) limit (p.replyType c)) p.stream
      (p.scan limit c) :=
  ReplyScan.reply_finds (fun _ _ decoded => decode_range decoded) _ _
    (fun checked => eq_of_beq checked) _

/-- What `read_reply` returns, whatever the stream is: true behind a word, false with the
connection closed, or false with the connection kept behind an error line. -/
theorem readReply_finds {p : RedisProtocol π} (valid : p.Valid) (c : RedisCommand) {ok : Bool}
    {c' : RedisCommand} {p' : RedisProtocol π} (returns : p.readReply c = .ok (ok, c', p')) :
    (ok = true ∧ p.Keeps p' ∧ p.Takes c (p.rules c) c' p') ∨ (ok = false ∧ p.Ends p') ∨
      (ok = false ∧ p.Keeps p' ∧ p.StopsAtError (p.rules c) p') := by
  obtain ⟨result, follows, same⟩ := readReply_follows valid (Or.inl rfl : p.Fits (2 ^ 64)) c
  have finds := p.scan_finds (2 ^ 64) c
  rw [returns] at same
  obtain ⟨⟨ok₁, out, p₁⟩, rfl, shows⟩ := map_returns same.symm
  obtain ⟨rfl, rest⟩ := Prod.mk.inj shows
  obtain ⟨rfl, rfl⟩ := Prod.mk.inj rest
  clear same shows rest returns
  generalize p.scan (2 ^ 64) c = scan at follows finds
  generalize seen : (Except.ok (ok₁, out, p₁) : Except Abort _).map flagged = shown at follows
  cases follows with
  | aborts => cases seen
  | closes ends =>
    obtain ⟨rfl, rfl⟩ := flagged_none (Except.ok.inj seen)
    exact Or.inr (Or.inl ⟨rfl, ends⟩)
  | takes keeps =>
    cases flagged_some (Except.ok.inj seen)
    cases finds with
    | takes shape found =>
      obtain ⟨r, word, accepts, rfl⟩ := found
      exact Or.inl ⟨rfl, keeps, _, r, shape, word, accepts, rfl⟩
  | stops keeps =>
    obtain ⟨rfl, rfl⟩ := flagged_none (Except.ok.inj seen)
    cases finds with
    | stops shape error => exact Or.inr (Or.inr ⟨rfl, keeps, _, shape, error⟩)

/-- `read_reply` returns if the network does not keep it waiting and nothing is announced that there
is no room for. -/
theorem readReply_returns {p : RedisProtocol π} (valid : p.Valid) (allocated : p.Allocated)
    (prompt : p.Prompt) (short : p.stream.length < 2 ^ 60) (c : RedisCommand) :
    (∃ result, p.readReply c = .ok result) ∨ p.ReachesOversized c := by
  cases returns : p.readReply c with
  | ok returned => exact Or.inl ⟨_, rfl⟩
  | error abort =>
    have finds := p.scan_finds (2 ^ 62) c
    rw [scan_stalls valid ⟨allocated.small valid, short⟩ prompt returns] at finds
    cases finds with
    | stalls shape large => exact Or.inr ⟨_, _, shape, large⟩

end RedisProtocol

end LibRedis
