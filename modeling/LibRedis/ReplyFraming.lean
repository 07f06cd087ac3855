import LibRedis.ReadReply

/-!
# Framing and decoding of replies

Where `read_reply` leaves the stream behind a reply, and what it makes of a reply it accepts. The
stream is framed when nothing of the reply is left on an open connection. It is not framed exactly
when the reader stops at an error element inside an array: that exit keeps the connection and does
not read the elements behind the error. Replies without errors are read back whole.
-/

namespace LibRedis

open Decimal (ascii)
open Resp (Reply encode encodeAll)

/-- The reader takes the reply element by element and meets an error with something of the reply
still behind it. -/
def StopsInside (type : ReplyType) (r : Reply) : Prop :=
  (type = .depends ∨ type = .specialMultiBulk) ∧ ∃ left, left ≠ [] ∧ MeetsError r left

/-- The reader refuses a reply in the middle only by stopping inside. -/
theorem Refuses.stopsInside {type : ReplyType} {r : Reply} {left : List Reply}
    (refuses : Refuses type r left) (more : left ≠ []) : StopsInside type r ∧ IsArray r := by
  rcases refuses with ⟨text, rfl, rfl⟩ | ⟨types, isArray, meets⟩
  · exact absurd rfl more
  · exact ⟨⟨types, left, more, meets⟩, isArray⟩

/-- A reply that the reader stops inside is not accepted. -/
theorem StopsInside.not_accepts {type : ReplyType} {r : Reply} (stops : StopsInside type r) :
    ¬ Accepts type r ∧ ∃ left, Refuses type r left ∧ left ≠ [] := by
  obtain ⟨types, left, more, meets⟩ := stops
  refine ⟨fun accepts => accepts.readable.not_meets meets, left, Or.inr ⟨types, ?_, meets⟩, more⟩
  cases meets with
  | error text => exact absurd rfl more
  | array => exact Or.inr ⟨_, rfl⟩

/-- What is left of a reply is determined by the reply. -/
theorem MeetsError.unique {r : Reply} {left left' : List Reply} (first : MeetsError r left)
    (second : MeetsError r left') : left = left' := by
  induction first generalizing left' with
  | error text =>
    cases second
    rfl
  | @array before after inner found short readable meets ih =>
    generalize same : Reply.array (before ++ found :: after) = r at second
    cases second with
    | error => simp at same
    | @array before' after' inner' found' short' readable' meets' =>
      obtain same := Reply.array.inj same
      rcases List.append_eq_append_iff.mp same with ⟨more, rfl, behind⟩ | ⟨more, rfl, behind⟩
      · cases more with
        | nil =>
          obtain ⟨rfl, rfl⟩ : found = found' ∧ after = after' := by simpa using behind
          rw [ih meets']
        | cons extra more =>
          obtain ⟨rfl, -⟩ := List.cons.inj behind
          exact absurd meets (readable' found (by simp)).not_meets
      · cases more with
        | nil =>
          obtain ⟨rfl, rfl⟩ : found' = found ∧ after' = after := by simpa using behind
          rw [ih meets']
        | cons extra more =>
          obtain ⟨rfl, -⟩ := List.cons.inj behind
          exact absurd meets' (readable found' (by simp)).not_meets

namespace RedisProtocol

variable {π : Type}

/-- After reading a reply with the given bytes behind it, the connection is closed or exactly those
bytes are left. -/
def Framed (rest : Bytes) (result : Except Abort (Bool × RedisCommand × RedisProtocol π)) : Prop :=
  ∀ ok c p', result = .ok (ok, c, p') → p'.tcpClient.fd = -1 ∨ p'.stream = rest

/-- `read_reply` leaves the stream framed unless it stops at an error inside an array with clean
`errno`; and where the bytes of the reply arrive and there is room for it, it does so only then. -/
theorem readReply_framed_iff {p : RedisProtocol π} (valid : p.Valid) (c : RedisCommand) {r : Reply}
    (wellFormed : r.WellFormed) {rest : Bytes} (shape : p.stream = encode r ++ rest) :
    (¬ (p.CleanErrno ∧ StopsInside (p.replyType c) r) → Framed rest (p.readReply c)) ∧
    (p.Delivers → r.Bounded readerLimits →
      (Framed rest (p.readReply c) ↔ ¬ (p.CleanErrno ∧ StopsInside (p.replyType c) r))) := by
  obtain ⟨result, turns, same⟩ := readReply_turns valid c wellFormed shape
  have framed : ¬ (p.CleanErrno ∧ StopsInside (p.replyType c) r) →
      Framed rest (p.readReply c) := by
    rintro whole ok c' p' returns
    rw [same] at returns
    cases turns with
    | aborts reason => simp [Except.map] at returns
    | ends ends reason =>
      cases returns
      exact Or.inl ends.fd
    | accepts goes changes left accepts =>
      cases returns
      exact Or.inr left
    | @refuses out p'' left goes keeps unread clean refuses =>
      cases returns
      by_cases more : left = []
      · subst more
        exact Or.inr unread
      · obtain ⟨stops, isArray⟩ := refuses.stopsInside more
        exact absurd ⟨clean isArray, stops⟩ whole
  refine ⟨framed, fun delivers bounded => ⟨fun holds => ?_, framed⟩⟩
  rintro ⟨clean, stops⟩
  have smooth : p.Smooth r := ⟨delivers, clean, bounded⟩
  obtain ⟨notAccepted, left, refused, more⟩ := stops.not_accepts
  cases turns with
  | aborts reason => exact reason smooth
  | ends ends reason => exact (reason smooth).2 left refused
  | accepts goes changes unread accepts => exact notAccepted accepts
  | @refuses out p' left' goes keeps unread clean refuses =>
    have alive : p.tcpClient.fd ≠ -1 := by
      intro gone
      have nothing : p.stream = [] := valid.closed gone
      rw [shape] at nothing
      exact Resp.encode_ne_nil r (List.append_eq_nil_iff.mp nothing).1
    rcases holds _ _ _ same with gone | exactly
    · exact alive (goes.fd.symm.trans gone)
    · have nothing : encodeAll left' = [] := by
        rw [unread] at exactly
        exact List.append_left_eq_self.mp exactly
      rw [Resp.encodeAll_eq_nil] at nothing
      subst nothing
      rcases refuses with ⟨text, rfl, -⟩ | ⟨-, -, meets⟩
      · rcases refused with ⟨-, -, rfl⟩ | ⟨-, isArray, -⟩
        · exact more rfl
        · simp [IsArray] at isArray
      · rcases refused with ⟨text, rfl, rfl⟩ | ⟨-, -, meets'⟩
        · exact more rfl
        · exact more (MeetsError.unique meets' meets)

/-- A client of a peer that sends these bytes as soon as the connection is made. -/
def greeted (bytes : Bytes) (recvs : List RecvOutcome) : RedisProtocol ScriptedPeer :=
  ((new (ascii "localhost") (ascii "6379") 1000 (.start ⟨[bytes]⟩ recvs)).connect).2

/-- Such a client is valid and has these bytes to read. -/
theorem greeted_valid (bytes : Bytes) (recvs : List RecvOutcome) :
    (greeted bytes recvs).Valid ∧ (greeted bytes recvs).stream = bytes := by
  have start : (TcpClient.new (Os.start (⟨[bytes]⟩ : ScriptedPeer) recvs)).Valid :=
    TcpClient.closed_valid rfl TcpClientBuffer.new_valid TcpClientBuffer.new_unread rfl
  exact ⟨TcpClient.connect_valid start, rfl⟩

/-- The array of an error and a number. -/
def errorThenNumber : Reply := .array [.error (ascii "ERR"), .integer 1]

/-- It is well formed, and the number is left behind the error. -/
theorem errorThenNumber_stops :
    errorThenNumber.WellFormed ∧ MeetsError errorThenNumber [.integer 1] := by
  constructor
  · refine .array fun e member => ?_
    rcases List.mem_pair.mp member with rfl | rfl
    · exact .error (by decide)
    · exact .integer 1
  · exact @MeetsError.array [] _ [] _ (by decide) (by simp) (.error _)

/-- An EVAL that is answered by this array: the number is left, and the next command reads it as
its own reply. -/
theorem readReply_not_framed : ∃ (p : RedisProtocol ScriptedPeer) (c : RedisCommand) (r : Reply)
    (rest : Bytes), p.Valid ∧ r.WellFormed ∧ p.stream = encode r ++ rest ∧
      ¬ Framed rest (p.readReply c) := by
  obtain ⟨valid, shape⟩ := greeted_valid (encode errorThenNumber) []
  refine ⟨greeted (encode errorThenNumber) [], .new .eval, errorThenNumber, [], valid,
    errorThenNumber_stops.1, by simpa using shape, ?_⟩
  have left : ((greeted (encode errorThenNumber) []).readReply (.new .eval)).toOption.map
      (fun (_, _, p) => (p.tcpClient.fd, p.stream)) = some (3, ascii ":1\r\n") := by
    decide +kernel
  obtain ⟨⟨ok, c, p⟩, returned, seen⟩ := returned_of_view left
  obtain ⟨fd, stream⟩ := Prod.mk.inj seen
  intro framed
  rcases framed ok c p returned with gone | exactly
  · exact absurd (fd.symm.trans gone) (by decide)
  · exact absurd (stream.symm.trans exactly) (by decide)

/-- The same input under the criterion: the bytes arrive one by one. -/
theorem readReply_framed_iff_eval :
    ¬ Framed [] ((greeted (encode errorThenNumber) [.chunk 0, .chunk 2]).readReply (.new .eval)) := by
  obtain ⟨valid, shape⟩ := greeted_valid (encode errorThenNumber) [.chunk 0, .chunk 2]
  have delivers : (greeted (encode errorThenNumber) [.chunk 0, .chunk 2]).Delivers := by
    intro outcome member
    rcases List.mem_pair.mp member with rfl | rfl
    · exact ⟨0, rfl⟩
    · exact ⟨2, rfl⟩
  have bounded : errorThenNumber.Bounded readerLimits := by
    refine .array (by decide) fun e member => ?_
    rcases List.mem_pair.mp member with rfl | rfl
    · exact .error (by decide)
    · exact .integer64 (by decide) (by decide) (by decide)
  intro framed
  rw [← List.append_nil (encode errorThenNumber)] at shape
  refine ((readReply_framed_iff valid (.new .eval) errorThenNumber_stops.1
    shape).2 delivers bounded).mp framed ⟨?_, Or.inl rfl,
      [.integer 1], by simp, errorThenNumber_stops.2⟩
  exact ⟨by decide, by decide⟩

/-- What a reply needs besides its shape to be read back: its bytes arrive, and `errno` is clean. -/
theorem readReply_accepts {p : RedisProtocol π} (valid : p.Valid) {c : RedisCommand} {r : Reply}
    (wellFormed : r.WellFormed) (smooth : p.Smooth r) (accepts : Accepts (p.replyType c) r)
    {rest : Bytes} (shape : p.stream = encode r ++ rest) :
    ∃ p', p.readReply c = .ok (true, { c with out := denoteAs (p.replyType c) r }, p') ∧
      p.Goes p' ∧ p'.transactionMode = modeAfter true p.transactionMode c.command r ∧
      p'.stream = rest := by
  obtain ⟨result, turns, same⟩ := readReply_turns valid c wellFormed shape
  cases turns with
  | aborts reason => exact absurd smooth reason
  | ends ends reason => exact absurd accepts (reason smooth).1
  | accepts goes changes left _ => exact ⟨_, same, goes, changes, left⟩
  | refuses goes keeps unread clean refuses =>
    rcases refuses with ⟨text, rfl, -⟩ | ⟨-, -, meets⟩
    · exact nomatch accepts.readable
    · exact absurd meets accepts.readable.not_meets

/-- A reply to a command whose replies vary is read back whole, whatever the chunks: the output
denotes exactly it. So is an array of bulks, outside transactions, for a command that replies a
multi-bulk. -/
theorem readReply_encode {p : RedisProtocol π} (valid : p.Valid) (delivers : p.Delivers)
    (clean : p.CleanErrno) (c : RedisCommand) {v : Reply} (wellFormed : v.WellFormed)
    (readable : Readable v) (bounded : v.Bounded readerLimits) {rest : Bytes}
    (shape : p.stream = encode v ++ rest) :
    (c.commandInfo.replyType = .depends →
      (∃ p', p.readReply c = .ok (true, { c with out := denote v }, p') ∧ p'.stream = rest) ∧
        ∀ v', denote v' = denote v → v' = v) ∧
    (c.commandInfo.replyType = .multiBulk → p.transactionMode = false →
      (∀ elements, v = .array elements → (∀ e ∈ elements, IsBulk e) →
        ∃ p', p.readReply c = .ok (true, { c with out := .mbulks (elements.map bulkOf) }, p') ∧
          p'.stream = rest) ∧
      (v = .nilArray →
        ∃ p', p.readReply c = .ok (true, { c with out := .nilMbulks }, p') ∧ p'.stream = rest)) := by
  have smooth : p.Smooth v := ⟨delivers, clean, bounded⟩
  constructor
  · intro depends
    have type : p.replyType c = .depends := if_neg (by
      simp only [RedisCommand.commandInfo] at depends
      simp [depends])
    obtain ⟨p', returns, -, -, left⟩ := readReply_accepts valid (c := c) wellFormed smooth
      (by rw [type]; exact readable) shape
    rw [type] at returns
    exact ⟨⟨p', returns, left⟩, fun v' => denote_injective⟩
  · intro multiBulk outside
    have type : p.replyType c = .multiBulk := by
      simp only [RedisCommand.commandInfo] at multiBulk
      rw [replyType, typeRead, if_pos (by simp [multiBulk]), outside]
      exact multiBulk
    have reads : Accepts .multiBulk v → ∃ p', p.readReply c =
        .ok (true, { c with out := denoteAs .multiBulk v }, p') ∧ p'.stream = rest := by
      intro accepts
      obtain ⟨p', returns, -, -, left⟩ := readReply_accepts valid (c := c) wellFormed smooth
        (by rw [type]; exact accepts) shape
      rw [type] at returns
      exact ⟨p', returns, left⟩
    constructor
    · rintro elements rfl bulks
      refine reads ⟨Or.inr ⟨elements, rfl⟩, readable, fun others same => ?_⟩
      exact Reply.array.inj same ▸ bulks
    · rintro rfl
      exact reads ⟨Or.inl rfl, readable, by simp⟩

/-- A bulk that looks like protocol text, and a nil bulk. -/
def trickyBulks : Reply := .array [.bulk (ascii "\r\n:1"), .nilBulk]

/-- EVAL and MGET read this array back when the first chunks end inside its lines. -/
theorem readReply_encode_tricky :
    (∃ p', (greeted (encode trickyBulks ++ ascii "+OK\r\n") [.chunk 2, .chunk 4]).readReply
        (.new .eval) = .ok (true, ⟨.eval, [], denote trickyBulks⟩, p') ∧
      p'.stream = ascii "+OK\r\n") ∧
    (∃ p', (greeted (encode trickyBulks ++ ascii "+OK\r\n") [.chunk 2, .chunk 4]).readReply
        (.new .mget) = .ok (true, ⟨.mget, [], .mbulks [some (ascii "\r\n:1"), none]⟩, p') ∧
      p'.stream = ascii "+OK\r\n") := by
  obtain ⟨valid, shape⟩ :=
    greeted_valid (encode trickyBulks ++ ascii "+OK\r\n") [.chunk 2, .chunk 4]
  have delivers : (greeted (encode trickyBulks ++ ascii "+OK\r\n")
      [.chunk 2, .chunk 4]).Delivers := by
    intro outcome member
    rcases List.mem_pair.mp member with rfl | rfl
    · exact ⟨2, rfl⟩
    · exact ⟨4, rfl⟩
  have clean : (greeted (encode trickyBulks ++ ascii "+OK\r\n") [.chunk 2, .chunk 4]).CleanErrno :=
    ⟨by decide, by decide⟩
  have wellFormed : trickyBulks.WellFormed := by
    refine .array fun e member => ?_
    rcases List.mem_pair.mp member with rfl | rfl
    · exact .bulk _
    · exact .nilBulk
  have readable : Readable trickyBulks := by
    refine .array (by decide) fun e member => ?_
    rcases List.mem_pair.mp member with rfl | rfl
    · exact .bulk (by decide) (by decide)
    · exact .nilBulk
  have bounded : trickyBulks.Bounded readerLimits := by
    refine .array (by decide) fun e member => ?_
    rcases List.mem_pair.mp member with rfl | rfl
    · exact .bulk (by decide)
    · exact .nilBulk
  constructor
  · exact ((readReply_encode valid delivers clean (.new .eval) wellFormed readable bounded
      shape).1 rfl).1
  · refine ((readReply_encode valid delivers clean (.new .mget) wellFormed readable bounded
      shape).2 rfl rfl).1 _ rfl fun e member => ?_
    rcases List.mem_pair.mp member with rfl | rfl
    · exact Or.inr ⟨_, rfl⟩
    · exact Or.inl rfl

end RedisProtocol

end LibRedis
