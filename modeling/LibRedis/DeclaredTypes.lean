import LibRedis.ReplyFraming
import LibRedis.ReplyWords
import LibRedis.Request

/-!
# Replies have the declared type

The type check of `__read_reply` seen from `exec_command`, for every state and every stream: an
output that is returned with true has the type that is declared for the command, or is a status
inside a transaction; nil stands only behind a header that says -1; and a reply of another kind
closes the connection.
-/

namespace LibRedis

open Decimal (ascii)
open Resp (Reply Word crlf firstLine)

/-- The first byte of the replies of a type. -/
def kindOf : ReplyType → Option UInt8
  | .status => some 43
  | .integer => some 58
  | .bulk => some 36
  | .multiBulk | .specialMultiBulk => some 42
  | .none | .error | .depends => none

/-- The type that the output of a command has to have: the declared one, or a status inside a
transaction. -/
def declaredType (transactionMode : Bool) (c : RedisCommand) : ReplyType :=
  if transactionMode = false ∨ c.command = .multi ∨ c.command = .discard ∨ c.command = .exec then
    c.commandInfo.replyType
  else .status

/-- An output that is nil. -/
def RedisOutput.IsNil (output : RedisOutput) : Prop :=
  output = .nilBulk ∨ output = .nilMbulks ∨ output = .nilSmbulks

/-- What an accepted reply denotes has the type that it was read for. -/
theorem Accepts.replyType {type : ReplyType} {r : Reply} (accepts : Accepts type r)
    (typed : type ≠ .depends) : (denoteAs type r).replyType = type := by
  cases type with
  | none => exact accepts.elim
  | status =>
    obtain ⟨text, rfl⟩ := accepts
    rfl
  | error => exact accepts.elim
  | integer =>
    obtain ⟨⟨value, rfl⟩, -⟩ := accepts
    rfl
  | bulk =>
    obtain ⟨rfl | ⟨bytes, rfl⟩, -⟩ := accepts
    · rfl
    · rfl
  | multiBulk =>
    obtain ⟨rfl | ⟨elements, rfl⟩, -⟩ := accepts
    · rfl
    · rfl
  | specialMultiBulk =>
    obtain ⟨rfl | ⟨elements, rfl⟩, -⟩ := accepts
    · rfl
    · rfl
  | depends => exact absurd rfl typed

/-- Only the nil replies denote nil. -/
theorem nil_of_denoteAs {type : ReplyType} {r : Reply} (nil : (denoteAs type r).IsNil) :
    r = .nilBulk ∨ r = .nilArray := by
  cases r with
  | nilBulk => exact Or.inl rfl
  | nilArray => exact Or.inr rfl
  | status | error | integer | bulk | array =>
    cases type <;> rcases nil with nil | nil | nil <;> cases nil

/-- The header of a nil reply decodes to -1. -/
theorem nil_header {rules : Resp.Rules} {r : Reply} {word : Bytes} (found : Word rules r word)
    (nil : r = .nilBulk ∨ r = .nilArray) :
    ∃ marker text, (marker = 36 ∨ marker = 42) ∧ rules.number text (-1) ∧
      word = firstLine marker text := by
  rcases nil with rfl | rfl
  · cases found with
    | nilBulk line number => exact ⟨36, _, Or.inl rfl, number, rfl⟩
  · cases found with
    | nilArray line number => exact ⟨42, _, Or.inr rfl, number, rfl⟩

/-- A stream that begins with the first byte of another type of reply is refused. -/
theorem ReplyScan.reply_wrong_kind {decode : Bytes → Option Int} {limit fuel : Nat}
    {type : ReplyType} (typed : type ≠ .depends) {marker : UInt8}
    (known : marker ∈ [43, 58, 36, 42]) (wrong : kindOf type ≠ some marker) {stream : Bytes}
    (first : stream.head? = some marker) :
    reply decode limit (fuel + 1) type stream = .refuses ∨
      reply decode limit (fuel + 1) type stream = .starves := by
  rw [reply]
  cases scanned : line stream with
  | refuses => exact Or.inl rfl
  | starves => exact Or.inr rfl
  | stops =>
    have finds := line_finds stream
    rw [scanned] at finds
    cases finds with
    | stops _ wrong => exact wrong.elim
  | stalls =>
    have finds := line_finds stream
    rw [scanned] at finds
    cases finds with
    | stalls _ wrong => exact wrong.elim
  | takes header rest =>
    obtain ⟨splits, some⟩ := line_eq_takes.mp scanned
    have same : header.head? = .some marker := by
      rw [splits.eq, List.append_assoc, List.head?_append_of_ne_nil _ some] at first
      exact first
    refine Or.inl ?_
    rw [Scan.bind_takes]
    unfold replyBehind
    simp only [same, Option.some.injEq]
    simp only [List.mem_cons, List.not_mem_nil, or_false] at known
    rcases known with rfl | rfl | rfl | rfl
    · have other : ¬ (type = .status ∨ type = .depends) := by
        rintro (rfl | rfl)
        · exact wrong rfl
        · exact typed rfl
      rw [if_neg (by decide), if_pos rfl, if_neg other]
    · have other : ¬ (type = .integer ∨ type = .depends) := by
        rintro (rfl | rfl)
        · exact wrong rfl
        · exact typed rfl
      rw [if_neg (by decide), if_neg (by decide), if_pos rfl, if_neg other]
    · have other : ¬ (type = .bulk ∨ type = .depends) := by
        rintro (rfl | rfl)
        · exact wrong rfl
        · exact typed rfl
      rw [if_neg (by decide), if_neg (by decide), if_neg (by decide), if_pos rfl, if_neg other]
    · have notBulks : type ≠ .multiBulk := by
        rintro rfl
        exact wrong rfl
      have other : ¬ (type = .specialMultiBulk ∨ type = .depends) := by
        rintro (rfl | rfl)
        · exact wrong rfl
        · exact typed rfl
      rw [if_neg (by decide), if_neg (by decide), if_neg (by decide), if_neg (by decide),
        if_pos rfl, if_neg notBulks, if_neg other]

namespace RedisProtocol

variable {π : Type}

/-- In a transaction only these commands keep the type that is declared for them. -/
theorem expectedType_eq (transactionMode : Bool) (command : Command) :
    expectedType transactionMode command =
      if transactionMode = false ∨ command = .multi ∨ command = .discard ∨ command = .exec then
        command.commandInfo.replyType
      else .status := by
  unfold expectedType
  cases transactionMode with
  | false => rfl
  | true =>
    split
    · rename_i mode
      split
      · exact (if_pos (Or.inr (Or.inl rfl))).symm
      · exact (if_pos (Or.inr (Or.inr (Or.inl rfl)))).symm
      · exact (if_pos (Or.inr (Or.inr (Or.inr rfl)))).symm
      · rename_i notMulti notDiscard notExec
        exact (if_neg (not_or.mpr ⟨by decide, not_or.mpr ⟨notMulti,
          not_or.mpr ⟨notDiscard, notExec⟩⟩⟩)).symm
    · rename_i wrong
      exact absurd rfl wrong

/-- The type that a reply is held to. -/
theorem replyType_declared (p : RedisProtocol π) {c : RedisCommand}
    (declared : c.commandInfo.replyType ≠ .depends) :
    p.replyType c = declaredType p.transactionMode c := by
  have checks : c.command.commandInfo.replyType ≠ .depends := declared
  rw [replyType, typeRead, if_pos (by simpa using checks)]
  exact expectedType_eq _ _

/-- A reply of another kind makes `read_reply` close the connection. -/
theorem readReply_wrong_kind {p : RedisProtocol π} (valid : p.Valid) {c : RedisCommand}
    (typed : p.replyType c ≠ .depends) {marker : UInt8} (known : marker ∈ [43, 58, 36, 42])
    (first : p.stream.head? = some marker) (wrong : kindOf (p.replyType c) ≠ some marker) :
    (∀ ok c' p', p.readReply c = .ok (ok, c', p') → ok = false ∧ p'.tcpClient.fd = -1) ∧
    (p.Allocated → p.Prompt → p.stream.length < 2 ^ 60 → ∃ result, p.readReply c = .ok result) := by
  have refused (limit : Nat) : p.scan limit c = .refuses ∨ p.scan limit c = .starves :=
    ReplyScan.reply_wrong_kind typed known wrong first
  constructor
  · intro ok c' p' returns
    obtain ⟨result, follows, same⟩ := readReply_follows valid (Or.inl rfl : p.Fits (2 ^ 64)) c
    rw [returns] at same
    obtain ⟨⟨ok₁, out, p₁⟩, rfl, shows⟩ := map_returns same.symm
    obtain ⟨rfl, rest⟩ := Prod.mk.inj shows
    obtain ⟨-, rfl⟩ := Prod.mk.inj rest
    have refused := refused (2 ^ 64)
    generalize p.scan (2 ^ 64) c = scan at follows refused
    generalize seen : (Except.ok (ok₁, out, p₁) : Except Abort _).map flagged = shown at follows
    cases follows with
    | aborts => cases seen
    | closes ends =>
      obtain ⟨rfl, rfl⟩ := flagged_none (Except.ok.inj seen)
      exact ⟨rfl, ends.fd⟩
    | takes | stops => rcases refused with wrong | wrong <;> cases wrong
  · intro allocated prompt short
    cases returns : p.readReply c with
    | ok returned => exact ⟨_, rfl⟩
    | error abort =>
      have stalls := scan_stalls valid ⟨allocated.small valid, short⟩ prompt returns
      rcases refused (2 ^ 62) with wrong | wrong
      · cases stalls.symm.trans wrong
      · cases stalls.symm.trans wrong

/-- For a command with a declared reply type, whatever the state and the stream are: an output that
`exec_command` returns with true has the declared type, or is a status inside a transaction; it is
what the bytes denote, nil only where a header decodes to -1; and a reply of another kind makes the
call return false and close the connection. -/
theorem execCommand_declared [Peer π] {p : RedisProtocol π} (valid : p.Valid) {c : RedisCommand}
    (declared : c.commandInfo.replyType ≠ .depends) :
    (∀ c' p', p.execCommand c = .ok (true, c', p') →
      ∃ sent, p.writeCommand c = .ok (true, c, sent) ∧
        sent.transactionMode = p.transactionMode ∧
        c'.out.replyType = declaredType sent.transactionMode c ∧
        sent.Takes c (sent.rules c) c' p' ∧
        (c'.out.IsNil → ∃ marker text, (marker = 36 ∨ marker = 42) ∧
          sent.decode text = some (-1) ∧ sent.stream = firstLine marker text ++ p'.stream)) ∧
    (∀ sent, p.writeCommand c = .ok (true, c, sent) → ∀ marker ∈ [43, 58, 36, 42],
      sent.stream.head? = some marker →
      kindOf (declaredType sent.transactionMode c) ≠ some marker →
        (∀ ok c' p', p.execCommand c = .ok (ok, c', p') → ok = false ∧ p'.tcpClient.fd = -1) ∧
        (sent.Allocated → sent.Prompt → sent.stream.length < 2 ^ 60 →
          ∃ result, p.execCommand c = .ok result)) := by
  have typed (sent : RedisProtocol π) : sent.replyType c ≠ .depends := by
    rw [replyType_declared sent declared, declaredType]
    split
    · exact declared
    · decide
  constructor
  · intro c' p' returns
    obtain ⟨sent, writes, reads⟩ := execCommand_sent valid returns
    obtain ⟨-, sentValid, mode⟩ := writeCommand_sent valid writes
    rcases readReply_finds sentValid c reads with
      ⟨-, -, word, r, shape, found, accepts, rfl⟩ | ⟨wrong, -⟩ | ⟨wrong, -⟩
    · refine ⟨sent, writes, mode, ?_, ⟨word, r, shape, found, accepts, rfl⟩, fun nil => ?_⟩
      · rw [← replyType_declared sent declared]
        exact accepts.replyType (typed sent)
      · obtain ⟨marker, text, kind, number, rfl⟩ := nil_header found (nil_of_denoteAs nil)
        exact ⟨marker, text, kind, number, shape⟩
    · cases wrong
    · cases wrong
  · intro sent writes marker known first wrong
    have same : p.execCommand c = sent.readReply c := by
      rw [execCommand, writes]
      rfl
    rw [same]
    rw [← replyType_declared sent declared] at wrong
    obtain ⟨-, sentValid, -⟩ := writeCommand_sent valid writes
    exact readReply_wrong_kind sentValid (typed sent) known first wrong

/-- GET on a key that is not there: the output is a nil bulk. -/
theorem execCommand_declared_get :
    ∃ c' p', (greeted (ascii "$-1\r\n") [.chunk 2, .chunk 20]).execCommand
        ((RedisCommand.new .get).pushArg (ascii "k")) = .ok (true, c', p') ∧
      c'.out.replyType = .bulk := by
  obtain ⟨valid, -⟩ := greeted_valid (ascii "$-1\r\n") [.chunk 2, .chunk 20]
  have returns : ((greeted (ascii "$-1\r\n") [.chunk 2, .chunk 20]).execCommand
      ((RedisCommand.new .get).pushArg (ascii "k"))).toOption.map (fun returned => returned.1) =
        some true := by
    decide +kernel
  obtain ⟨⟨ok, c', p'⟩, same, flag⟩ := returned_of_view returns
  obtain rfl : ok = true := flag
  have declared : ((RedisCommand.new .get).pushArg (ascii "k")).commandInfo.replyType ≠ .depends := by
    decide
  obtain ⟨sent, -, mode, type, -⟩ := (execCommand_declared valid declared).1 c' p' same
  refine ⟨c', p', same, ?_⟩
  rw [type, mode]
  decide +kernel

end RedisProtocol

end LibRedis
