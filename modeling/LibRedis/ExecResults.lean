import LibRedis.AcceptedReplies
import LibRedis.DeclaredTypes
import LibRedis.TransactionQueue

/-!
# Results of queued commands

A command that is answered with an array of bulks has the same output whether the reply is read for
the command itself or is an element of the reply to EXEC, which `exec` converts. The nil array is
the exception: `exec` converts only arrays that have elements to speak of.
-/

namespace LibRedis

open Decimal (ascii)
open Resp (Reply encode)

/-- Bulks are convertible, and are converted to their byte strings. -/
theorem convertible_bulks {elements : List Reply} (bulks : ∀ e ∈ elements, IsBulk e) :
    RedisOutput.convertible2Mbulks (denoteAll elements) = true ∧
      (denoteAll elements).map RedisOutput.toBulk = elements.map bulkOf := by
  rw [denoteAll_eq_map, RedisOutput.convertible2Mbulks, List.all_map, List.map_map]
  constructor
  · rw [List.all_eq_true]
    intro e member
    rcases bulks e member with rfl | ⟨bytes, rfl⟩
    · rfl
    · rfl
  · refine List.map_congr_left fun e member => ?_
    rcases bulks e member with rfl | ⟨bytes, rfl⟩
    · rfl
    · rfl

namespace Redis2

variable {π : Type}

/-- `exec` has returned a queued command, answered with this element of the reply to EXEC. -/
def ExecAnswers [Peer π] (r : Redis2 π) (reply : Reply) (c c' : RedisCommand) : Prop :=
  ∃ (commands : List RedisCommand) (r' : Redis2 π) (sent : RedisProtocol π)
    (elements : List Reply) (rest : Bytes) (i : Nat),
    r.exec = .ok (some commands, r') ∧
    r.checkConnect.2.proto.writeCommand (.new .exec) = .ok (true, .new .exec, sent) ∧
    (Reply.array elements).WellFormed ∧ sent.stream = encode (.array elements) ++ rest ∧
    r.transactionCmds[i]? = some c ∧ commands[i]? = some c' ∧ elements[i]? = some reply

/-- `read_reply` has returned a command outside a transaction, answered with this reply. -/
def ReadsDirectly (p : RedisProtocol π) (reply : Reply) (c c' : RedisCommand) : Prop :=
  p.transactionMode = false ∧ ∃ (rest : Bytes) (p' : RedisProtocol π),
    p.stream = encode reply ++ rest ∧ p.readReply c = .ok (true, c', p')

/-- `check_connect` leaves a valid client. -/
theorem checkConnect_valid {r : Redis2 π} (valid : r.proto.Valid) :
    ∃ connected p, r.checkConnect = (connected, { r with proto := p }) ∧ p.Valid := by
  obtain ⟨found, p, opens, looks, -⟩ := RedisProtocol.isOpen_cases valid
  rw [checkConnect, RedisProtocol.checkConnect, opens]
  cases found with
  | true => exact ⟨true, p, rfl, looks.valid⟩
  | false => exact ⟨false, _, rfl, looks.valid⟩

/-- The output of a queued command is what `exec` makes of the element that answers it. -/
theorem ExecAnswers.out [Peer π] {r : Redis2 π} (valid : r.proto.Valid) {reply : Reply}
    {c c' : RedisCommand} (executed : r.ExecAnswers reply c c') :
    reply.WellFormed ∧ c' = answered c (denote reply) := by
  obtain ⟨commands, r', sent, elements, rest, i, returns, writes, wellFormed, shape, queued, done,
    element⟩ := executed
  have inside : reply.WellFormed := by
    cases wellFormed with
    | array all => exact all reply (List.mem_of_getElem? element)
  obtain ⟨connected, p₁, looks, valid₁⟩ := checkConnect_valid valid
  cases connected with
  | false =>
    rw [Redis2.exec, looks] at returns
    cases returns
  | true =>
    obtain ⟨ok, executedExec, proto, sends, ends⟩ := exec_returns looks returns
    rw [looks] at writes
    rcases ends with ⟨outputs, rfl, smbulks, -, done', -⟩ | ⟨-, wrong, -⟩
    · have reads : sent.readReply (.new .exec) = .ok (true, executedExec, proto) := by
        rw [RedisProtocol.execCommand, writes] at sends
        exact sends
      obtain ⟨-, validSent, -⟩ := RedisProtocol.writeCommand_sent valid₁ writes
      obtain ⟨out, -⟩ := RedisProtocol.readReply_denotes validSent reads shape
        (Resp.word_encode wellFormed)
      rw [RedisProtocol.replyType_exec rfl, smbulks] at out
      have outputs_eq : outputs = denoteAll elements := RedisOutput.smbulks.inj out
      obtain rfl := Option.some.inj done'
      rw [outputs_eq, denoteAll_eq_map, List.getElem?_zipWith, queued, List.getElem?_map, element]
        at done
      exact ⟨inside, (Option.some.inj done).symm⟩
    · cases wrong

/-- For a command that is declared to be answered by a multi-bulk, and a reply that is an array of
bulks, the output behind EXEC is the one that is read outside a transaction, unless the reply is the
nil array. -/
theorem exec_result_eq_iff {π' : Type} [Peer π] {r : Redis2 π} (valid : r.proto.Valid)
    {p : RedisProtocol π'} (valid' : p.Valid) {reply : Reply} (isArray : IsArray reply)
    (bulks : ∀ elements, reply = .array elements → ∀ e ∈ elements, IsBulk e)
    {c c' c'' : RedisCommand} (declared : c.commandInfo.replyType = .multiBulk)
    (executed : r.ExecAnswers reply c c') (direct : ReadsDirectly p reply c c'') :
    c'.out = c''.out ↔ reply ≠ .nilArray := by
  obtain ⟨wellFormed, rfl⟩ := executed.out valid
  obtain ⟨mode, rest, p', shape, reads⟩ := direct
  have type : p.replyType c = .multiBulk := by
    have typed : c.commandInfo.replyType ≠ .depends := by
      rw [declared]
      decide
    rw [RedisProtocol.replyType_declared p typed, mode]
    exact declared
  obtain ⟨out, -⟩ := RedisProtocol.readReply_denotes valid' reads shape
    (Resp.word_encode wellFormed)
  rw [out, type]
  rcases isArray with rfl | ⟨elements, rfl⟩
  · refine iff_of_false (fun same => ?_) fun other => other rfl
    have nil : (RedisOutput.nilSmbulks) = .nilMbulks := same
    cases nil
  · refine iff_of_true ?_ nofun
    obtain ⟨convertible, converted⟩ := convertible_bulks (bulks elements rfl)
    rw [denote, answered]
    simp only [convertible, if_true]
    rw [converted, denoteAs]

/-- BLPOP on a list. -/
def blpop : RedisCommand := (RedisCommand.new .blpop).pushArgs [ascii "k", ascii "0"]

/-- GET that is queued. -/
def queuedGet : RedisCommand :=
  { (RedisCommand.new .get).pushArg (ascii "a") with out := .status (ascii "QUEUED") }

/-- A client that has queued GET and then BLPOP in a transaction, whose EXEC is answered with these
bytes. -/
def queuedBlpop (answer : Bytes) : Redis2 ScriptedPeer where
  proto := { (RedisProtocol.connect (.new (ascii "localhost") (ascii "6379") 1000
    (.start ⟨[[], answer]⟩ []))).2 with transactionMode := true }
  dbIndex := 0
  dbIndexSelectFailure := true
  transactionCmds := [queuedGet, { blpop with out := .status (ascii "QUEUED") }]

/-- This client is valid. -/
theorem queuedBlpop_valid (answer : Bytes) : (queuedBlpop answer).proto.Valid := by
  have start : (TcpClient.new (Os.start (⟨[[], answer]⟩ : ScriptedPeer) [])).Valid :=
    TcpClient.closed_valid rfl TcpClientBuffer.new_valid TcpClientBuffer.new_unread rfl
  exact TcpClient.connect_valid start

/-- The reply to EXEC that has a value for GET and this reply for BLPOP. -/
def valueAnd (reply : Reply) : Reply := .array [.bulk (ascii "1"), reply]

/-- Its `exec` answers BLPOP with the second element of an array of two, if it returns two commands.
-/
theorem queuedBlpop_answers {reply : Reply} (wellFormed : reply.WellFormed) {type : ReplyType}
    (executes : (queuedBlpop (encode (valueAnd reply))).exec.toOption.map
      (fun returned => returned.1.map (List.map fun c => c.out.replyType)) =
        some (some [.bulk, type]))
    (sends : ((queuedBlpop (encode (valueAnd reply))).checkConnect.2.proto.writeCommand
      (.new .exec)).toOption.map (fun sent => (sent.1, sent.2.2.stream)) =
        some (true, encode (valueAnd reply))) :
    ∃ c', (queuedBlpop (encode (valueAnd reply))).ExecAnswers reply
        { blpop with out := .status (ascii "QUEUED") } c' ∧ c'.out.replyType = type := by
  obtain ⟨connected, p₁, looks, valid₁⟩ :=
    checkConnect_valid (queuedBlpop_valid (encode (valueAnd reply)))
  obtain ⟨⟨commands, r'⟩, returns, types⟩ := returned_of_view executes
  obtain ⟨⟨ok, command, sent⟩, writes, seen⟩ := returned_of_view sends
  obtain ⟨flag, stream⟩ := Prod.mk.inj seen
  obtain rfl : ok = true := flag
  rw [looks] at writes
  obtain ⟨rfl, -, -⟩ := RedisProtocol.writeCommand_sent valid₁ writes
  obtain ⟨answered, rfl, each⟩ := Option.map_eq_some_iff.mp types
  obtain ⟨c, later, rfl, -, each⟩ := List.map_eq_cons_iff.mp each
  obtain ⟨c', rfl, type⟩ := List.map_eq_singleton_iff.mp each
  have all : (valueAnd reply).WellFormed := by
    refine .array fun e member => ?_
    rcases List.mem_pair.mp member with rfl | rfl
    · exact .bulk _
    · exact wellFormed
  rw [← looks] at writes
  exact ⟨c', ⟨[c, c'], r', sent, [.bulk (ascii "1"), reply], [], 1, returns, writes, all,
    stream.trans (List.append_nil _).symm, rfl, rfl, rfl⟩, type⟩

/-- A BLPOP that finds a list has the same output in a transaction as outside one. -/
theorem exec_result_eq_iff_blpop : ∃ c' c'' : RedisCommand,
    (queuedBlpop (encode (valueAnd (.array [.bulk (ascii "k"), .bulk (ascii "v")])))).ExecAnswers
      (.array [.bulk (ascii "k"), .bulk (ascii "v")])
      { blpop with out := .status (ascii "QUEUED") } c' ∧ c'.out = c''.out := by
  have wellFormed : (Reply.array [.bulk (ascii "k"), .bulk (ascii "v")]).WellFormed := by
    refine .array fun e member => ?_
    rcases List.mem_pair.mp member with rfl | rfl
    · exact .bulk _
    · exact .bulk _
  obtain ⟨c', executed, -⟩ := queuedBlpop_answers wellFormed
    (show _ = some (some [ReplyType.bulk, .multiBulk]) by decide +kernel) (by decide +kernel)
  obtain ⟨valid, stream⟩ :=
    RedisProtocol.greeted_valid (encode (.array [.bulk (ascii "k"), .bulk (ascii "v")])) []
  have returns : ((RedisProtocol.greeted
      (encode (.array [.bulk (ascii "k"), .bulk (ascii "v")])) []).readReply
        { blpop with out := .status (ascii "QUEUED") }).toOption.map (fun returned => returned.1) =
          some true := by
    decide +kernel
  obtain ⟨⟨ok, c'', p'⟩, reads, flag⟩ := returned_of_view returns
  obtain rfl : ok = true := flag
  refine ⟨c', c'', executed, ?_⟩
  refine (exec_result_eq_iff (queuedBlpop_valid _) valid (Or.inr ⟨_, rfl⟩) ?_ rfl executed
    ⟨rfl, [], p', stream.trans (List.append_nil _).symm, reads⟩).mpr nofun
  rintro elements same e member
  obtain rfl := Reply.array.inj same
  rcases List.mem_pair.mp member with rfl | rfl
  · exact Or.inr ⟨_, rfl⟩
  · exact Or.inr ⟨_, rfl⟩

/-- A BLPOP that finds no list is answered by the nil array, and has another reply type in a
transaction than outside one. -/
theorem exec_result_ne : ∃ (r : Redis2 ScriptedPeer) (p : RedisProtocol ScriptedPeer)
    (reply : Reply) (c c' c'' : RedisCommand), r.proto.Valid ∧ p.Valid ∧ IsArray reply ∧
    (∀ elements, reply = .array elements → ∀ e ∈ elements, IsBulk e) ∧
    c.commandInfo.replyType = .multiBulk ∧ r.ExecAnswers reply c c' ∧ ReadsDirectly p reply c c'' ∧
    c'.out.replyType = .specialMultiBulk ∧ c''.out.replyType = .multiBulk ∧ c'.out ≠ c''.out := by
  obtain ⟨c', executed, special⟩ := queuedBlpop_answers .nilArray
    (show _ = some (some [ReplyType.bulk, .specialMultiBulk]) by decide +kernel) (by decide +kernel)
  obtain ⟨valid, stream⟩ := RedisProtocol.greeted_valid (encode .nilArray) []
  have returns : ((RedisProtocol.greeted (encode .nilArray) []).readReply
      { blpop with out := .status (ascii "QUEUED") }).toOption.map
        (fun returned => (returned.1, returned.2.1.out.replyType)) = some (true, .multiBulk) := by
    decide +kernel
  obtain ⟨⟨ok, c'', p'⟩, reads, seen⟩ := returned_of_view returns
  obtain ⟨flag, multiBulk⟩ := Prod.mk.inj seen
  obtain rfl : ok = true := flag
  have multiBulk : c''.out.replyType = .multiBulk := multiBulk
  refine ⟨_, _, _, _, c', c'', queuedBlpop_valid _, valid, Or.inl rfl, nofun, rfl, executed,
    ⟨rfl, [], p', stream.trans (List.append_nil _).symm, reads⟩, special, multiBulk, fun same => ?_⟩
  rw [same, multiBulk] at special
  cases special

end Redis2

end LibRedis
