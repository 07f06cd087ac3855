import Mathlib.Data.List.Chain
import LibRedis.Pipeline
import LibRedis.WorkQueue

/-!
# What a server executes of pipelines

A pipeline is executed from its front: its requests in order, each once, up to one behind which no
other is. If it returns true they all are, and every output is that of the reply to its own request.
A pipeline that fails may leave replies on the connection. In runs that close the connection behind
every pipeline that has failed, the history of the server falls into pieces as it does for single
calls.
-/

namespace LibRedis

open Decimal (ascii)
open Resp (Reply encode encodeAll)
open RedisProtocol (commandText requestOf typeRead Synced)

variable {σ : Type} {server : Server σ}

/-- The outputs of commands are those of the replies, each read for the type of its command or for a
status. -/
inductive Replied : List RedisCommand → List Reply → List RedisCommand → Prop
  /-- No command. -/
  | nil : Replied [] [] []
  /-- A command and its reply, and others. -/
  | cons {c : RedisCommand} {r : Reply} {commands answered : List RedisCommand} {replies : List Reply}
      (mode : Bool) (accepts : Accepts (typeRead true mode c.command) r)
      (others : Replied commands replies answered) : Replied (c :: commands) (r :: replies)
        ({ c with out := denoteAs (typeRead true mode c.command) r } :: answered)

/-- The piece of a history for a pipeline: the requests of its first commands; if it succeeded, those
of all its commands, and the outputs are those of the replies. -/
def Pipelined (commands : List RedisCommand) (ok : Bool) (answered : List RedisCommand)
    (entries : List Entry) : Prop :=
  (∃ sent, sent <+: commands ∧ entries.map Prod.fst = sent.map requestOf) ∧
    (ok = true → entries.map Prod.fst = commands.map requestOf ∧
      Replied commands (entries.map Prod.snd) answered)

/-- The replies in a history are those of the server. -/
theorem Server.History.answers {first last : σ} {entries : List Entry}
    (history : server.History first entries last)
    (wellFormed : ∀ state args, (server.handle state args).1.WellFormed) :
    ∀ entry ∈ entries, entry.2.WellFormed := by
  induction history with
  | idle => simp
  | accept behind ih => exact ih
  | request args behind ih => exact List.forall_mem_cons.mpr ⟨wellFormed _ args, ih⟩

namespace RedisProtocol

variable {p p' : RedisProtocol (Endpoint server)}

/-- What rounds with some commands leave of the connection: it is closed or as before, and no
transaction is open behind them but for MULTI. -/
structure Rounds (commands : List RedisCommand) (p p' : RedisProtocol (Endpoint server)) : Prop where
  /-- The client is valid. -/
  valid : p'.Valid
  /-- The connection is the same, if there is one. -/
  fd : p'.tcpClient.fd ≠ -1 → p'.tcpClient.fd = p.tcpClient.fd
  /-- The transaction mode stays off. -/
  mode : p.transactionMode = false → (∀ c ∈ commands, c.command ≠ .multi) →
    p'.transactionMode = false

/-- Rounds go on with rounds. -/
theorem Rounds.cons {c : RedisCommand} {rest : List RedisCommand}
    {p p₁ p₂ : RedisProtocol (Endpoint server)} (first : Rounds [c] p p₁)
    (others : Rounds rest p₁ p₂) : Rounds (c :: rest) p p₂ where
  valid := others.valid
  fd alive := by
    have same := others.fd alive
    exact same.trans (first.fd (same ▸ alive))
  mode off plain := others.mode
    (first.mode off fun c' member =>
      plain c' (List.mem_cons.mpr (Or.inl (List.mem_singleton.mp member))))
    fun c' member => plain c' (List.mem_cons_of_mem c member)

/-- A round that is the last one. -/
theorem Rounds.stop {c : RedisCommand} {p p' : RedisProtocol (Endpoint server)}
    (first : Rounds [c] p p') (rest : List RedisCommand) : Rounds (c :: rest) p p' where
  valid := first.valid
  fd := first.fd
  mode off plain := first.mode off fun c' member =>
    plain c' (List.mem_cons.mpr (Or.inl (List.mem_singleton.mp member)))

/-- Rounds that end with the connection closed. -/
theorem Rounds.closed (commands : List RedisCommand) {p p' : RedisProtocol (Endpoint server)}
    (valid : p'.Valid) (fd : p'.tcpClient.fd = -1) (mode : p'.transactionMode = false) :
    Rounds commands p p' :=
  ⟨valid, fun alive => absurd fd alive, fun _ _ => mode⟩

/-- The check between two rounds tells the server nothing; what it finds open it leaves, and what it
does not it closes. -/
theorem stillOpen_keeps (valid : p.Valid) {ok : Bool} (checks : p.stillOpen = (ok, p')) :
    p'.Valid ∧ p'.tcpClient.os.peer = p.tcpClient.os.peer ∧
      (ok = false → p'.tcpClient.fd = -1 ∧ p'.transactionMode = false) ∧
      (ok = true → p.tcpClient.fd ≠ -1 ∧ p'.stream = p.stream ∧
        p'.tcpClient.fd = p.tcpClient.fd ∧ p'.transactionMode = p.transactionMode) := by
  obtain ⟨found, p₁, shows, looks, alive, -⟩ := isOpen_cases valid
  rw [stillOpen, shows] at checks
  cases found with
  | true =>
    cases checks
    exact ⟨looks.valid, looks.peer, by simp,
      fun _ => ⟨(alive rfl).2, looks.stream, looks.fd, looks.mode⟩⟩
  | false =>
    cases checks
    obtain ⟨shut, closed⟩ := looks.valid.close_receives
    refine ⟨shut.valid, ?_, fun _ => ⟨closed, rfl⟩, by simp⟩
    change p₁.tcpClient.close.os.peer = _
    rw [shut.frame]
    exact looks.peer

/-- A round whose operation has failed has failed with it; else the check behind it has decided. -/
theorem pipelineRound_returns {operation : RedisProtocol (Endpoint server) → RedisCommand →
      Except Abort (Bool × RedisCommand × RedisProtocol (Endpoint server))} {c c' : RedisCommand}
    {ok : Bool} (returns : pipelineRound operation p c = .ok (ok, c', p')) :
    ∃ done p₁, operation p c = .ok (done, c', p₁) ∧
      ((done = false ∧ ok = false ∧ p' = p₁) ∨ (done = true ∧ p₁.stillOpen = (ok, p'))) := by
  obtain ⟨⟨done, c₁, p₁⟩, operates, ends⟩ := bind_returns returns
  cases done with
  | false =>
    cases ends
    exact ⟨false, _, operates, Or.inl ⟨rfl, rfl, rfl⟩⟩
  | true =>
    cases ends
    exact ⟨true, _, operates, Or.inr ⟨rfl, rfl⟩⟩

/-- A request that was not sent whole is not executed. -/
theorem Lost.served {args : List Bytes} (lost : p.Lost (Resp.request args) p')
    (pending : p.tcpClient.fd ≠ -1 → p.tcpClient.os.peer.pending = []) :
    RedisProtocol.served p' = RedisProtocol.served p := by
  obtain ⟨part, more, whole, missing, peer, nothing⟩ := lost.part
  rw [RedisProtocol.served, peer]
  by_cases gone : p.tcpClient.fd = -1
  · rw [nothing gone, TcpClient.peerAfter, if_pos rfl]
    rfl
  · exact Endpoint.peerAfter_part (pending gone) whole missing

/-- One round of writing: the request is executed or not, and if the round succeeds it is, and its
reply is on its way. -/
theorem writeRound_history (valid : p.Valid)
    (pending : p.tcpClient.fd ≠ -1 → p.tcpClient.os.peer.pending = []) {c c' : RedisCommand}
    (small : (commandText c).length < 2 ^ 31) {ok : Bool}
    (returns : pipelineRound writeCommand p c = .ok (ok, c', p')) :
    Rounds [c] p p' ∧ (p'.tcpClient.fd ≠ -1 → p'.tcpClient.os.peer.pending = []) ∧
      ((p'.served = p.served ∧ ok = false) ∨
      (p.tcpClient.fd ≠ -1 ∧
        p'.tcpClient.os.peer = ⟨[], (server.handle p.served (requestOf c)).2⟩ ∧ (ok = true →
        c' = c ∧ p'.stream = p.stream ++ encode (server.handle p.served (requestOf c)).1))) := by
  obtain ⟨done, p₁, writes, ends⟩ := pipelineRound_returns returns
  by_cases passes : Passes c
  · have text := commandText_small small
    rw [passes.writeCommand, text] at writes
    have some : Resp.request (requestOf c) ≠ [] := by
      rw [Resp.request]
      simp
    rcases sendRequest_cases valid c some (text ▸ small) with
      ⟨hangs, -⟩ | ⟨ok₁, c₁, p₂, same, lost, mode, -⟩ | ⟨client, same, sends, -⟩
    · cases hangs.symm.trans writes
    · cases same.symm.trans writes
      rcases ends with ⟨rfl, rfl, rfl⟩ | ⟨-, checks⟩
      · exact ⟨.closed [c] lost.valid lost.fd (by simpa using mode),
          fun alive => absurd lost.fd alive, Or.inl ⟨lost.served pending, rfl⟩⟩
      · obtain ⟨valid', peer, closed, alive⟩ := stillOpen_keeps lost.valid checks
        cases ok with
        | false =>
          obtain ⟨fd, mode⟩ := closed rfl
          refine ⟨.closed [c] valid' fd mode, fun alive => absurd fd alive, Or.inl ⟨?_, rfl⟩⟩
          rw [served, peer]
          exact lost.served pending
        | true => exact absurd lost.fd (alive rfl).1
    · cases same.symm.trans writes
      have alive : p.tcpClient.fd ≠ -1 := by
        have open_ := sends.alive
        omega
      obtain ⟨stream, peer⟩ := sends.answered (pending alive)
        (rfl : server.handle p.served (requestOf c) = (_, _))
      rcases ends with ⟨wrong, -⟩ | ⟨-, checks⟩
      · cases wrong
      · obtain ⟨valid', same', closed, keeps⟩ := stillOpen_keeps
          (p := { p with tcpClient := client }) sends.valid checks
        have peer' := same'.trans peer
        have rounds : Rounds [c] p p' := by
          cases ok with
          | false => exact .closed [c] valid' (closed rfl).1 (closed rfl).2
          | true =>
            obtain ⟨-, -, fd, mode⟩ := keeps rfl
            refine ⟨valid', fun _ => fd.trans ?_, fun off _ => mode.trans off⟩
            change client.fd = _
            rw [sends.frame]
        refine ⟨rounds, fun _ => by rw [peer'], Or.inr ⟨alive, peer', fun yes => ⟨rfl, ?_⟩⟩⟩
        rw [(keeps yes).2.1]
        exact stream
  · obtain ⟨text, refused⟩ := writeCommand_refused passes p
    cases refused.symm.trans writes
    rcases ends with ⟨-, rfl, rfl⟩ | ⟨wrong, -⟩
    · exact ⟨⟨valid, fun _ => rfl, fun off _ => off⟩, pending, Or.inl ⟨rfl, rfl⟩⟩
    · cases wrong

/-- The first loop of `exec_pipeline`, by induction over the commands: those written make a front part
of them, and if it succeeds that is all of them, and the replies are on their way. -/
theorem writeLoop_history (commands : List RedisCommand) (valid : p.Valid)
    (pending : p.tcpClient.fd ≠ -1 → p.tcpClient.os.peer.pending = [])
    (small : ∀ c ∈ commands, (commandText c).length < 2 ^ 31) {ok : Bool}
    {commands' : List RedisCommand}
    (returns : pipelineLoop writeCommand commands p = .ok (ok, commands', p')) :
    Rounds commands p p' ∧ (p'.tcpClient.fd ≠ -1 → p'.tcpClient.os.peer.pending = []) ∧
      ∃ sent entries, sent <+: commands ∧ entries.map Prod.fst = sent.map requestOf ∧
        server.History p.served entries p'.served ∧
        p'.served = server.after p.served (sent.map requestOf) ∧
        (sent ≠ [] → p.tcpClient.fd ≠ -1) ∧ (ok = true → sent = commands ∧
          commands' = commands ∧ p'.stream = p.stream ++ encodeAll (entries.map Prod.snd)) := by
  induction commands generalizing p ok commands' with
  | nil =>
    cases returns
    exact ⟨⟨valid, fun _ => rfl, fun off _ => off⟩, pending, [], [], List.prefix_rfl, rfl, .idle _,
      rfl, by simp, fun _ => ⟨rfl, rfl, (List.append_nil _).symm⟩⟩
  | cons c rest ih =>
    obtain ⟨⟨done, c₁, p₁⟩, writes, behind⟩ := bind_returns returns
    obtain ⟨rounds₁, pending₁, ⟨same, rfl⟩ | ⟨alive, peer, more⟩⟩ :=
      writeRound_history valid pending (small c List.mem_cons_self) writes
    · cases behind
      exact ⟨rounds₁.stop rest, pending₁, [], [], List.nil_prefix, rfl, same ▸ .idle _, same,
        by simp, by simp⟩
    · have state : p₁.served = (server.handle p.served (requestOf c)).2 := by rw [served, peer]
      have executes : server.History p.served
          [(requestOf c, (server.handle p.served (requestOf c)).1)] p₁.served :=
        state ▸ .single p.served (requestOf c)
      cases done with
      | false =>
        cases behind
        exact ⟨rounds₁.stop rest, pending₁, [c], _, ⟨rest, rfl⟩, rfl, executes, state,
          fun _ => alive, by simp⟩
      | true =>
        obtain ⟨rfl, stream⟩ := more rfl
        obtain ⟨⟨done, rest', p₂⟩, loops, same⟩ := bind_returns behind
        cases same
        obtain ⟨rounds₂, pending₂, sent, entries, front, names, history, served', -, all⟩ :=
          ih rounds₁.valid pending₁ (fun c member => small c (List.mem_cons_of_mem _ member)) loops
        refine ⟨rounds₁.cons rounds₂, pending₂, c₁ :: sent,
          (requestOf c₁, (server.handle p.served (requestOf c₁)).1) :: entries,
          (List.prefix_cons_inj c₁).mpr front, congrArg (requestOf c₁ :: ·) names,
          executes.append history, ?_, fun _ => alive, fun yes => ?_⟩
        · rw [served', state]
          rfl
        obtain ⟨rfl, rfl, stream'⟩ := all yes
        refine ⟨rfl, rfl, ?_⟩
        rw [stream', stream, List.append_assoc]
        rfl

/-- One round of reading: it executes nothing, and if it succeeds the reply is read and the output is
that of the reply. -/
theorem readRound_history (valid : p.Valid) {c c' : RedisCommand} {r : Reply}
    (wellFormed : r.WellFormed) {rest : Bytes} (shape : p.stream = encode r ++ rest) {ok : Bool}
    (returns : pipelineRound readReply p c = .ok (ok, c', p')) :
    Rounds [c] p p' ∧ p'.tcpClient.os.peer = p.tcpClient.os.peer ∧ (ok = true → p'.stream = rest ∧
      ∃ mode, Accepts (typeRead true mode c.command) r ∧
        c' = { c with out := denoteAs (typeRead true mode c.command) r }) := by
  obtain ⟨done, p₁, reads, ends⟩ := pipelineRound_returns returns
  obtain ⟨result, turns, same⟩ := readReply_turns valid c wellFormed shape
  rw [reads] at same
  cases turns with
  | aborts => cases same
  | ends shut =>
    cases same
    rcases ends with ⟨-, rfl, rfl⟩ | ⟨wrong, -⟩
    · refine ⟨.closed [c] shut.reads.valid shut.fd shut.transactionMode, ?_, by simp⟩
      rw [shut.reads.client.frame]
    · cases wrong
  | @accepts p₂ goes mode left accepts =>
    cases same
    rcases ends with ⟨wrong, -⟩ | ⟨-, checks⟩
    · cases wrong
    · obtain ⟨valid', peer, closed, keeps⟩ := stillOpen_keeps goes.reads.valid checks
      have rounds : Rounds [c] p p' := by
        cases ok with
        | false => exact .closed [c] valid' (closed rfl).1 (closed rfl).2
        | true =>
          obtain ⟨-, -, fd, kept⟩ := keeps rfl
          refine ⟨valid', fun _ => fd.trans goes.fd, fun off plain => kept.trans ?_⟩
          rw [mode, off]
          exact Redis2.modeAfter_plain (plain c (List.mem_singleton_self c)) r
      refine ⟨rounds, peer.trans ?_, fun yes => ?_⟩
      · rw [goes.reads.client.frame]
      · obtain ⟨-, stream, -, -⟩ := keeps yes
        exact ⟨stream.trans left, p.transactionMode, accepts, rfl⟩
  | refuses goes same' =>
    cases same
    rcases ends with ⟨-, rfl, rfl⟩ | ⟨wrong, -⟩
    · refine ⟨⟨goes.reads.valid, fun _ => goes.fd, fun off _ => same'.trans off⟩, ?_, by simp⟩
      rw [goes.reads.client.frame]
    · cases wrong

/-- The second loop of `exec_pipeline`, by induction over the commands, with the replies to all of
them on the connection. -/
theorem readLoop_history (commands : List RedisCommand) (valid : p.Valid) {replies : List Reply}
    (each : replies.length = commands.length) (wellFormed : ∀ r ∈ replies, r.WellFormed)
    (shape : p.stream = encodeAll replies) {ok : Bool} {answered : List RedisCommand}
    (returns : pipelineLoop readReply commands p = .ok (ok, answered, p')) :
    Rounds commands p p' ∧ p'.tcpClient.os.peer = p.tcpClient.os.peer ∧
      (ok = true → p'.stream = [] ∧ Replied commands replies answered) := by
  induction commands generalizing p replies ok answered with
  | nil =>
    cases returns
    cases List.length_eq_zero_iff.mp each
    exact ⟨⟨valid, fun _ => rfl, fun off _ => off⟩, rfl, fun _ => ⟨shape, .nil⟩⟩
  | cons c rest ih =>
    cases replies with
    | nil => cases each
    | cons r replies =>
      obtain ⟨⟨done, c₁, p₁⟩, reads, behind⟩ := bind_returns returns
      obtain ⟨rounds₁, peer, more⟩ :=
        readRound_history valid (wellFormed r List.mem_cons_self) shape reads
      cases done with
      | false =>
        cases behind
        exact ⟨rounds₁.stop rest, peer, by simp⟩
      | true =>
        obtain ⟨left, mode, accepts, rfl⟩ := more rfl
        obtain ⟨⟨done, rest', p₂⟩, loops, same⟩ := bind_returns behind
        cases same
        obtain ⟨rounds₂, peer', all⟩ := ih rounds₁.valid (Nat.succ.inj each)
          (fun r' member => wellFormed r' (List.mem_cons_of_mem r member)) left loops
        refine ⟨rounds₁.cons rounds₂, peer'.trans peer, fun yes => ?_⟩
        obtain ⟨nothing, others⟩ := all yes
        exact ⟨nothing, .cons mode accepts others⟩

/-- `exec_pipeline`. -/
theorem Synced.execPipeline
    (replies : ∀ state args, (server.handle state args).1.WellFormed) (synced : p.Synced)
    {commands answered : List RedisCommand} (small : ∀ c ∈ commands, (commandText c).length < 2 ^ 31)
    {ok : Bool} (returns : p.execPipeline commands = .ok (ok, answered, p')) :
    Rounds commands p p' ∧ (p'.tcpClient.fd ≠ -1 → p'.tcpClient.os.peer.pending = []) ∧
      (ok = true → p'.stream = []) ∧ ∃ entries, server.History p.served entries p'.served ∧
        p'.served = server.after p.served (entries.map Prod.fst) ∧
        (entries ≠ [] → p.tcpClient.fd ≠ -1) ∧ Pipelined commands ok answered entries := by
  obtain ⟨⟨done, written, p₁⟩, writes, behind⟩ := bind_returns returns
  obtain ⟨rounds₁, pending₁, sent, entries, front, names, history, served', alive, all⟩ :=
    writeLoop_history commands synced.valid synced.pending small writes
  have some : entries ≠ [] → p.tcpClient.fd ≠ -1 := by
    refine fun some => alive fun none => some ?_
    rw [none] at names
    exact List.map_eq_nil_iff.mp names
  cases done with
  | false =>
    cases behind
    exact ⟨rounds₁, pending₁, by simp, entries, history, names ▸ served', some,
      ⟨sent, front, names⟩, by simp⟩
  | true =>
    obtain ⟨rfl, rfl, stream⟩ := all rfl
    rw [synced.stream_nil, List.nil_append] at stream
    have each : (entries.map Prod.snd).length = written.length := by
      have lengths := congrArg List.length names
      simpa using lengths
    have wellFormed : ∀ r ∈ entries.map Prod.snd, r.WellFormed := by
      intro r member
      obtain ⟨entry, here, rfl⟩ := List.mem_map.mp member
      exact history.answers replies entry here
    obtain ⟨rounds₂, peer, answers⟩ :=
      readLoop_history written rounds₁.valid each wellFormed stream behind
    have state : p'.served = p₁.served := by rw [served, peer, served]
    have rounds : Rounds written p p' := ⟨rounds₂.valid, fun alive => ?_,
      fun off plain => rounds₂.mode (rounds₁.mode off plain) plain⟩
    · refine ⟨rounds, fun alive => ?_, fun yes => (answers yes).1, entries, state ▸ history,
        names ▸ state.trans served', some, ⟨written, front, names⟩,
        fun yes => ⟨names, (answers yes).2⟩⟩
      rw [peer]
      exact pending₁ (rounds₂.fd alive ▸ alive)
    · have same := rounds₂.fd alive
      exact same.trans (rounds₁.fd (same ▸ alive))

end RedisProtocol

namespace Redis2

variable {r r' : Redis2 (Endpoint server)}

/-- A call as an observer sees it, with its success and its outputs. -/
inductive Piped where
  /-- A call that sends one request, or none. -/
  | single (sent : Sent)
  /-- `exec_pipeline`. -/
  | pipeline (commands : List RedisCommand) (ok : Bool) (answered : List RedisCommand)

/-- A call that fits and returns. -/
def Pipes {π : Type} [Peer π] (r : Redis2 π) (call : Piped) (r' : Redis2 π) : Prop :=
  match call with
  | .single sent => Sends r sent r'
  | .pipeline commands ok answered => (∀ c ∈ commands, (commandText c).length < 2 ^ 31) ∧
      r.execPipeline commands = .ok (ok, answered, r')

/-- The piece of a history for a call. -/
def Piped.Accounts (entries : List Entry) : Piped → Prop
  | .single sent => sent.1.Accounts sent.2.1 sent.2.2 entries
  | .pipeline commands ok answered => ∃ selects own, entries = selects ++ own ∧ Selected selects ∧
      Pipelined commands ok answered own

/-- A pipeline that fails. -/
def Piped.Fails : Piped → Prop
  | .pipeline _ ok _ => ok = false
  | .single _ => False

/-- A call that closes the connection. -/
def Piped.Closes : Piped → Prop
  | .single sent => sent.1 = .close
  | .pipeline _ _ _ => False

/-- A run closes the connection behind every pipeline that fails. -/
def Tidy (calls : List Piped) : Prop := calls.IsChain fun call next => call.Fails → next.Closes

/-- A call leaves the connection as a single call does, but for a pipeline that fails. -/
theorem pipes_accounts (whole : AnswersWhole server) {call : Piped} (synced : r.proto.Synced)
    (pipes : Pipes r call r') :
    r'.proto.Valid ∧ (¬ call.Fails → r'.proto.Synced) ∧
      ∃ entries, server.History r.proto.served entries r'.proto.served ∧ call.Accounts entries := by
  cases call with
  | single sent =>
    obtain ⟨synced', accounts⟩ := send_accounts whole synced pipes.1 pipes.2
    exact ⟨synced'.valid, fun _ => synced', accounts⟩
  | pipeline commands ok answered =>
    obtain ⟨small, returns⟩ := pipes
    obtain ⟨⟨connected, r₁⟩, assures, sends⟩ := bind_returns returns
    obtain ⟨synced₁, before, first, selected⟩ := assureConnect_accounts whole synced assures
    cases connected with
    | false =>
      cases sends
      exact ⟨synced₁.valid, fun _ => synced₁, before, first, before, [], (List.append_nil _).symm,
        selected, ⟨[], List.nil_prefix, rfl⟩, by simp⟩
    | true =>
      obtain ⟨⟨done, written, p⟩, executes, same⟩ := bind_returns sends
      cases same
      obtain ⟨rounds, pending, keeps, own, second, -, -, pipelined⟩ :=
        synced₁.execPipeline (fun state args => (whole state args).1) small executes
      refine ⟨rounds.valid, fun succeeds => ⟨rounds.valid, fun _ => keeps ?_, pending⟩,
        before ++ own, first.append second, before, own, rfl, selected, pipelined⟩
      cases ok with
      | true => rfl
      | false => exact absurd rfl succeeds

/-- Closing the connection executes nothing, whatever is on it. -/
theorem closes_accounts {call : Piped} (valid : r.proto.Valid) (closes : call.Closes)
    (pipes : Pipes r call r') :
    r'.proto.Synced ∧ ∃ entries, server.History r.proto.served entries r'.proto.served ∧
      call.Accounts entries := by
  cases call with
  | pipeline commands ok answered => cases closes
  | single sent =>
    obtain ⟨sending, ok, out⟩ := sent
    cases closes
    obtain ⟨-, returns⟩ := pipes
    cases returns
    obtain ⟨shut, fd⟩ := valid.close_receives
    have same : r.close.proto.served = r.proto.served := by
      change r.proto.tcpClient.close.os.peer.state = _
      rw [shut.frame]
      rfl
    exact ⟨RedisProtocol.Valid.synced shut.valid fd, [], same ▸ .idle _, rfl⟩

/-- Along every tidy run the history grows by one piece for each call, in the order of the calls. -/
theorem pipes_run_accounts (whole : AnswersWhole server) {calls : List Piped}
    (run : Simulation.Run Pipes r calls r') (tidy : Tidy calls) (valid : r.proto.Valid)
    (start : r.proto.Synced ∨ ∀ call ∈ calls.head?, call.Closes) :
    ∃ pieces, List.Forall₂ (fun (call : Piped) entries => call.Accounts entries) calls pieces ∧
      server.History r.proto.served pieces.flatten r'.proto.served := by
  induction run with
  | done r => exact ⟨[], .nil, .idle _⟩
  | @step first next last call calls head tail ih =>
    obtain ⟨follows, tidy'⟩ := List.isChain_cons.mp tidy
    have here : next.proto.Valid ∧ (¬ call.Fails → next.proto.Synced) ∧ ∃ entries,
        server.History first.proto.served entries next.proto.served ∧ call.Accounts entries := by
      rcases start with synced | closes
      · exact pipes_accounts whole synced head
      · obtain ⟨synced', accounts⟩ := closes_accounts valid (closes call rfl) head
        exact ⟨synced'.valid, fun _ => synced', accounts⟩
    obtain ⟨valid', keeps, entries, history, accounts⟩ := here
    have start' : next.proto.Synced ∨ ∀ later ∈ calls.head?, later.Closes := by
      by_cases fails : call.Fails
      · exact Or.inr fun later member => follows later member fails
      · exact Or.inl (keeps fails)
    obtain ⟨pieces, all, behind⟩ := ih tidy' valid' start'
    exact ⟨entries :: pieces, .cons accounts all, history.append behind⟩

/-- In every run of a new client with pipelines, closed behind each that fails, the history of the
server falls into one piece for each call, in the order of the calls: a pipeline is executed from its
front, in order and each request once, and if it succeeds it is executed to its end and every output
is that of the reply to its request. -/
theorem pipelines_executed_in_order (whole : AnswersWhole server) (host port : Bytes)
    (dbIndex : Int32) (timeout : Int) {os : Os (Endpoint server)} (silent : os.incoming = [])
    {calls : List Piped} (run : Simulation.Run Pipes (new host port dbIndex timeout os) calls r')
    (tidy : Tidy calls) :
    ∃ pieces, List.Forall₂ (fun (call : Piped) entries => call.Accounts entries) calls pieces ∧
      server.History os.peer.state pieces.flatten r'.proto.served := by
  have synced := new_synced host port dbIndex timeout silent
  exact pipes_run_accounts whole run tidy synced.valid (Or.inl synced)

/-- A client of a server with a list that gives up waiting for the fourth reply. -/
def impatientPipeliner : Redis2 (Endpoint listing) :=
  new (ascii "localhost") (ascii "6379") 0 1000 (.start ⟨[], []⟩ [.chunk 100, .chunk 7, .timeout])

/-- A value is pushed and popped in a pipeline, two more are popped in another, which fails, and the
connection is closed. -/
theorem pipelines_executed_in_order_late :
    ∃ (answered answered' : List RedisCommand) (last : Redis2 (Endpoint listing)),
    ∃ pieces, List.Forall₂ (fun (call : Piped) entries => call.Accounts entries)
        [.pipeline [rpushCommand (ascii "k") [ascii "a", ascii "b"], lpopCommand (ascii "k")] true
          answered,
        .pipeline [lpopCommand (ascii "k"), lpopCommand (ascii "k")] false answered',
        .single (.close, true, .none)] pieces ∧
      listing.History [] pieces.flatten last.proto.served := by
  have shows : (do
      let (ok, _, r) ← impatientPipeliner.execPipeline
        [rpushCommand (ascii "k") [ascii "a", ascii "b"], lpopCommand (ascii "k")]
      let (ok', _, _) ← r.execPipeline [lpopCommand (ascii "k"), lpopCommand (ascii "k")]
      return (ok, ok') : Except Abort _).toOption.map id = some (true, false) := by decide +kernel
  obtain ⟨_, returns, rfl⟩ := returned_of_view shows
  obtain ⟨⟨ok, answered, r₁⟩, first, returns⟩ := bind_returns returns
  obtain ⟨⟨ok', answered', r₂⟩, second, same⟩ := bind_returns returns
  cases same
  have small : ∀ c ∈ [rpushCommand (ascii "k") [ascii "a", ascii "b"], lpopCommand (ascii "k")],
      (commandText c).length < 2 ^ 31 := by
    intro c member
    rcases List.mem_pair.mp member with rfl | rfl <;> decide +kernel
  have head : Pipes impatientPipeliner (.pipeline [rpushCommand (ascii "k") [ascii "a", ascii "b"],
      lpopCommand (ascii "k")] true answered) r₁ := ⟨small, first⟩
  have next : Pipes r₁ (.pipeline [lpopCommand (ascii "k"), lpopCommand (ascii "k")] false answered')
      r₂ := by
    refine ⟨fun c member => small c ?_, second⟩
    have same : c = lpopCommand (ascii "k") := by simpa using member
    simp [same]
  have closes : Pipes r₂ (.single (.close, true, .none)) r₂.close := ⟨trivial, rfl⟩
  exact ⟨answered, answered', r₂.close, pipelines_executed_in_order listing_whole _ _ 0 _ rfl
    (.step head (.step next (.step closes (.done _)))) (by simp [Tidy, Piped.Fails, Piped.Closes])⟩

end Redis2

end LibRedis
