import LibRedis.RespServer

/-!
# Pipelines

`exec_pipeline` writes all its commands and then reads all the replies. The replies to the commands
written so far are on the connection in order, so what is left there when it returns can be told
from the commands and the replies. Something is left exactly when a command other than the first is
refused for its argument count, or a command other than the last is answered by an error.
-/

namespace LibRedis

open Resp (Reply encode encodeAll)

/-- Whether an error answers one of the commands but the last, and the replies before it are
accepted. The flag is the transaction mode. -/
def ErrorBeforeLast : Bool → List RedisCommand → List Reply → Prop
  | mode, c :: commands, r :: replies =>
    ((∃ text, r = .error text) ∧ commands ≠ []) ∨
      (Accepts (RedisProtocol.typeRead true mode c.command) r ∧
        ErrorBeforeLast (RedisProtocol.modeAfter true mode c.command r) commands replies)
  | _, _, _ => False

/-- The replies of a server to some requests. -/
def Server.answers {σ : Type} (server : Server σ) : σ → List (List Bytes) → List Reply
  | _, [] => []
  | state, args :: rest =>
    let (reply, state) := server.handle state args
    reply :: server.answers state rest

/-- The state of a server behind some requests. -/
def Server.after {σ : Type} (server : Server σ) : σ → List (List Bytes) → σ
  | state, [] => state
  | state, args :: rest => server.after (server.handle state args).2 rest

/-- A reply for each request. -/
theorem Server.length_answers {σ : Type} (server : Server σ) (state : σ)
    (requests : List (List Bytes)) : (server.answers state requests).length = requests.length := by
  induction requests generalizing state with
  | nil => rfl
  | cons args rest ih => rw [answers, List.length_cons, ih, List.length_cons]

namespace RedisProtocol

section
variable {π : Type}

/-- Nothing goes wrong on the connection: every call does what it is there for. -/
structure Calm (p : RedisProtocol π) : Prop where
  /-- There is a connection, and every `send` accepts something. -/
  send : p.CanSend
  /-- Every `recv` hands over bytes. -/
  delivers : p.Delivers
  /-- `errno` is clean. -/
  clean : p.CleanErrno
  /-- Every peek finds the connection open. -/
  probes : ∀ peek ∈ p.tcpClient.os.probes, peek.isOpen = true

/-- What was calm stays calm. -/
theorem Proceeds.calm {p p' : RedisProtocol π} (proceeds : p.Proceeds p') (calm : p.Calm) :
    p'.Calm where
  send := ⟨by rw [proceeds.fd]; exact calm.send.1, calm.send.2.suffix proceeds.sends⟩
  delivers := calm.delivers.suffix proceeds.recvs
  clean := proceeds.clean calm.clean
  probes peek member := calm.probes peek (proceeds.probes.subset member)

/-- The check between two rounds finds the connection open, or closes it. -/
theorem stillOpen_cases {p : RedisProtocol π} (valid : p.Valid) :
    (∃ p', p.stillOpen = (true, p') ∧ p.tcpClient.fd ≠ -1 ∧ p.Looks p' ∧ p.Proceeds p') ∨
    (∃ p', p.stillOpen = (false, p') ∧ p'.tcpClient.fd = -1 ∧ ¬ p.Calm) := by
  obtain ⟨found, p₁, shows, looks, alive, calm⟩ := isOpen_cases valid
  cases found with
  | true =>
    obtain ⟨proceeds, alive⟩ := alive rfl
    refine Or.inl ⟨p₁, ?_, alive, looks, proceeds⟩
    rw [stillOpen, shows]
    rfl
  | false =>
    refine Or.inr ⟨{ p₁.close with
      error := Decimal.ascii "connection has been broken during this pipeline operation" }, ?_,
      looks.valid.close_receives.2, fun healthy => ?_⟩
    · rw [stillOpen, shows]
      rfl
    · have alive := healthy.send.1
      exact absurd (calm (by omega) healthy.probes) (by decide)

/-- A round ends as its operation does when that fails, and else as the check behind it does. -/
theorem pipelineRound_failed {operation : RedisProtocol π → RedisCommand →
      Except Abort (Bool × RedisCommand × RedisProtocol π)} {p p' : RedisProtocol π}
    {c c' : RedisCommand} (fails : operation p c = .ok (false, c', p')) :
    pipelineRound operation p c = .ok (false, c', p') := by
  rw [pipelineRound, fails]
  rfl

/-- Behind an operation that succeeds the connection is checked. -/
theorem pipelineRound_checks {operation : RedisProtocol π → RedisCommand →
      Except Abort (Bool × RedisCommand × RedisProtocol π)} {p p' : RedisProtocol π}
    {c c' : RedisCommand} (succeeds : operation p c = .ok (true, c', p')) :
    pipelineRound operation p c = .ok (p'.stillOpen.1, c', p'.stillOpen.2) := by
  rw [pipelineRound, succeeds]
  rfl

end

variable {σ : Type} {server : Server σ}

/-- What one round of writing does: the reply to the command is then on its way behind those
before. -/
theorem writeRound_cases {p : RedisProtocol (Endpoint server)} (valid : p.Valid)
    (pending : p.tcpClient.fd ≠ -1 → p.tcpClient.os.peer.pending = []) {c : RedisCommand}
    (passes : Passes c) (small : (commandText c).length < 2 ^ 31) {r : Reply} {next : σ}
    (handles : server.handle p.tcpClient.os.peer.state (requestOf c) = (r, next)) :
    (pipelineRound writeCommand p c = .error .diverges ∧ ¬ p.Calm) ∨
    (∃ c' p', pipelineRound writeCommand p c = .ok (false, c', p') ∧ p'.tcpClient.fd = -1 ∧
      ¬ p.Calm) ∨
    (∃ p', pipelineRound writeCommand p c = .ok (true, c, p') ∧ p.Proceeds p' ∧
      0 ≤ p.tcpClient.fd ∧ p'.stream = p.stream ++ encode r ∧
      p'.tcpClient.os.peer = ⟨[], next⟩ ∧ p'.transactionMode = p.transactionMode) := by
  have text := commandText_small small
  have sends : p.writeCommand c = p.sendRequest c (Resp.request (requestOf c)) := by
    rw [passes.writeCommand, text]
  have some : Resp.request (requestOf c) ≠ [] := by
    rw [Resp.request]
    simp
  rcases sendRequest_cases valid c some (text ▸ small) with
    ⟨hangs, reason⟩ | ⟨ok, c', p₁, same, lost, -, reason⟩ | ⟨client, same, writes, -⟩
  · refine Or.inl ⟨?_, fun calm => reason calm.send⟩
    rw [pipelineRound, sends, hangs]
    rfl
  · refine Or.inr (Or.inl ?_)
    have uncalm : ¬ p.Calm := fun calm => reason calm.send
    rw [← sends] at same
    cases ok with
    | false => exact ⟨c', p₁, pipelineRound_failed same, lost.fd, uncalm⟩
    | true =>
      rcases stillOpen_cases lost.valid with ⟨p₂, -, alive, -, -⟩ | ⟨p₂, shut, closed, -⟩
      · exact absurd lost.fd alive
      · rw [pipelineRound_checks same, shut]
        exact ⟨c', p₂, rfl, closed, uncalm⟩
  · have alive := writes.alive
    let p₁ : RedisProtocol (Endpoint server) := { p with tcpClient := client }
    obtain ⟨stream, peer⟩ := writes.answered (pending (by omega)) handles
    have proceeds : p.Proceeds p₁ := by
      refine ⟨writes.valid, ?_, writes.suffix, ?_, ?_, fun clean => ?_⟩
      · change client.fd = _
        rw [writes.frame]
      · change client.os.recvs <:+ _
        rw [writes.frame]
      · change client.os.probes <:+ _
        rw [writes.frame]
      · rcases writes.clean with same | interrupted
        · exact ⟨same.trans_ne clean.1, same.trans_ne clean.2⟩
        · exact ⟨interrupted.trans_ne (by decide), interrupted.trans_ne (by decide)⟩
    rw [← sends] at same
    rcases stillOpen_cases proceeds.valid with
      ⟨p₂, found, -, looks, further⟩ | ⟨p₂, shut, closed, uncalm⟩
    · rw [pipelineRound_checks same, found]
      exact Or.inr (Or.inr ⟨p₂, rfl, proceeds.trans further, alive,
        looks.stream.trans stream, looks.peer.trans peer, looks.mode⟩)
    · rw [pipelineRound_checks same, shut]
      exact Or.inr (Or.inl ⟨c, p₂, rfl, closed, fun calm => uncalm (proceeds.calm calm)⟩)

/-- How writing the commands of a pipeline can turn out. -/
inductive WritesAll (p : RedisProtocol (Endpoint server)) (commands : List RedisCommand) :
    Except Abort (Bool × List RedisCommand × RedisProtocol (Endpoint server)) → Prop
  /-- It waits for ever. -/
  | hangs (reason : ¬ p.Calm) : WritesAll p commands (.error .diverges)
  /-- The connection is closed. -/
  | closed {commands' : List RedisCommand} {p' : RedisProtocol (Endpoint server)}
      (fd : p'.tcpClient.fd = -1) (reason : ¬ p.Calm) :
      WritesAll p commands (.ok (false, commands', p'))
  /-- A command is refused; the replies to those before it are on their way. -/
  | refused {commands' before after : List RedisCommand} {c : RedisCommand}
      {p' : RedisProtocol (Endpoint server)} (split : commands = before ++ c :: after)
      (passes : ∀ b ∈ before, Passes b) (refused : ¬ Passes c)
      (fd : p'.tcpClient.fd = p.tcpClient.fd)
      (stream : p'.stream = p.stream ++
        encodeAll (server.answers p.tcpClient.os.peer.state (before.map requestOf))) :
      WritesAll p commands (.ok (false, commands', p'))
  /-- All commands are written, and the replies to them are on their way. -/
  | done {p' : RedisProtocol (Endpoint server)} (passes : ∀ c ∈ commands, Passes c)
      (proceeds : p.Proceeds p') (mode : p'.transactionMode = p.transactionMode)
      (stream : p'.stream = p.stream ++
        encodeAll (server.answers p.tcpClient.os.peer.state (commands.map requestOf))) :
      WritesAll p commands (.ok (true, commands, p'))

/-- The first loop of `exec_pipeline`, by induction over the commands. -/
theorem writeLoop_writesAll (commands : List RedisCommand) {p : RedisProtocol (Endpoint server)}
    (valid : p.Valid) (pending : p.tcpClient.fd ≠ -1 → p.tcpClient.os.peer.pending = [])
    (small : ∀ c ∈ commands, (commandText c).length < 2 ^ 31) :
    WritesAll p commands (pipelineLoop writeCommand commands p) := by
  induction commands generalizing p with
  | nil =>
    refine .done (by simp) ⟨valid, rfl, List.suffix_rfl, List.suffix_rfl, List.suffix_rfl, id⟩ rfl ?_
    exact (List.append_nil _).symm
  | cons c rest ih =>
    rw [pipelineLoop]
    by_cases passes : Passes c
    · rcases handles : server.handle p.tcpClient.os.peer.state (requestOf c) with ⟨r, next⟩
      have answers (more : List RedisCommand) :
          encodeAll (server.answers p.tcpClient.os.peer.state ((c :: more).map requestOf)) =
            encode r ++ encodeAll (server.answers next (more.map requestOf)) := by
        rw [List.map_cons, Server.answers, handles]
        rfl
      rcases writeRound_cases valid pending passes (small c List.mem_cons_self) handles with
        ⟨hangs, reason⟩ | ⟨c', p₁, fails, closed, reason⟩ |
        ⟨p₁, writes, proceeds, alive, stream, peer, mode⟩
      · rw [hangs]
        exact .hangs reason
      · rw [fails]
        exact .closed closed reason
      · rw [writes]
        change WritesAll p (c :: rest) (pipelineLoop writeCommand rest p₁ >>= _)
        have later := ih proceeds.valid (fun _ => by rw [peer])
          fun c' member => small c' (List.mem_cons_of_mem c member)
        generalize pipelineLoop writeCommand rest p₁ = result at later
        cases later with
        | hangs reason => exact .hangs fun calm => reason (proceeds.calm calm)
        | closed fd reason => exact .closed fd fun calm => reason (proceeds.calm calm)
        | @refused commands' before after c' p₂ split passes' refused fd stream' =>
          have split' : c :: rest = (c :: before) ++ c' :: after := by rw [split, List.cons_append]
          refine .refused split' ?_ refused
            (fd.trans proceeds.fd) ?_
          · intro b member
            rcases List.mem_cons.mp member with rfl | behind
            · exact passes
            · exact passes' b behind
          · rw [stream', stream, peer, answers, List.append_assoc]
        | @done p₂ passes' further mode' stream' =>
          refine .done ?_ (proceeds.trans further) (mode'.trans mode) ?_
          · intro c' member
            rcases List.mem_cons.mp member with rfl | behind
            · exact passes
            · exact passes' c' behind
          · rw [stream', stream, peer, answers, List.append_assoc]
    · obtain ⟨text, refused⟩ := writeCommand_refused passes p
      rw [pipelineRound_failed refused]
      exact .refused (show c :: rest = [] ++ c :: rest from rfl) (by simp) passes rfl
        (List.append_nil _).symm

/-- When a call returns, the connection is closed or no reply is on its way or unread. -/
def Settled {α π : Type} (result : Except Abort (Bool × α × RedisProtocol π)) : Prop :=
  ∀ ok a p', result = .ok (ok, a, p') → p'.tcpClient.fd = -1 ∨ p'.stream = []

/-- What one round of reading does with the reply to its command. -/
theorem readRound_cases {π : Type} {p : RedisProtocol π} (valid : p.Valid) (c : RedisCommand)
    {r : Reply} (wellFormed : r.WellFormed) (flat : NoNestedError r) {rest : Bytes}
    (shape : p.stream = encode r ++ rest) :
    (∃ abort, pipelineRound readReply p c = .error abort ∧
      ¬ (p.Calm ∧ r.Bounded readerLimits)) ∨
    (∃ c' p', pipelineRound readReply p c = .ok (false, c', p') ∧ p'.tcpClient.fd = -1 ∧
      (p.Calm ∧ r.Bounded readerLimits → ¬ Accepts (p.replyType c) r ∧ ∀ text, r ≠ .error text)) ∨
    (∃ c' p', pipelineRound readReply p c = .ok (false, c', p') ∧
      p'.tcpClient.fd = p.tcpClient.fd ∧ p'.stream = rest ∧ ∃ text, r = .error text) ∨
    (∃ c' p', pipelineRound readReply p c = .ok (true, c', p') ∧ p.Proceeds p' ∧
      p'.stream = rest ∧ p'.transactionMode = modeAfter true p.transactionMode c.command r ∧
      Accepts (p.replyType c) r) := by
  have smooth : p.Calm ∧ r.Bounded readerLimits → p.Smooth r :=
    fun ⟨calm, bounded⟩ => ⟨calm.delivers, calm.clean, bounded⟩
  obtain ⟨result, turns, same⟩ := readReply_turns valid c wellFormed shape
  cases turns with
  | @aborts abort reason =>
    refine Or.inl ⟨abort, ?_, fun calm => reason (smooth calm)⟩
    rw [pipelineRound, same]
    rfl
  | @ends out p₁ ends reason =>
    refine Or.inr (Or.inl ⟨_, p₁, pipelineRound_failed same, ends.fd, fun calm => ?_⟩)
    obtain ⟨notAccepted, notRefused⟩ := reason (smooth calm)
    exact ⟨notAccepted, fun text error => notRefused [] (Or.inl ⟨text, error, rfl⟩)⟩
  | @accepts p₁ goes mode left accepts =>
    have proceeds := goes.proceeds
    rcases stillOpen_cases proceeds.valid with
      ⟨p₂, found, -, looks, further⟩ | ⟨p₂, shut, closed, uncalm⟩
    · rw [pipelineRound_checks same, found]
      exact Or.inr (Or.inr (Or.inr ⟨_, p₂, rfl, proceeds.trans further,
        looks.stream.trans left, looks.mode.trans mode, accepts⟩))
    · rw [pipelineRound_checks same, shut]
      exact Or.inr (Or.inl ⟨_, p₂, rfl, closed, fun calm => absurd (proceeds.calm calm.1) uncalm⟩)
  | @refuses out p₁ left goes keeps unread clean refuses =>
    obtain ⟨error, rfl⟩ := flat.refuses refuses
    exact Or.inr (Or.inr (Or.inl ⟨_, p₁, pipelineRound_failed same, goes.fd, unread, error⟩))

/-- The second loop of `exec_pipeline`, by induction over the commands: with the replies to all of
them on the connection, it leaves some there exactly when an error comes before the last. -/
theorem readLoop_settled {π : Type} (commands : List RedisCommand) {p : RedisProtocol π}
    (valid : p.Valid) {replies : List Reply} (each : replies.length = commands.length)
    (wellFormed : ∀ r ∈ replies, r.WellFormed) (flat : ∀ r ∈ replies, NoNestedError r)
    (shape : p.stream = encodeAll replies) :
    (¬ ErrorBeforeLast p.transactionMode commands replies →
      Settled (pipelineLoop readReply commands p)) ∧
    (p.Calm → (∀ r ∈ replies, r.Bounded readerLimits) →
      ErrorBeforeLast p.transactionMode commands replies →
      ¬ Settled (pipelineLoop readReply commands p)) := by
  induction commands generalizing p replies with
  | nil =>
    obtain rfl := List.length_eq_zero_iff.mp each
    refine ⟨fun _ ok commands' p' returns => ?_, fun _ _ wrong => wrong.elim⟩
    cases returns
    exact Or.inr shape
  | cons c rest ih =>
    cases replies with
    | nil => simp at each
    | cons r replies =>
      have each' : replies.length = rest.length := by simpa using each
      rcases readRound_cases valid c (wellFormed r List.mem_cons_self) (flat r List.mem_cons_self)
          shape with
        ⟨abort, aborts, reason⟩ | ⟨c', p₁, fails, closed, reason⟩ |
        ⟨c', p₁, fails, fd, left, text, rfl⟩ | ⟨c', p₁, reads, proceeds, left, mode, accepts⟩
      · refine ⟨fun _ ok commands' p' returns => ?_, fun calm bounded _ => ?_⟩
        · rw [pipelineLoop, aborts] at returns
          cases returns
        · exact absurd ⟨calm, bounded r List.mem_cons_self⟩ reason
      · refine ⟨fun _ ok commands' p' returns => ?_, fun calm bounded breaks => ?_⟩
        · rw [pipelineLoop, fails] at returns
          cases returns
          exact Or.inl closed
        · obtain ⟨notAccepted, notError⟩ := reason ⟨calm, bounded r List.mem_cons_self⟩
          rcases breaks with ⟨⟨text, error⟩, -⟩ | ⟨accepts, -⟩
          · exact absurd error (notError text)
          · exact absurd accepts notAccepted
      · have returned : pipelineLoop readReply (c :: rest) p = .ok (false, c' :: rest, p₁) := by
          rw [pipelineLoop, fails]
          rfl
        rw [returned]
        refine ⟨fun whole ok commands' p' returns => ?_, fun calm _ breaks settled => ?_⟩
        · cases returns
          have last : rest = [] := by
            by_contra more
            exact whole (Or.inl ⟨⟨text, rfl⟩, more⟩)
          subst last
          obtain rfl := List.length_eq_zero_iff.mp each'
          exact Or.inr left
        · rcases breaks with ⟨-, more⟩ | ⟨accepts, -⟩
          · rcases settled _ _ _ rfl with gone | nothing
            · have alive := calm.send.1
              omega
            · rw [left, Resp.encodeAll_eq_nil] at nothing
              subst nothing
              exact more (List.length_eq_zero_iff.mp each'.symm)
          · exact nomatch accepts.readable
      · have notError : ∀ text, r ≠ .error text := by
          rintro text rfl
          exact nomatch accepts.readable
        obtain ⟨settles, breaks⟩ := ih proceeds.valid each'
          (fun r' member => wellFormed r' (List.mem_cons_of_mem r member))
          (fun r' member => flat r' (List.mem_cons_of_mem r member)) left
        rw [mode] at settles breaks
        have onward : Settled (pipelineLoop readReply (c :: rest) p) ↔
            Settled (pipelineLoop readReply rest p₁) := by
          rw [pipelineLoop, reads]
          change Settled (pipelineLoop readReply rest p₁ >>= _) ↔ _
          cases pipelineLoop readReply rest p₁ with
          | error abort => simp [Settled, bind, Except.bind]
          | ok returned =>
            constructor
            · intro settled ok commands' p' returns
              cases returns
              exact settled _ _ _ rfl
            · intro settled ok commands' p' returns
              cases returns
              exact settled _ _ _ rfl
        rw [onward]
        refine ⟨fun whole => settles fun later => whole (Or.inr ⟨accepts, later⟩),
          fun calm bounded before => breaks (proceeds.calm calm)
            (fun r' member => bounded r' (List.mem_cons_of_mem r member)) ?_⟩
        rcases before with ⟨⟨text, error⟩, -⟩ | ⟨-, later⟩
        · exact absurd error (notError text)
        · exact later

/-- A pipeline that leaves no reply behind: every request fits into an `int`, and the first command
is refused, or none is and no command but the last is answered by an error. -/
def LeavesNothing (p : RedisProtocol (Endpoint server)) (commands : List RedisCommand) : Prop :=
  (∀ c ∈ commands, (commandText c).length < 2 ^ 31) ∧
  ((∃ c rest, commands = c :: rest ∧ ¬ Passes c) ∨
    ((∀ c ∈ commands, Passes c) ∧ ¬ ErrorBeforeLast p.transactionMode commands
      (server.answers p.tcpClient.os.peer.state (commands.map requestOf))))

/-- With requests that fit into an `int`, a pipeline that leaves no reply behind returns with nothing
under way or the connection closed, and on a connection where nothing goes wrong no other does. -/
theorem execPipeline_leaves {p : RedisProtocol (Endpoint server)} (synced : p.Synced)
    {commands : List RedisCommand} (small : ∀ c ∈ commands, (commandText c).length < 2 ^ 31)
    (replies : ∀ r ∈ server.answers p.tcpClient.os.peer.state (commands.map requestOf),
      r.WellFormed ∧ NoNestedError r) :
    (LeavesNothing p commands → Settled (p.execPipeline commands)) ∧
    (p.Calm → (∀ r ∈ server.answers p.tcpClient.os.peer.state (commands.map requestOf),
        r.Bounded readerLimits) →
      Settled (p.execPipeline commands) → LeavesNothing p commands) := by
  have writes := writeLoop_writesAll commands synced.valid synced.pending small
  rw [execPipeline]
  generalize pipelineLoop writeCommand commands p = result at writes
  cases writes with
  | hangs reason =>
    refine ⟨fun _ ok cs p' returns => ?_, fun calm => absurd calm reason⟩
    cases returns
  | closed fd reason =>
    refine ⟨fun _ ok cs p' returns => ?_, fun calm => absurd calm reason⟩
    cases returns
    exact Or.inl fd
  | @refused commands' before after c p₁ split passes refused fd stream =>
    rw [synced.stream_nil, List.nil_append] at stream
    constructor
    · rintro ⟨-, ⟨first, rest, shape, firstRefused⟩ | ⟨all, -⟩⟩ ok cs p' returns
      · cases returns
        cases before with
        | nil => exact Or.inr stream
        | cons b before =>
          obtain ⟨rfl, -⟩ := List.cons.inj (shape.symm.trans split)
          exact absurd (passes first List.mem_cons_self) firstRefused
      · exact absurd (all c (by simp [split])) refused
    · intro calm _ settled
      refine ⟨small, Or.inl ?_⟩
      rcases settled _ _ _ rfl with gone | nothing
      · have alive := calm.send.1
        omega
      · rw [stream, Resp.encodeAll_eq_nil, ← List.length_eq_zero_iff, Server.length_answers,
          List.length_map, List.length_eq_zero_iff] at nothing
        exact ⟨c, after, by rw [split, nothing, List.nil_append], refused⟩
  | @done p₁ passes proceeds mode stream =>
    rw [synced.stream_nil, List.nil_append] at stream
    obtain ⟨settles, breaks⟩ := readLoop_settled commands proceeds.valid
      (by rw [Server.length_answers, List.length_map]) (fun r member => (replies r member).1)
      (fun r member => (replies r member).2) stream
    rw [mode] at settles breaks
    constructor
    · rintro ⟨-, ⟨c, rest, rfl, refused⟩ | ⟨-, none⟩⟩
      · exact absurd (passes c List.mem_cons_self) refused
      · exact settles none
    · intro calm bounded settled
      exact ⟨small, Or.inr ⟨passes, fun before =>
        breaks (proceeds.calm calm) bounded before settled⟩⟩

/-- Where nothing is under way, `exec_pipeline` returns with nothing under way or the connection
closed if it leaves no reply behind in the sense above; and on a connection where nothing goes
wrong, with requests that fit into an `int`, it does so only then. -/
theorem execPipeline_settled_iff {p : RedisProtocol (Endpoint server)} (synced : p.Synced)
    (commands : List RedisCommand)
    (replies : ∀ r ∈ server.answers p.tcpClient.os.peer.state (commands.map requestOf),
      r.WellFormed ∧ NoNestedError r) :
    (LeavesNothing p commands → Settled (p.execPipeline commands)) ∧
    (p.Calm → (∀ c ∈ commands, (commandText c).length < 2 ^ 31) →
      (∀ r ∈ server.answers p.tcpClient.os.peer.state (commands.map requestOf),
        r.Bounded readerLimits) →
      (Settled (p.execPipeline commands) ↔ LeavesNothing p commands)) := by
  exact ⟨fun leaves => (execPipeline_leaves synced leaves.1 replies).1 leaves,
    fun calm small bounded => ⟨(execPipeline_leaves synced small replies).2 calm bounded,
      (execPipeline_leaves synced small replies).1⟩⟩

/-- A server that gives the replies of a list, one to each request. -/
def listServer : Server (List Reply) where
  fresh := id
  handle replies _ := (replies.headD .nilBulk, replies.tail)

/-- `GET k`. -/
def getCommand : RedisCommand := ⟨.get, [Decimal.ascii "k"], .none⟩

/-- Two GETs of which the first is answered by an error. -/
theorem execPipeline_not_settled : ∃ (state : List Reply) (commands : List RedisCommand),
    (connected listServer state).Synced ∧
    (∀ r ∈ listServer.answers state (commands.map requestOf), r.WellFormed ∧ NoNestedError r) ∧
    ¬ Settled ((connected listServer state).execPipeline commands) := by
  refine ⟨[.error (Decimal.ascii "ERR"), .bulk (Decimal.ascii "v")], [getCommand, getCommand],
    (connected_synced _ _).1, ?_, ?_⟩
  · intro r member
    rcases List.mem_pair.mp member with rfl | rfl
    · exact ⟨.error (by decide), Or.inl ⟨_, rfl⟩⟩
    · exact ⟨.bulk _, Or.inr (.bulk _)⟩
  · have left : ((connected listServer [.error (Decimal.ascii "ERR"),
        .bulk (Decimal.ascii "v")]).execPipeline [getCommand, getCommand]).toOption.map
          (fun (_, _, p) => (p.tcpClient.fd, p.stream)) =
        some (3, Decimal.ascii "$1\r\nv\r\n") := by
      decide +kernel
    obtain ⟨⟨ok, commands, p⟩, returned, seen⟩ := returned_of_view left
    obtain ⟨fd, stream⟩ := Prod.mk.inj seen
    intro settled
    rcases settled ok commands p returned with gone | nothing
    · exact absurd (fd.symm.trans gone) (by decide)
    · exact absurd (stream.symm.trans nothing) (by decide)

/-- On a connection just made nothing goes wrong. -/
theorem connected_calm (server : Server σ) (state : σ) : (connected server state).Calm := by
  have errno : (connected server state).tcpClient.os.errno = einprogress := rfl
  have fd : 0 ≤ (connected server state).tcpClient.fd := by
    rw [(connected_synced server state).2]
    decide
  exact ⟨⟨fd, fun outcome member => (nomatch member)⟩, fun outcome member => (nomatch member),
    ⟨errno.trans_ne (by decide), errno.trans_ne (by decide)⟩, fun peek member => (nomatch member)⟩

/-- A GET and a GET without its argument: the second is refused when the first is on its way. -/
theorem execPipeline_settled_iff_refused :
    ¬ Settled ((connected listServer []).execPipeline [getCommand, .new .get]) := by
  have replies : ∀ r ∈ listServer.answers [] ([getCommand, .new .get].map requestOf),
      r = .nilBulk := by
    intro r member
    rcases List.mem_pair.mp member with rfl | rfl
    · rfl
    · rfl
  have small : ∀ c ∈ [getCommand, .new .get], (commandText c).length < 2 ^ 31 := by
    intro c member
    rcases List.mem_pair.mp member with rfl | rfl
    · decide +kernel
    · decide +kernel
  intro settled
  have leaves := ((execPipeline_settled_iff (connected_synced listServer []).1
    [getCommand, .new .get] fun r member => by
      rw [replies r member]
      exact ⟨.nilBulk, Or.inr .nilBulk⟩).2 (connected_calm _ _) small fun r member => by
      rw [replies r member]
      exact .nilBulk).mp settled
  rcases leaves with ⟨-, ⟨c, rest, shape, refused⟩ | ⟨all, -⟩⟩
  · obtain ⟨rfl, -⟩ := List.cons.inj shape
    exact refused (by unfold Passes; decide +kernel)
  · exact absurd (all (.new .get) (by simp)) (by unfold Passes; decide +kernel)

end RedisProtocol

end LibRedis
