import LibRedis.Pipeline
import LibRedis.StaleErrno
import LibRedis.TruncatedReply

/-!
# Pipelines and single commands

`exec_pipeline` and one `exec_command` after the other give the same outputs, unless an error of
some earlier call is left in `errno`. Both runs are compared with `Answered`, which says on the
commands and the replies alone what becomes of the commands when every reply is accepted: one run
reads the replies from a connection that holds all of them, the other from one that holds a single
reply at a time. Only `exec_pipeline` looks whether the connection is still open, and a look that
finds nothing to read leaves `EAGAIN` in `errno`: it makes an end of an error that was left there,
if enough time has passed.
-/

namespace LibRedis

open Resp (Reply encode encodeAll)
open RedisProtocol (typeRead modeAfter)
open ReplyScan (Accepted)

/-- What becomes of commands in a transaction mode when the replies to them are all accepted: the
commands with their outputs, and the mode behind the last one. -/
inductive Answered (clean : Prop) : Bool → List RedisCommand → List Reply → List RedisCommand →
    Bool → Prop
  /-- No command. -/
  | nil (mode : Bool) : Answered clean mode [] [] [] mode
  /-- A command whose reply is accepted, and others. -/
  | cons {mode last : Bool} {c : RedisCommand} {r : Reply} {rest answered : List RedisCommand}
      {replies : List Reply} (accepted : Accepted clean (typeRead true mode c.command) r)
      (others : Answered clean (modeAfter true mode c.command r) rest replies answered last) :
      Answered clean mode (c :: rest) (r :: replies)
        ({ c with out := denoteAs (typeRead true mode c.command) r } :: answered) last

/-- What is accepted under a condition is accepted under a weaker one. -/
theorem Answered.mono {clean clean' : Prop} (weaker : clean → clean') {mode last : Bool}
    {commands answered : List RedisCommand} {replies : List Reply}
    (answers : Answered clean mode commands replies answered last) :
    Answered clean' mode commands replies answered last := by
  induction answers with
  | nil mode => exact .nil mode
  | cons accepted others ih => exact .cons ⟨accepted.1, accepted.2.imp_left weaker⟩ ih

/-- Statuses need no clean `errno`. -/
theorem Answered.of_statuses {clean clean' : Prop} {mode last : Bool}
    {commands answered : List RedisCommand} {replies : List Reply}
    (answers : Answered clean mode commands replies answered last)
    (statuses : ∀ r ∈ replies, ∃ text, r = .status text) :
    Answered clean' mode commands replies answered last := by
  induction answers with
  | nil mode => exact .nil mode
  | @cons mode last c r rest answered replies accepted others ih =>
    obtain ⟨status, behind⟩ := List.forall_mem_cons.mp statuses
    exact .cons ⟨accepted.1, Or.inr status⟩ (ih behind)

/-- Where `errno` is never clean, only statuses are accepted. -/
theorem Answered.statuses {clean : Prop} (stale : ¬ clean) {mode last : Bool}
    {commands answered : List RedisCommand} {replies : List Reply}
    (answers : Answered clean mode commands replies answered last) :
    ∀ r ∈ replies, ∃ text, r = .status text := by
  induction answers with
  | nil mode => simp
  | cons accepted others ih => exact List.forall_mem_cons.mpr ⟨accepted.2.resolve_left stale, ih⟩

/-- A readable reply holds no error. -/
theorem Readable.errorFree {r : Reply} (readable : Readable r) : ErrorFree r := by
  induction readable with
  | status text => exact .status text
  | @integer value low high => exact .integer value
  | @bulk bytes some short => exact .bulk bytes
  | nilBulk => exact .nilBulk
  | array short all ih => exact .array ih
  | nilArray => exact .nilArray

namespace RedisProtocol

section
variable {π : Type}

/-- Commands one after the other, each with `exec_command`, for as long as it returns true. -/
def execEach [Peer π] : List RedisCommand → RedisProtocol π →
    Except Abort (Bool × List RedisCommand × RedisProtocol π)
  | [], p => return (true, [], p)
  | c :: rest, p => do
    let (ok, c, p) ← p.execCommand c
    if !ok then return (false, c :: rest, p)
    else
      let (ok, rest, p) ← execEach rest p
      return (ok, c :: rest, p)

/-- The connection stays open, and every call on it does what it is there for as far as the network
goes; the buffer has room. -/
structure Steady (p : RedisProtocol π) : Prop where
  /-- The client is valid. -/
  valid : p.Valid
  /-- There is a connection, and every `send` accepts something. -/
  send : p.CanSend
  /-- Every `recv` hands over bytes. -/
  delivers : p.Delivers
  /-- Every peek finds the connection open. -/
  probes : ∀ peek ∈ p.tcpClient.os.probes, peek.isOpen = true
  /-- The buffer can still be doubled. -/
  small : p.tcpClient.buffer.totalSize ≤ 2 ^ 61

/-- A call leaves the connection steady, and `errno` as it was. -/
structure Stays (p p' : RedisProtocol π) : Prop where
  /-- The connection is steady. -/
  steady : p'.Steady
  /-- `errno` stays. -/
  errno : p'.tcpClient.os.errno = p.tcpClient.os.errno

/-- What is accepted stays accepted. -/
theorem Stays.clean {p p' : RedisProtocol π} (stays : p.Stays p') :
    p'.CleanErrno = p.CleanErrno := by
  rw [CleanErrno, CleanErrno, stays.errno]

/-- Staying twice is staying. -/
theorem Stays.trans {p p' p'' : RedisProtocol π} (left : p.Stays p') (right : p'.Stays p'') :
    p.Stays p'' := ⟨right.steady, right.errno.trans left.errno⟩

/-- A call leaves the connection steady, and a clean `errno` clean. -/
structure Continues (p p' : RedisProtocol π) : Prop where
  /-- The connection is steady. -/
  steady : p'.Steady
  /-- `errno` stays clean. -/
  clean : p.CleanErrno → p'.CleanErrno

/-- Continuing twice is continuing. -/
theorem Continues.trans {p p' p'' : RedisProtocol π} (left : p.Continues p')
    (right : p'.Continues p'') : p.Continues p'' :=
  ⟨right.steady, right.clean ∘ left.clean⟩

/-- What stays continues. -/
theorem Stays.continues {p p' : RedisProtocol π} (stays : p.Stays p') : p.Continues p' :=
  ⟨stays.steady, stays.clean.mpr⟩

/-- The same object when other times pass and peeks have other outcomes. -/
def timed (p : RedisProtocol π) (ticks : List Nat) (probes : List PeekOutcome) : RedisProtocol π :=
  { p with tcpClient := { p.tcpClient with
    os := { p.tcpClient.os with ticks := ticks, probes := probes } } }

/-- It is as steady if the peeks find the connection open. -/
theorem Steady.timed {p : RedisProtocol π} (steady : p.Steady) (ticks : List Nat)
    {probes : List PeekOutcome} (isOpen : ∀ peek ∈ probes, peek.isOpen = true) :
    (p.timed ticks probes).Steady where
  valid := ⟨steady.valid.buffer, steady.valid.fd, steady.valid.closed⟩
  send := steady.send
  delivers := steady.delivers
  probes := isOpen
  small := steady.small

/-- On a steady connection the check between two rounds changes nothing that matters. -/
theorem stillOpen_steady {p : RedisProtocol π} (steady : p.Steady) :
    ∃ p', p.stillOpen = (true, p') ∧ p.Continues p' ∧ p'.stream = p.stream ∧
      p'.tcpClient.os.peer = p.tcpClient.os.peer ∧ p'.transactionMode = p.transactionMode := by
  obtain ⟨found, last, clock, ticks, probes, errno, looks, suffix, quiet, calm⟩ :=
    p.tcpClient.isOpen_cases
  have alive := steady.send.1
  obtain rfl : found = true := calm (by omega) steady.probes
  refine ⟨{ p with tcpClient := { p.tcpClient with
    lastCheckOpenTime := last
    os := { p.tcpClient.os with
      clock := clock, ticks := ticks, probes := probes, errno := errno } } }, ?_,
    ⟨⟨⟨steady.valid.buffer, steady.valid.fd, steady.valid.closed⟩, steady.send, steady.delivers,
      fun peek member => steady.probes peek (suffix.subset member), steady.small⟩, fun clean => ?_⟩,
    rfl, rfl, rfl⟩
  · rw [RedisProtocol.stillOpen, isOpen, looks]
    rfl
  · rcases (quiet rfl).2 with same | interrupted | again
    · exact ⟨same.trans_ne clean.1, same.trans_ne clean.2⟩
    · exact ⟨interrupted.trans_ne (by decide), interrupted.trans_ne (by decide)⟩
    · exact ⟨again.trans_ne (by decide), again.trans_ne (by decide)⟩

/-- A check that is due and finds nothing to read makes an end of an error in `errno`. -/
theorem stillOpen_cleans {p p' : RedisProtocol π} {found : Bool} (alive : p.tcpClient.fd ≠ -1)
    (due : p.tcpClient.os.time.1 - p.tcpClient.lastCheckOpenTime > kCheckOpenInterval)
    {probes : List PeekOutcome} (again : p.tcpClient.os.probes = .failed eagain :: probes)
    (checks : p.stillOpen = (found, p')) : p'.CleanErrno := by
  have looks : p.tcpClient.isOpen = (true, { p.tcpClient with
      lastCheckOpenTime := p.tcpClient.os.time.1
      os := { p.tcpClient.os.time.2 with errno := eagain, probes := probes } }) := by
    have peek : p.tcpClient.os.time.2.probes = .failed eagain :: probes := again
    rw [TcpClient.isOpen, if_neg alive]
    simp only [due, if_true, Os.isOpenSlow, peek]
    rfl
  rw [stillOpen, isOpen, looks] at checks
  cases checks
  exact ⟨show eagain ≠ einval by decide, show eagain ≠ erange by decide⟩

/-- On a steady connection a reply that has arrived whole is accepted or not whatever else there
is, and an accepted one is taken off the connection. -/
theorem readReply_steady {p : RedisProtocol π} (steady : p.Steady)
    (short : p.stream.length < 2 ^ 60) (c : RedisCommand) {r : Reply} (wellFormed : r.WellFormed)
    {rest : Bytes} (shape : p.stream = encode r ++ rest) :
    (Accepted p.CleanErrno (p.replyType c) r →
      ∃ p', p.readReply c = .ok (true, { c with out := denoteAs (p.replyType c) r }, p')) ∧
    (∀ c' p', p.readReply c = .ok (true, c', p') →
      Accepted p.CleanErrno (p.replyType c) r ∧
      c' = { c with out := denoteAs (p.replyType c) r } ∧ p.Stays p' ∧ p'.stream = rest ∧
      p'.tcpClient.os.peer = p.tcpClient.os.peer ∧
      p'.transactionMode = modeAfter true p.transactionMode c.command r) := by
  have roomy : p.Roomy := ⟨steady.small, short⟩
  have whole := congrArg List.length shape
  rw [List.length_append] at whole
  have settled (free : ErrorFree r) : ReplyScan.Settles (2 ^ 62) (encode r).length
      (Accepted p.CleanErrno (p.replyType c) r) (denoteAs (p.replyType c) r) rest
      (p.scan (2 ^ 62) c) := by
    have deep := Resp.depth_lt_length r
    rw [scan, shape, List.length_append]
    exact ReplyScan.reply_settles p.decodes wellFormed free (by omega) (p.replyType c) rest
  constructor
  · intro accepted
    have settles := settled accepted.1.readable.errorFree
    generalize scanned : p.scan (2 ^ 62) c = scan at settles
    cases settles with
    | takes => exact readReply_of_takes steady.valid roomy steady.delivers.arrives scanned
    | refuses fails => exact absurd accepted fails
    | stalls long => omega
  · intro c' p' returns
    obtain ⟨-, keeps, scanned⟩ := readReply_takes steady.valid (Or.inr ⟨rfl, roomy⟩) returns
    obtain ⟨result, turns, same⟩ := readReply_turns steady.valid c wellFormed shape
    rw [returns] at same
    cases turns with
    | aborts => cases same
    | ends => cases same
    | refuses => cases same
    | accepts goes mode left accepts =>
      cases same
      have settles := settled accepts.readable.errorFree
      rw [scanned] at settles
      generalize taken : Scan.takes _ _ = scan at settles
      cases settles with
      | refuses | stalls => cases taken
      | takes accepted =>
        refine ⟨accepted, rfl, ⟨⟨goes.reads.valid, ?_, ?_, ?_, keeps.small roomy⟩, goes.errno⟩,
          left, ?_, mode⟩
        · refine ⟨by rw [goes.fd]; exact steady.send.1, ?_⟩
          rw [goes.reads.client.frame]
          exact steady.send.2
        · exact steady.delivers.suffix goes.reads.client.script
        · rw [goes.reads.client.frame]
          exact steady.probes
        · rw [goes.reads.client.frame]

/-- One round of reading does with a reply what reading it does. -/
theorem readRound_steady {p : RedisProtocol π} (steady : p.Steady)
    (short : p.stream.length < 2 ^ 60) (c : RedisCommand) {r : Reply} (wellFormed : r.WellFormed)
    {rest : Bytes} (shape : p.stream = encode r ++ rest) :
    (Accepted p.CleanErrno (p.replyType c) r ∧
      ∃ p', pipelineRound readReply p c =
          .ok (true, { c with out := denoteAs (p.replyType c) r }, p') ∧
        p.Continues p' ∧ p'.stream = rest ∧
        p'.transactionMode = modeAfter true p.transactionMode c.command r) ∨
    (¬ Accepted p.CleanErrno (p.replyType c) r ∧
      ∀ c' p', pipelineRound readReply p c ≠ .ok (true, c', p')) := by
  obtain ⟨takes, taken⟩ := readReply_steady steady short c wellFormed shape
  by_cases accepted : Accepted p.CleanErrno (p.replyType c) r
  · obtain ⟨p₁, reads⟩ := takes accepted
    obtain ⟨-, -, stays, left, -, mode⟩ := taken _ _ reads
    obtain ⟨p₂, found, looks, stream, -, same⟩ := stillOpen_steady stays.steady
    refine Or.inl ⟨accepted, p₂, ?_, stays.continues.trans looks, stream.trans left,
      same.trans mode⟩
    rw [pipelineRound_checks reads, found]
  · refine Or.inr ⟨accepted, fun c' p' returns => accepted ?_⟩
    obtain ⟨⟨ok, c₁, p₁⟩, reads, same⟩ := bind_returns returns
    cases ok with
    | false => cases same
    | true => exact (taken _ _ reads).1

/-- The second loop of `exec_pipeline`, by induction over the commands: with the replies to all of
them on the connection, it returns true when they are all accepted under the `errno` that it finds,
and only if they are all acceptable. -/
theorem readLoop_answers (commands : List RedisCommand) {p : RedisProtocol π} (steady : p.Steady)
    (short : p.stream.length < 2 ^ 60) {replies : List Reply}
    (each : replies.length = commands.length) (wellFormed : ∀ r ∈ replies, r.WellFormed)
    (shape : p.stream = encodeAll replies) (answered : List RedisCommand) (last : Bool) :
    (Answered p.CleanErrno p.transactionMode commands replies answered last →
      ∃ p', pipelineLoop readReply commands p = .ok (true, answered, p') ∧
        p'.transactionMode = last) ∧
    ((∃ p', pipelineLoop readReply commands p = .ok (true, answered, p') ∧
        p'.transactionMode = last) →
      Answered True p.transactionMode commands replies answered last) := by
  induction commands generalizing p replies answered with
  | nil =>
    obtain rfl := List.length_eq_zero_iff.mp each
    constructor
    · rintro ⟨⟩
      exact ⟨p, rfl, rfl⟩
    · rintro ⟨p', returns, rfl⟩
      cases returns
      exact .nil _
  | cons c rest ih =>
    cases replies with
    | nil => simp at each
    | cons r replies =>
      have whole := congrArg List.length shape
      rw [encodeAll, List.length_append] at whole
      rcases readRound_steady steady short c (wellFormed r List.mem_cons_self) shape with
        ⟨accepted, p₁, reads, continues, left, mode⟩ | ⟨refused, fails⟩
      · have later := ih continues.steady (by rw [left]; omega) (Nat.succ.inj each)
          (fun r member => wellFormed r (List.mem_cons_of_mem _ member)) left
        rw [mode] at later
        rw [pipelineLoop, reads]
        constructor
        · intro answers
          cases answers with
          | @cons _ _ _ _ _ others _ _ behind =>
            obtain ⟨p', loops, same⟩ := (later others).1 (behind.mono continues.clean)
            refine ⟨p', ?_, same⟩
            change (pipelineLoop readReply rest p₁ >>= _) = _
            rw [loops]
            rfl
        · rintro ⟨p', returns, rfl⟩
          change (pipelineLoop readReply rest p₁ >>= _) = _ at returns
          obtain ⟨⟨ok, others, p₂⟩, loops, same⟩ := bind_returns returns
          cases same
          exact .cons ⟨accepted.1, Or.inl trivial⟩ ((later others).2 ⟨_, loops, rfl⟩)
      · constructor
        · intro answers
          cases answers with
          | cons accepted behind => exact absurd accepted refused
        · rintro ⟨p', returns, -⟩
          obtain ⟨⟨ok, c', p₁⟩, rounds, same⟩ := bind_returns returns
          cases ok with
          | false => cases same
          | true => exact absurd rounds (fails c' p₁)

end

section
variable {σ : Type} {server : Server σ}

/-- On a steady connection a command is written whole, and the reply to it is on its way. -/
theorem writeCommand_steady {p : RedisProtocol (Endpoint server)} (steady : p.Steady)
    (nothing : p.tcpClient.os.peer.pending = []) {c : RedisCommand} (passes : Passes c)
    (small : (commandText c).length < 2 ^ 31) {r : Reply} {next : σ}
    (handles : server.handle p.tcpClient.os.peer.state (requestOf c) = (r, next)) :
    ∃ p', p.writeCommand c = .ok (true, c, p') ∧ p.Stays p' ∧
      p'.stream = p.stream ++ encode r ∧ p'.tcpClient.os.peer = ⟨[], next⟩ ∧
      p'.transactionMode = p.transactionMode := by
  have text := commandText_small small
  have sends : p.writeCommand c = p.sendRequest c (Resp.request (requestOf c)) := by
    rw [passes.writeCommand, text]
  have some : Resp.request (requestOf c) ≠ [] := by
    rw [Resp.request]
    simp
  rcases sendRequest_cases steady.valid c some (text ▸ small) with
    ⟨-, reason⟩ | ⟨ok, c', p₁, -, -, -, reason⟩ | ⟨client, same, writes, quiet⟩
  · exact absurd steady.send reason
  · exact absurd steady.send reason
  · obtain ⟨stream, peer⟩ := writes.answered nothing handles
    refine ⟨{ p with tcpClient := client }, sends.trans same, ⟨⟨writes.valid, ⟨?_, ?_⟩, ?_, ?_, ?_⟩,
      quiet steady.send.2⟩, stream, peer, rfl⟩
    · change 0 ≤ client.fd
      rw [writes.frame]
      exact steady.send.1
    · exact steady.send.2.suffix writes.suffix
    · change client.os.Delivers
      rw [writes.frame]
      exact steady.delivers
    · change ∀ peek ∈ client.os.probes, peek.isOpen = true
      rw [writes.frame]
      exact steady.probes
    · change client.buffer.totalSize ≤ 2 ^ 61
      rw [writes.frame]
      exact steady.small

/-- Behind a write the next check is due when more seconds pass than the interval has. -/
theorem writeCommand_due {p p' : RedisProtocol (Endpoint server)} (steady : p.Steady)
    {c c' : RedisCommand} (passes : Passes c) (small : (commandText c).length < 2 ^ 31) {later : Nat}
    (late : (later : Int) > kCheckOpenInterval) {now : Nat}
    (ticks : p.tcpClient.os.ticks = [now, later])
    (writes : p.writeCommand c = .ok (true, c', p')) :
    p'.tcpClient.os.time.1 - p'.tcpClient.lastCheckOpenTime > kCheckOpenInterval ∧
      p'.tcpClient.os.probes = p.tcpClient.os.probes := by
  have text := commandText_small small
  rw [passes.writeCommand, text] at writes
  have some : Resp.request (requestOf c) ≠ [] := by
    rw [Resp.request]
    simp
  rcases sendRequest_cases steady.valid c some (text ▸ small) with
    ⟨-, reason⟩ | ⟨ok, c', p₁, -, -, -, reason⟩ | ⟨client, same, sends, -⟩
  · exact absurd steady.send reason
  · exact absurd steady.send reason
  · cases same.symm.trans writes
    constructor
    · rw [Os.time, sends.frame, ticks]
      change p.tcpClient.os.clock + (now : Int) + (later : Int) - (p.tcpClient.os.clock + now) > _
      omega
    · rw [sends.frame]

/-- The first loop of `exec_pipeline`, by induction over the commands: with acceptable argument
counts everything is written, and the replies are on their way. -/
theorem writeLoop_steady (commands : List RedisCommand) {p : RedisProtocol (Endpoint server)}
    (steady : p.Steady) (nothing : p.tcpClient.os.peer.pending = [])
    (passes : ∀ c ∈ commands, Passes c) (small : ∀ c ∈ commands, (commandText c).length < 2 ^ 31) :
    ∃ p', pipelineLoop writeCommand commands p = .ok (true, commands, p') ∧ p.Continues p' ∧
      p'.transactionMode = p.transactionMode ∧ p'.stream = p.stream ++
        encodeAll (server.answers p.tcpClient.os.peer.state (commands.map requestOf)) := by
  induction commands generalizing p with
  | nil => exact ⟨p, rfl, ⟨steady, id⟩, rfl, (List.append_nil _).symm⟩
  | cons c rest ih =>
    rcases handles : server.handle p.tcpClient.os.peer.state (requestOf c) with ⟨r, next⟩
    obtain ⟨p₁, writes, stays, stream, peer, mode⟩ := writeCommand_steady steady nothing
      (passes c List.mem_cons_self) (small c List.mem_cons_self) handles
    obtain ⟨p₂, found, looks, stream', peer', mode'⟩ := stillOpen_steady stays.steady
    obtain ⟨p₃, loops, others, mode'', stream''⟩ := ih looks.steady
      (by rw [peer', peer]) (fun c member => passes c (List.mem_cons_of_mem _ member))
      fun c member => small c (List.mem_cons_of_mem _ member)
    refine ⟨p₃, ?_, (stays.continues.trans looks).trans others, mode''.trans (mode'.trans mode), ?_⟩
    · rw [pipelineLoop, pipelineRound_checks writes, found]
      change (pipelineLoop writeCommand rest p₂ >>= _) = _
      rw [loops]
      rfl
    · rw [stream'', stream', stream, peer', peer, List.map_cons, Server.answers, handles,
        encodeAll, List.append_assoc]

/-- On a steady connection with nothing under way a command is answered when its argument count
and its reply are accepted, and then nothing is under way again. -/
theorem execCommand_steady {p : RedisProtocol (Endpoint server)} (steady : p.Steady)
    (read : p.stream = []) (nothing : p.tcpClient.os.peer.pending = []) {c : RedisCommand}
    (small : (commandText c).length < 2 ^ 31) {r : Reply} {next : σ}
    (handles : server.handle p.tcpClient.os.peer.state (requestOf c) = (r, next))
    (wellFormed : r.WellFormed) (short : (encode r).length < 2 ^ 60) :
    (Passes c ∧ Accepted p.CleanErrno (p.replyType c) r ∧
      ∃ p', p.execCommand c = .ok (true, { c with out := denoteAs (p.replyType c) r }, p') ∧
        p.Stays p' ∧ p'.stream = [] ∧ p'.tcpClient.os.peer = ⟨[], next⟩ ∧
        p'.transactionMode = modeAfter true p.transactionMode c.command r) ∨
    (¬ (Passes c ∧ Accepted p.CleanErrno (p.replyType c) r) ∧
      ∀ c' p', p.execCommand c ≠ .ok (true, c', p')) := by
  by_cases passes : Passes c
  · obtain ⟨p₁, writes, stays, stream, peer, mode⟩ :=
      writeCommand_steady steady nothing passes small handles
    have shape : p₁.stream = encode r ++ [] := by
      rw [stream, read, List.nil_append, List.append_nil]
    have same : p₁.replyType c = p.replyType c := by
      rw [replyType, replyType, mode]
    have executes : p.execCommand c = p₁.readReply c := by
      rw [execCommand, writes]
      rfl
    obtain ⟨takes, taken⟩ := readReply_steady stays.steady
      (by rw [shape, List.append_nil]; exact short) c wellFormed shape
    rw [same, stays.clean] at takes taken
    rw [executes]
    by_cases accepted : Accepted p.CleanErrno (p.replyType c) r
    · obtain ⟨p₂, reads⟩ := takes accepted
      obtain ⟨-, -, stays', left, peer', mode'⟩ := taken _ _ reads
      rw [mode] at mode'
      exact Or.inl ⟨passes, accepted, p₂, reads, stays.trans stays', left, peer'.trans peer, mode'⟩
    · exact Or.inr ⟨fun both => accepted both.2, fun c' p' reads => accepted (taken _ _ reads).1⟩
  · obtain ⟨text, refused⟩ := writeCommand_refused passes p
    refine Or.inr ⟨fun both => passes both.1, fun c' p' executes => ?_⟩
    rw [execCommand, refused] at executes
    cases executes

/-- Commands one after the other, by induction: they are all answered when their argument counts and
their replies are accepted. -/
theorem execEach_iff (commands : List RedisCommand) {p : RedisProtocol (Endpoint server)}
    (steady : p.Steady) (read : p.stream = []) (nothing : p.tcpClient.os.peer.pending = [])
    (small : ∀ c ∈ commands, (commandText c).length < 2 ^ 31)
    (wellFormed : ∀ r ∈ server.answers p.tcpClient.os.peer.state (commands.map requestOf),
      r.WellFormed)
    (short : (encodeAll (server.answers p.tcpClient.os.peer.state
      (commands.map requestOf))).length < 2 ^ 60) (answered : List RedisCommand) (last : Bool) :
    (∃ p', execEach commands p = .ok (true, answered, p') ∧ p'.transactionMode = last) ↔
      (∀ c ∈ commands, Passes c) ∧ Answered p.CleanErrno p.transactionMode commands
        (server.answers p.tcpClient.os.peer.state (commands.map requestOf)) answered last := by
  induction commands generalizing p answered with
  | nil =>
    constructor
    · rintro ⟨p', returns, rfl⟩
      cases returns
      exact ⟨by simp, .nil _⟩
    · rintro ⟨-, ⟨⟩⟩
      exact ⟨p, rfl, rfl⟩
  | cons c rest ih =>
    rcases handles : server.handle p.tcpClient.os.peer.state (requestOf c) with ⟨r, next⟩
    have answers : server.answers p.tcpClient.os.peer.state ((c :: rest).map requestOf) =
        r :: server.answers next (rest.map requestOf) := by
      rw [List.map_cons, Server.answers, handles]
    rw [answers] at wellFormed short ⊢
    rw [encodeAll, List.length_append] at short
    rcases execCommand_steady steady read nothing (small c List.mem_cons_self) handles
        (wellFormed r List.mem_cons_self) (by omega) with
      ⟨passes, accepted, p₁, executes, stays, left, peer, mode⟩ | ⟨refused, fails⟩
    · have later := ih stays.steady left (by rw [peer])
        (fun c member => small c (List.mem_cons_of_mem _ member))
        (by rw [peer]; exact fun r member => wellFormed r (List.mem_cons_of_mem _ member))
        (by rw [peer]; exact lt_of_le_of_lt (Nat.le_add_left _ _) short)
      rw [peer, stays.clean, mode] at later
      rw [execEach, executes]
      constructor
      · rintro ⟨p', returns, rfl⟩
        change (execEach rest p₁ >>= _) = _ at returns
        obtain ⟨⟨ok, others, p₂⟩, runs, same⟩ := bind_returns returns
        cases same
        obtain ⟨all, behind⟩ := (later others).mp ⟨_, runs, rfl⟩
        exact ⟨List.forall_mem_cons.mpr ⟨passes, all⟩, .cons accepted behind⟩
      · rintro ⟨all, answers⟩
        cases answers with
        | @cons _ _ _ _ _ others _ _ behind =>
          obtain ⟨p', runs, same⟩ :=
            (later others).mpr ⟨(List.forall_mem_cons.mp all).2, behind⟩
          refine ⟨p', ?_, same⟩
          change (execEach rest p₁ >>= _) = _
          rw [runs]
          rfl
    · constructor
      · rintro ⟨p', returns, -⟩
        obtain ⟨⟨ok, c', p₁⟩, executes, same⟩ := bind_returns returns
        cases ok with
        | false => cases same
        | true => exact absurd executes (fails c' p₁)
      · rintro ⟨all, answers⟩
        cases answers with
        | cons accepted behind => exact absurd ⟨all c List.mem_cons_self, accepted⟩ refused


/-- Where the check behind the first write comes late, an error that was left in `errno` is gone
before the first reply is read. -/
theorem writeLoop_cleans {c : RedisCommand} {rest : List RedisCommand}
    {p : RedisProtocol (Endpoint server)} (steady : p.Steady)
    (nothing : p.tcpClient.os.peer.pending = []) (passes : ∀ b ∈ c :: rest, Passes b)
    (small : ∀ b ∈ c :: rest, (commandText b).length < 2 ^ 31)
    (ticks : p.tcpClient.os.ticks = [0, 181]) (again : p.tcpClient.os.probes = [.failed eagain]) :
    ∃ p', pipelineLoop writeCommand (c :: rest) p = .ok (true, c :: rest, p') ∧ p'.Steady ∧
      p'.CleanErrno ∧ p'.transactionMode = p.transactionMode ∧ p'.stream = p.stream ++
        encodeAll (server.answers p.tcpClient.os.peer.state ((c :: rest).map requestOf)) := by
  obtain ⟨first, others⟩ := List.forall_mem_cons.mp passes
  obtain ⟨smallFirst, smallOthers⟩ := List.forall_mem_cons.mp small
  rcases handles : server.handle p.tcpClient.os.peer.state (requestOf c) with ⟨r, next⟩
  obtain ⟨p₁, writes, stays, stream, peer, mode⟩ :=
    writeCommand_steady steady nothing first smallFirst handles
  obtain ⟨p₂, found, looks, stream', peer', mode'⟩ := stillOpen_steady stays.steady
  obtain ⟨due, probes⟩ := writeCommand_due steady first smallFirst (by decide) ticks writes
  have clean : p₂.CleanErrno := by
    have alive := stays.steady.send.1
    exact stillOpen_cleans (by omega) due (probes.trans again) found
  obtain ⟨p₃, loops, continues, mode'', stream''⟩ := writeLoop_steady rest looks.steady
    (by rw [peer', peer]) others smallOthers
  refine ⟨p₃, ?_, continues.steady, continues.clean clean, mode''.trans (mode'.trans mode), ?_⟩
  · rw [pipelineLoop, pipelineRound_checks writes, found]
    change (pipelineLoop writeCommand rest p₂ >>= _) = _
    rw [loops]
    rfl
  · rw [stream'', stream', stream, peer', peer, List.map_cons, Server.answers, handles,
      encodeAll, List.append_assoc]

/-- A pipeline writes nothing behind a command whose argument count is refused. -/
theorem passes_of_writeLoop {p p' : RedisProtocol (Endpoint server)} (synced : p.Synced)
    {commands commands' : List RedisCommand} (small : ∀ c ∈ commands, (commandText c).length < 2 ^ 31)
    (writes : pipelineLoop writeCommand commands p = .ok (true, commands', p')) :
    ∀ c ∈ commands, Passes c := by
  have written := writeLoop_writesAll commands synced.valid synced.pending small
  rw [writes] at written
  cases written with
  | done passes => exact passes

/-- The replies to the commands. -/
def repliesTo (p : RedisProtocol (Endpoint server)) (commands : List RedisCommand) : List Reply :=
  server.answers p.tcpClient.os.peer.state (commands.map requestOf)

/-- There is one for each. -/
theorem length_repliesTo (p : RedisProtocol (Endpoint server)) (commands : List RedisCommand) :
    (p.repliesTo commands).length = commands.length := by
  rw [repliesTo, Server.length_answers, List.length_map]

/-- Nothing is under way on a connection that stays open, and the requests and the replies fit. -/
structure Ready (p : RedisProtocol (Endpoint server)) (commands : List RedisCommand) : Prop where
  /-- The connection stays open. -/
  steady : p.Steady
  /-- Nothing is under way. -/
  synced : p.Synced
  /-- The length of every request is an `int`. -/
  small : ∀ c ∈ commands, (commandText c).length < 2 ^ 31
  /-- Every reply is well formed. -/
  wellFormed : ∀ r ∈ p.repliesTo commands, r.WellFormed
  /-- The replies fit into memory. -/
  short : (encodeAll (p.repliesTo commands)).length < 2 ^ 60

/-- Other times and other outcomes of peeks change nothing about that. -/
theorem Ready.timed {p : RedisProtocol (Endpoint server)} {commands : List RedisCommand}
    (ready : p.Ready commands) (ticks : List Nat) {probes : List PeekOutcome}
    (isOpen : ∀ peek ∈ probes, peek.isOpen = true) : (p.timed ticks probes).Ready commands where
  steady := ready.steady.timed ticks isOpen
  synced := ⟨(ready.steady.timed ticks isOpen).valid, ready.synced.stream, ready.synced.pending⟩
  small := ready.small
  wellFormed := ready.wellFormed
  short := ready.short

/-- No part of a request has arrived. -/
theorem Ready.nothing {p : RedisProtocol (Endpoint server)} {commands : List RedisCommand}
    (ready : p.Ready commands) : p.tcpClient.os.peer.pending = [] := by
  have alive := ready.steady.send.1
  exact ready.synced.pending (by omega)

/-- `exec_pipeline` returns true when all commands have acceptable argument counts and all replies
are accepted under the `errno` that it finds, and only if they are all acceptable. -/
theorem execPipeline_answers {p : RedisProtocol (Endpoint server)} {commands : List RedisCommand}
    (ready : p.Ready commands) (answered : List RedisCommand) (last : Bool) :
    ((∀ c ∈ commands, Passes c) ∧ Answered p.CleanErrno p.transactionMode commands
        (p.repliesTo commands) answered last →
      ∃ p', p.execPipeline commands = .ok (true, answered, p') ∧ p'.transactionMode = last) ∧
    ((∃ p', p.execPipeline commands = .ok (true, answered, p') ∧ p'.transactionMode = last) →
      (∀ c ∈ commands, Passes c) ∧ Answered True p.transactionMode commands
        (p.repliesTo commands) answered last) := by
  by_cases passes : ∀ c ∈ commands, Passes c
  · obtain ⟨p₁, writes, continues, mode, stream⟩ :=
      writeLoop_steady commands ready.steady ready.nothing passes ready.small
    rw [ready.synced.stream_nil, List.nil_append] at stream
    obtain ⟨reads, answers⟩ := readLoop_answers commands continues.steady
      (by rw [stream]; exact ready.short) (p.length_repliesTo commands)
      ready.wellFormed stream answered last
    rw [mode] at reads answers
    rw [execPipeline, writes]
    exact ⟨fun both => reads (both.2.mono continues.clean), fun returns => ⟨passes, answers returns⟩⟩
  · refine ⟨fun both => absurd both.1 passes, ?_⟩
    rintro ⟨p', returns, -⟩
    obtain ⟨⟨ok, written, p₁⟩, writes, same⟩ := bind_returns returns
    cases ok with
    | false => cases same
    | true => exact absurd (passes_of_writeLoop ready.synced ready.small writes) passes

/-- Where the check behind the first write comes late, `exec_pipeline` returns true when all commands
and replies are acceptable, whatever `errno` was. -/
theorem execPipeline_late {p : RedisProtocol (Endpoint server)} {commands : List RedisCommand}
    (ready : p.Ready commands) (some : commands ≠ []) (ticks : p.tcpClient.os.ticks = [0, 181])
    (again : p.tcpClient.os.probes = [.failed eagain]) (passes : ∀ c ∈ commands, Passes c)
    {answered : List RedisCommand} {last : Bool}
    (answers : Answered True p.transactionMode commands (p.repliesTo commands) answered last) :
    ∃ p', p.execPipeline commands = .ok (true, answered, p') ∧ p'.transactionMode = last := by
  obtain ⟨c, rest, rfl⟩ := List.exists_cons_of_ne_nil some
  obtain ⟨p₁, writes, steady, clean, mode, stream⟩ :=
    writeLoop_cleans ready.steady ready.nothing passes ready.small ticks again
  rw [ready.synced.stream_nil, List.nil_append] at stream
  have reads := (readLoop_answers (c :: rest) steady (by rw [stream]; exact ready.short)
    (p.length_repliesTo _) ready.wellFormed stream answered last).1
  rw [mode] at reads
  rw [execPipeline, writes]
  exact reads (answers.mono fun _ => clean)

/-- Pipelining changes nothing but timing: whatever time passes in either run, and whatever the looks
at the open connection find, `exec_pipeline` returns true with some outputs and in some transaction
mode exactly when the commands one after the other all return true with these outputs and in this
mode. -/
def PipelinesAlike (p : RedisProtocol (Endpoint server)) (commands : List RedisCommand) : Prop :=
  ∀ ticks ticks' probes probes', (∀ peek ∈ probes, peek.isOpen = true) →
    (∀ peek ∈ probes', peek.isOpen = true) → ∀ answered last,
    ((∃ p', (p.timed ticks probes).execPipeline commands = .ok (true, answered, p') ∧
        p'.transactionMode = last) ↔
      ∃ p', execEach commands (p.timed ticks' probes') = .ok (true, answered, p') ∧
        p'.transactionMode = last)

/-- Every command has an acceptable argument count, and every reply is acceptable for its command. -/
def Answerable (p : RedisProtocol (Endpoint server)) (commands : List RedisCommand) : Prop :=
  (∀ c ∈ commands, Passes c) ∧ ∃ answered last,
    Answered True p.transactionMode commands (p.repliesTo commands) answered last

/-- Pipelining changes nothing but timing exactly if `errno` is clean, or one of the commands fails in
any case, or all of them are answered by statuses, which hold no number. -/
theorem execPipeline_alike_iff {p : RedisProtocol (Endpoint server)} {commands : List RedisCommand}
    (ready : p.Ready commands) :
    p.PipelinesAlike commands ↔ p.CleanErrno ∨ ¬ p.Answerable commands ∨
      ∀ r ∈ p.repliesTo commands, ∃ text, r = .status text := by
  have each (ticks : List Nat) (probes : List PeekOutcome)
      (isOpen : ∀ peek ∈ probes, peek.isOpen = true) (answered : List RedisCommand) (last : Bool) :
      (∃ p', execEach commands (p.timed ticks probes) = .ok (true, answered, p') ∧
          p'.transactionMode = last) ↔
        (∀ c ∈ commands, Passes c) ∧ Answered p.CleanErrno p.transactionMode commands
          (p.repliesTo commands) answered last := by
    have ready' := ready.timed ticks isOpen
    exact execEach_iff commands ready'.steady ready'.synced.stream_nil ready'.nothing ready'.small
      ready'.wellFormed ready'.short answered last
  constructor
  · intro alike
    by_contra neither
    obtain ⟨stale, neither⟩ := not_or.mp neither
    obtain ⟨acceptable, numbers⟩ := not_or.mp neither
    obtain ⟨passes, answered, last, answers⟩ := not_not.mp acceptable
    have some : commands ≠ [] := by
      rintro rfl
      exact numbers (by simp [repliesTo, Server.answers])
    have again : ∀ peek ∈ [PeekOutcome.failed eagain], peek.isOpen = true := by decide
    have returns := execPipeline_late (ready.timed [0, 181] again) some rfl rfl passes answers
    have accepted := (each [] [] (by simp) answered last).mp
      ((alike [0, 181] [] [.failed eagain] [] again (by simp) answered last).mp returns)
    exact numbers (accepted.2.statuses stale)
  · intro condition ticks ticks' probes probes' isOpen isOpen' answered last
    rw [each ticks' probes' isOpen']
    obtain ⟨returns, answers⟩ := execPipeline_answers (ready.timed ticks isOpen) answered last
    refine ⟨fun found => ?_, returns⟩
    obtain ⟨passes, acceptable⟩ := answers found
    refine ⟨passes, ?_⟩
    rcases condition with clean | fails | statuses
    · exact acceptable.mono fun _ => clean
    · exact absurd ⟨passes, answered, last, acceptable⟩ fails
    · exact acceptable.of_statuses statuses

/-- A connection just made is steady. -/
theorem connected_steady (server : Server σ) (state : σ) : (connected server state).Steady where
  valid := (connected_synced server state).1.valid
  send := (connected_calm server state).send
  delivers := (connected_calm server state).delivers
  probes := (connected_calm server state).probes
  small := by
    have start : (connected server state).tcpClient.buffer = TcpClientBuffer.new.clear := rfl
    rw [start]
    decide +kernel

/-- A value and nothing, in answer to two GETs. -/
theorem execPipeline_alike_iff_pair : (connected listServer [.bulk (Decimal.ascii "v"), .nilBulk]
    ).PipelinesAlike [getCommand, getCommand] := by
  have ready : (connected listServer [.bulk (Decimal.ascii "v"), .nilBulk]).Ready
      [getCommand, getCommand] := by
    refine ⟨connected_steady _ _, (connected_synced _ _).1, ?_, ?_, by decide +kernel⟩
    · intro c member
      rcases List.mem_pair.mp member with rfl | rfl
      · decide +kernel
      · decide +kernel
    · intro r member
      rcases List.mem_pair.mp member with rfl | rfl
      · exact .bulk _
      · exact .nilBulk
  exact (execPipeline_alike_iff ready).mpr (Or.inl (connected_calm _ _).clean)

/-- `SET k v` and `INCR n`. -/
def setThenIncr : List RedisCommand :=
  [⟨.set, [Decimal.ascii "k", Decimal.ascii "v"], .none⟩, ⟨.incr, [Decimal.ascii "n"], .none⟩]

/-- A connection on which they are answered, of a thread in which a number was out of range before.
The look behind the first reply is the only one that is due. -/
def outOfRangeBefore : RedisProtocol (Endpoint listServer) :=
  ((connected listServer [.status (Decimal.ascii "OK"), .integer 1]).timed
    [0, 0, 0, 0, 181] []).atErrno erange

/-- There the pipeline succeeds, and the commands one after the other do not. -/
theorem execPipeline_not_alike : outOfRangeBefore.Ready setThenIncr ∧
    (∃ answered p', outOfRangeBefore.execPipeline setThenIncr = .ok (true, answered, p')) ∧
    (∃ answered p', execEach setThenIncr outOfRangeBefore = .ok (false, answered, p')) ∧
    ¬ outOfRangeBefore.PipelinesAlike setThenIncr := by
  have piped : (outOfRangeBefore.execPipeline setThenIncr).toOption.map
      (fun returned => returned.1) = some true := by
    decide +kernel
  have single : (execEach setThenIncr outOfRangeBefore).toOption.map
      (fun returned => returned.1) = some false := by
    decide +kernel
  obtain ⟨⟨ok, answered, p⟩, pipes, yes⟩ := returned_of_view piped
  obtain ⟨⟨ok', answered', p'⟩, executes, no⟩ := returned_of_view single
  have yes : ok = true := yes
  have no : ok' = false := no
  subst yes no
  have steady : outOfRangeBefore.Steady := by
    have none : ∀ peek ∈ ([] : List PeekOutcome), peek.isOpen = true := by simp
    have start := (connected_steady listServer
      [.status (Decimal.ascii "OK"), .integer 1]).timed [0, 0, 0, 0, 181] none
    exact ⟨start.valid.atErrno erange, start.send, start.delivers, start.probes, start.small⟩
  have synced := (connected_synced listServer [.status (Decimal.ascii "OK"), .integer 1]).1
  refine ⟨⟨steady, ⟨steady.valid, synced.stream, synced.pending⟩, ?_, ?_, by decide +kernel⟩,
    ⟨answered, p, pipes⟩, ⟨answered', p', executes⟩, fun alike => ?_⟩
  · intro c member
    rcases List.mem_pair.mp member with rfl | rfl
    · decide +kernel
    · decide +kernel
  · intro r member
    rcases List.mem_pair.mp member with rfl | rfl
    · exact .status (by decide)
    · exact .integer 1
  · obtain ⟨q, runs, -⟩ := (alike [0, 0, 0, 0, 181] [0, 0, 0, 0, 181] [] [] (by simp) (by simp)
      answered p.transactionMode).mp ⟨p, pipes, rfl⟩
    cases executes.symm.trans runs

end

end RedisProtocol

end LibRedis
