import Mathlib.Data.List.Forall2
import LibRedis.Redis
import LibRedis.TransactionMode

/-!
# The commands of the open transaction

`transaction_cmds_` is meant to hold the commands that the server has queued, in order. It does
along every run in which a transaction is ended by DISCARD or by an EXEC that is answered by an
array of one element for each command, and in which no UNWATCH is sent inside a transaction.
-/

namespace LibRedis

open Decimal (ascii)
open Resp (Reply)
open RedisProtocol (commandText requestOf Mirrors)

/-- What a server promises about the commands it queues. -/
structure TransactionQueue {σ : Type} (server : Server σ) where
  /-- The requests queued since MULTI, or none outside a transaction. -/
  queue : σ → Option (List (List Bytes))
  /-- Replies are well formed. -/
  wellFormed (state : σ) (args : List Bytes) : (server.handle state args).1.WellFormed
  /-- A new connection is outside a transaction. -/
  fresh (state : σ) : queue (server.fresh state) = none
  /-- MULTI begins a transaction outside one; inside it is answered by an error. -/
  multi (state : σ) (args : List Bytes) (named : commandOf args = .multi) :
    (queue state = none ∧ (∃ text, (server.handle state args).1 = .status text) ∧
      queue (server.handle state args).2 = some []) ∨
    ((∃ text, (server.handle state args).1 = .error text) ∧
      queue (server.handle state args).2 = queue state)
  /-- DISCARD ends it, or it is answered by an error. -/
  discard (state : σ) (args : List Bytes) (named : commandOf args = .discard) :
    ((server.handle state args).1 = .status (ascii "OK") ∧
      queue (server.handle state args).2 = none) ∨
    ((∃ text, (server.handle state args).1 = .error text) ∧
      queue (server.handle state args).2 = queue state)
  /-- EXEC ends it whatever it replies; outside a transaction it is answered by an error. -/
  exec (state : σ) (args : List Bytes) (named : commandOf args = .exec) :
    queue (server.handle state args).2 = none ∧
      (queue state = none → ∃ text, (server.handle state args).1 = .error text)
  /-- WATCH inside a transaction is answered by an error. -/
  watch (state : σ) (args : List Bytes) (named : commandOf args = .watch)
    {queued : List (List Bytes)} (inside : queue state = some queued) :
    (∃ text, (server.handle state args).1 = .error text) ∧
      queue (server.handle state args).2 = some queued
  /-- Any other command inside a transaction is queued, or answered by an error. -/
  queues (state : σ) (args : List Bytes) (multi : commandOf args ≠ .multi)
    (discard : commandOf args ≠ .discard) (exec : commandOf args ≠ .exec)
    (watch : commandOf args ≠ .watch) {queued : List (List Bytes)}
    (inside : queue state = some queued) :
    ((∃ text, (server.handle state args).1 = .status text) ∧
      queue (server.handle state args).2 = some (queued ++ [args])) ∨
    ((∃ text, (server.handle state args).1 = .error text) ∧
      queue (server.handle state args).2 = some queued)
  /-- Outside a transaction nothing but MULTI begins one. -/
  outside (state : σ) (args : List Bytes) (multi : commandOf args ≠ .multi)
    (outside : queue state = none) : queue (server.handle state args).2 = none

variable {σ : Type} {server : Server σ}

/-- Such a server keeps the promises about transactions. -/
def TransactionQueue.transactions (laws : TransactionQueue server) : Transactions server where
  inMulti state := (laws.queue state).isSome
  wellFormed := laws.wellFormed
  fresh state := by rw [laws.fresh]; rfl
  multi state args named := by
    rcases laws.multi state args named with ⟨-, status, opened⟩ | ⟨error, same⟩
    · exact Or.inl ⟨status, by rw [opened]; rfl⟩
    · exact Or.inr ⟨error, by rw [same]⟩
  discard state args named := by
    rcases laws.discard state args named with ⟨status, ended⟩ | ⟨error, same⟩
    · exact Or.inl ⟨⟨_, status⟩, by rw [ended]; rfl⟩
    · exact Or.inr ⟨error, by rw [same]⟩
  exec state args named := by rw [(laws.exec state args named).1]; rfl
  other state args multi discard exec := by
    cases inside : laws.queue state with
    | none => rw [laws.outside state args multi inside]
    | some queued =>
      by_cases watch : commandOf args = .watch
      · rw [(laws.watch state args watch inside).2]
      · rcases laws.queues state args multi discard exec watch inside with
          ⟨-, more⟩ | ⟨-, same⟩
        · rw [more]
          rfl
        · rw [same]

/-- A command stands for the request it was sent as: its name and its arguments, or, where it was
made from a text, its arguments alone. -/
def QueuedAs (c : RedisCommand) (request : List Bytes) : Prop :=
  request = requestOf c ∨ (request = c.args ∧ commandOf request = c.command)

namespace Redis2

/-- An operation of a transaction. -/
inductive Operation where
  /-- `multi`. -/
  | multi
  /-- `add_command`. -/
  | addCommand (command : RedisCommand)
  /-- `add_command` with a format. -/
  | addCommandv (command : RedisCommand) (buf : Bytes)
  /-- `watch`. -/
  | watch (keys : List Bytes)
  /-- `unwatch`. -/
  | unwatch
  /-- `exec`. -/
  | exec
  /-- `discard`. -/
  | discard

/-- What an operation leaves. -/
def perform {π : Type} [Peer π] (r : Redis2 π) : Operation → Except Abort (Redis2 π)
  | .multi => r.multi.map fun (_, r) => r
  | .addCommand command => (r.addCommand command).map fun (_, r) => r
  | .addCommandv command buf => (r.addCommandv command buf).map fun (_, r) => r
  | .watch keys => (r.watch keys).map fun (_, r) => r
  | .unwatch => r.unwatch.map fun (_, r) => r
  | .exec => r.exec.map fun (_, r) => r
  | .discard => r.discard.map fun (_, r) => r

/-- An operation that keeps the commands of the transaction those that the server has queued.
Commands are added inside a transaction only. -/
def Operation.KeepsQueue (r : Redis2 (Endpoint server)) : Operation → Prop
  | .multi => r.proto.isOpen.1 = true ∨ r.proto.transactionMode = false
  | .addCommand command => r.proto.transactionMode = true ∧ command.command ≠ .exec ∧
      command.command ≠ .discard ∧ (commandText command).length < 2 ^ 31
  | .addCommandv _ buf => r.proto.transactionMode = true ∧
      commandOf (RedisProtocol.splitWords buf) ≠ .exec ∧
      commandOf (RedisProtocol.splitWords buf) ≠ .discard ∧
      (RedisProtocol.commandvText (RedisProtocol.splitWords buf)).length < 2 ^ 31
  | .watch keys => (r.proto.isOpen.1 = true ∨ r.proto.transactionMode = false) ∧
      (commandText ((RedisCommand.new .watch).pushArgs keys)).length < 2 ^ 31
  | .unwatch => r.proto.transactionMode = false
  | .exec => r.proto.transactionMode = true → ∃ elements,
      (server.handle r.proto.tcpClient.os.peer.state (requestOf (.new .exec))).1 = .array elements ∧
      Readable (.array elements) ∧ elements.length = r.transactionCmds.length
  | .discard => True

/-- The commands of the transaction are those that the server has queued. -/
structure MirrorsQueue (laws : TransactionQueue server) (r : Redis2 (Endpoint server)) : Prop where
  /-- The transaction mode is that of the server. -/
  mirrors : r.proto.Mirrors laws.transactions
  /-- The commands are those queued. -/
  queue : r.proto.tcpClient.fd ≠ -1 → List.Forall₂ QueuedAs r.transactionCmds
    ((laws.queue r.proto.tcpClient.os.peer.state).getD [])
  /-- Inside a transaction the database is selected. -/
  database : r.proto.transactionMode = true → r.dbIndex = 0 ∨ r.dbIndexSelectFailure = false

/-- No transaction is open and no commands are remembered. -/
structure Idle (laws : TransactionQueue server) (r : Redis2 (Endpoint server)) : Prop where
  /-- The transaction mode is that of the server. -/
  mirrors : r.proto.Mirrors laws.transactions
  /-- It is off. -/
  mode : r.proto.transactionMode = false
  /-- There are no commands. -/
  empty : r.transactionCmds = []

variable {laws : TransactionQueue server}

/-- On a connection without a transaction the server has nothing queued. -/
theorem queue_none {p : RedisProtocol (Endpoint server)} (mirrors : p.Mirrors laws.transactions)
    (alive : p.tcpClient.fd ≠ -1) (mode : p.transactionMode = false) :
    laws.queue p.tcpClient.os.peer.state = none := by
  have same := (mirrors.mode alive).symm.trans mode
  exact Option.isSome_eq_false_iff.mp same |> Option.isNone_iff_eq_none.mp

/-- With the mode on there is a connection, and the server has a queue. -/
theorem queue_some {p : RedisProtocol (Endpoint server)} (mirrors : p.Mirrors laws.transactions)
    (mode : p.transactionMode = true) :
    p.tcpClient.fd ≠ -1 ∧ ∃ queued, laws.queue p.tcpClient.os.peer.state = some queued := by
  have alive : p.tcpClient.fd ≠ -1 := by
    intro closed
    rw [mirrors.closed closed] at mode
    cases mode
  have same := (mirrors.mode alive).symm.trans mode
  exact ⟨alive, Option.isSome_iff_exists.mp same⟩

/-- Without a transaction and commands, the commands are those queued. -/
theorem Idle.mirrorsQueue {r : Redis2 (Endpoint server)} (idle : r.Idle laws) :
    r.MirrorsQueue laws where
  mirrors := idle.mirrors
  queue alive := by
    rw [queue_none idle.mirrors alive idle.mode, idle.empty]
    exact List.Forall₂.nil
  database mode := by
    rw [idle.mode] at mode
    cases mode

/-- Without a transaction there are no commands on a connection. -/
theorem MirrorsQueue.idle {r : Redis2 (Endpoint server)} (mirrors : r.MirrorsQueue laws)
    (alive : r.proto.tcpClient.fd ≠ -1) (mode : r.proto.transactionMode = false) : r.Idle laws where
  mirrors := mirrors.mirrors
  mode := mode
  empty := by
    have queue := mirrors.queue alive
    rw [queue_none mirrors.mirrors alive mode] at queue
    exact List.forall₂_nil_right_iff.mp queue

/-- Outside a transaction, sending anything but MULTI leaves none open. -/
theorem Idle.protoExecCommand {r r' : Redis2 (Endpoint server)} (idle : r.Idle laws)
    {c c' : RedisCommand} (small : (commandText c).length < 2 ^ 31)
    (status : c.command.commandInfo.replyType = .status) (multi : c.command ≠ .multi) {ok : Bool}
    (returns : r.protoExecCommand c = .ok (ok, c', r')) : r'.Idle laws := by
  obtain ⟨proto, sends, rfl⟩ := protoExecCommand_returns returns
  obtain ⟨mirrors, ends⟩ := idle.mirrors.execCommand small (RedisProtocol.quiet_of_status status _)
    sends
  have names := names_requestOf c
  have after (alive : r.proto.tcpClient.fd ≠ -1) : laws.queue (server.handle
      r.proto.tcpClient.os.peer.state (requestOf c)).2 = none :=
    laws.outside _ _ (fun named => multi ((names .multi (by decide)).mp named))
      (queue_none idle.mirrors alive idle.mode)
  refine ⟨mirrors, ?_, idle.empty⟩
  change proto.transactionMode = false
  rcases ends with ⟨-, text, rfl⟩ | exchanges
  · exact idle.mode
  · cases exchanges with
    | lost valid fd mode => exact mode
    | accepted synced alive fd mode state accepts =>
      rw [mirrors.mode (by omega), state]
      change Option.isSome _ = false
      rw [after (by omega)]
      rfl
    | refused valid alive fd mode state unread refuses => exact mode.trans idle.mode

/-- Outside a transaction, a connection that is looked at, made or missed leaves none open. -/
theorem Idle.assured {r : Redis2 (Endpoint server)} (idle : r.Idle laws) {ok : Bool} {status : Int}
    {proto : RedisProtocol (Endpoint server)}
    (returns : r.proto.assureConnect = (ok, status, proto)) :
    ({ r with proto := proto } : Redis2 (Endpoint server)).Idle laws := by
  rcases RedisProtocol.assureConnect_cases idle.mirrors.synced.valid with
    ⟨p, same, -, -, looks, -⟩ | ⟨ok₁, status₁, p, same, -, -, shuts⟩ | ⟨p, same, -, opens⟩
  · cases returns.symm.trans same
    exact ⟨looks.mirrors idle.mirrors, looks.mode.trans idle.mode, idle.empty⟩
  · cases returns.symm.trans same
    refine ⟨shuts.mirrors idle.mode, ?_, idle.empty⟩
    rcases shuts.mode with kept | off
    · exact kept.trans idle.mode
    · exact off
  · cases returns.symm.trans same
    exact ⟨opens.mirrors idle.mode, opens.mode.trans idle.mode, idle.empty⟩

/-- `select` leaves no transaction open, and when it succeeds the database is selected. -/
theorem Idle.select {r r' : Redis2 (Endpoint server)} (idle : r.Idle laws) {index : Int32}
    {ok : Bool} (returns : r.select index = .ok (ok, r')) :
    r'.Idle laws ∧ (ok = true → r'.dbIndexSelectFailure = false) := by
  rcases assured : r.proto.assureConnect with ⟨connected, status, proto⟩
  have idle₁ := idle.assured assured
  rw [Redis2.select, assured] at returns
  cases connected with
  | false =>
    cases returns
    exact ⟨idle₁, by simp⟩
  | true =>
    change Redis2.selectConnected { r with proto := proto } index = _ at returns
    obtain ⟨answered, c', proto', sends, ends⟩ := selectConnected_returns returns
    have idle₂ : ({ r with proto := proto' } : Redis2 (Endpoint server)).Idle laws := by
      have other : (selectCommand index).command ≠ .multi := by
        change Command.select ≠ .multi
        decide
      apply idle₁.protoExecCommand (selectCommand_small index) rfl other
      rw [Redis2.protoExecCommand]
      change (proto.execCommand (selectCommand index) >>= _) = _
      rw [sends]
      rfl
    rcases ends with ⟨-, failed, rfl⟩ | ⟨-, -, text, rfl⟩
    · exact ⟨idle₂, fun wrong => absurd (failed.symm.trans wrong) (by decide)⟩
    · refine ⟨⟨idle₂.mirrors.error text, idle₂.mode, idle₂.empty⟩, fun good => ?_⟩
      rw [good]
      rfl

/-- The database is selected if that is due, and no transaction is opened. -/
theorem Idle.assureDatabase {r r' : Redis2 (Endpoint server)} (idle : r.Idle laws) {ok : Bool}
    (returns : r.assureDatabase = .ok (ok, r')) :
    r'.Idle laws ∧ (ok = true → r'.dbIndex = 0 ∨ r'.dbIndexSelectFailure = false) := by
  rw [Redis2.assureDatabase] at returns
  by_cases due : (r.dbIndex != 0 && r.dbIndexSelectFailure) = true
  · rw [if_pos due] at returns
    obtain ⟨idle', selected⟩ := idle.select returns
    exact ⟨idle', fun good => Or.inr (selected good)⟩
  · rw [if_neg due] at returns
    cases returns
    refine ⟨idle, fun _ => ?_⟩
    by_cases first : r.dbIndex = 0
    · exact Or.inl first
    · exact Or.inr (by simpa [first] using due)

/-- `assure_connect` keeps the commands those queued, if it makes no new connection inside a
transaction. -/
theorem MirrorsQueue.assureConnect {r r' : Redis2 (Endpoint server)} (mirrors : r.MirrorsQueue laws)
    (kept : r.proto.isOpen.1 = true ∨ r.proto.transactionMode = false) {ok : Bool}
    (returns : r.assureConnect = .ok (ok, r')) :
    r'.MirrorsQueue laws ∧ (ok = true → r'.dbIndex = 0 ∨ r'.dbIndexSelectFailure = false) ∧
      (r.proto.transactionMode = false → r'.proto.transactionMode = false) ∧
      (ok = true → r'.proto.transactionMode = false → r'.Idle laws) := by
  rw [Redis2.assureConnect] at returns
  rcases RedisProtocol.assureConnect_cases mirrors.mirrors.synced.valid with
    ⟨p, same, -, alive, looks, -⟩ | ⟨connected, status, p, same, one, found, shuts⟩ |
    ⟨p, same, found, opens⟩
  · rw [same] at returns
    change Redis2.assureDatabase { r with proto := p } = _ at returns
    have alive' : p.tcpClient.fd ≠ -1 := by
      rw [looks.fd]
      exact alive
    have mirrors₁ : ({ r with proto := p } : Redis2 (Endpoint server)).MirrorsQueue laws := by
      refine ⟨looks.mirrors mirrors.mirrors, fun _ => ?_, fun mode => ?_⟩
      · change List.Forall₂ QueuedAs r.transactionCmds
          ((laws.queue p.tcpClient.os.peer.state).getD [])
        rw [looks.peer]
        exact mirrors.queue alive
      · exact mirrors.database (looks.mode.symm.trans mode)
    cases mode : r.proto.transactionMode with
    | false =>
      obtain ⟨idle, ready⟩ := (mirrors₁.idle alive' (looks.mode.trans mode)).assureDatabase returns
      exact ⟨idle.mirrorsQueue, ready, fun _ => idle.mode, fun _ _ => idle⟩
    | true =>
      have ready := mirrors.database mode
      have notDue : ¬ (r.dbIndex != 0 && r.dbIndexSelectFailure) = true := by
        rcases ready with first | selected
        · simp [first]
        · simp [selected]
      have stays : Redis2.assureDatabase { r with proto := p } = .ok (true, { r with proto := p }) :=
        if_neg notDue
      cases returns.symm.trans stays
      have on : p.transactionMode = true := looks.mode.trans mode
      exact ⟨mirrors₁, fun _ => ready, by simp, fun _ off => absurd (on.symm.trans off) (by decide)⟩
  · have mode := kept.resolve_left (by simp [found])
    rw [same] at returns
    cases connected with
    | false =>
      cases returns
      have off : p.transactionMode = false := shuts.mode.elim (fun kept => kept.trans mode) id
      refine ⟨⟨shuts.mirrors mode, fun alive => absurd shuts.fd alive, fun wrong => ?_⟩, by simp,
        fun _ => off, by simp⟩
      exact absurd (off.symm.trans wrong) (by decide)
    | true =>
      rw [one rfl] at returns
      change Redis2.assureDatabase (Redis2.onReset { r with proto := p }) = _ at returns
      have idle : (Redis2.onReset { r with proto := p }).Idle laws :=
        ⟨shuts.mirrors mode, shuts.mode.elim (fun kept => kept.trans mode) id, rfl⟩
      obtain ⟨idle', ready⟩ := idle.assureDatabase returns
      exact ⟨idle'.mirrorsQueue, ready, fun _ => idle'.mode, fun _ _ => idle'⟩
  · have mode := kept.resolve_left (by simp [found])
    rw [same] at returns
    change Redis2.assureDatabase (Redis2.onReset { r with proto := p }) = _ at returns
    have idle : (Redis2.onReset { r with proto := p }).Idle laws :=
      ⟨opens.mirrors mode, opens.mode.trans mode, rfl⟩
    obtain ⟨idle', ready⟩ := idle.assureDatabase returns
    exact ⟨idle'.mirrorsQueue, ready, fun _ => idle'.mode, fun _ _ => idle'⟩

/-- A text in `error_` is no part of what is mirrored. -/
theorem MirrorsQueue.error {r : Redis2 (Endpoint server)} (mirrors : r.MirrorsQueue laws)
    (text : Bytes) :
    ({ r with proto := { r.proto with error := text } } : Redis2 (Endpoint server)).MirrorsQueue
      laws :=
  ⟨mirrors.mirrors.error text, mirrors.queue, mirrors.database⟩

/-- `check_connect` looks at the connection. -/
theorem MirrorsQueue.checkConnect {r : Redis2 (Endpoint server)} (mirrors : r.MirrorsQueue laws) :
    ∃ connected proto, r.checkConnect = (connected, { r with proto := proto }) ∧
      ({ r with proto := proto } : Redis2 (Endpoint server)).MirrorsQueue laws ∧
      proto.transactionMode = r.proto.transactionMode ∧
      proto.tcpClient.os.peer = r.proto.tcpClient.os.peer ∧
      (connected = true → proto.tcpClient.fd ≠ -1) := by
  obtain ⟨found, p, shows, looks, alive, -⟩ :=
    RedisProtocol.isOpen_cases mirrors.mirrors.synced.valid
  have looked : ({ r with proto := p } : Redis2 (Endpoint server)).MirrorsQueue laws := by
    refine ⟨looks.mirrors mirrors.mirrors, fun alive => ?_, fun mode => ?_⟩
    · change List.Forall₂ QueuedAs r.transactionCmds ((laws.queue p.tcpClient.os.peer.state).getD [])
      have before : r.proto.tcpClient.fd ≠ -1 := by
        rw [← looks.fd]
        exact alive
      rw [looks.peer]
      exact mirrors.queue before
    · exact mirrors.database (looks.mode.symm.trans mode)
  rw [Redis2.checkConnect, RedisProtocol.checkConnect, shows]
  cases found with
  | true =>
    have alive' : p.tcpClient.fd ≠ -1 := by
      rw [looks.fd]
      exact (alive rfl).2
    exact ⟨true, p, rfl, looked, looks.mode, looks.peer, fun _ => alive'⟩
  | false => exact ⟨false, _, rfl, looked.error _, looks.mode, looks.peer, by simp⟩

/-- Inside a transaction every command but EXEC and DISCARD is queued, or answered by an error. -/
theorem queued_or_error (laws : TransactionQueue server) {state : σ} {args : List Bytes}
    (exec : commandOf args ≠ .exec) (discard : commandOf args ≠ .discard)
    {queued : List (List Bytes)} (inside : laws.queue state = some queued) :
    ((∃ text, (server.handle state args).1 = .status text) ∧
      laws.queue (server.handle state args).2 = some (queued ++ [args])) ∨
    ((∃ text, (server.handle state args).1 = .error text) ∧
      laws.queue (server.handle state args).2 = some queued) := by
  by_cases multi : commandOf args = .multi
  · rcases laws.multi state args multi with ⟨outside, -, -⟩ | ⟨error, same⟩
    · rw [inside] at outside
      cases outside
    · exact Or.inr ⟨error, same.trans inside⟩
  · by_cases watch : commandOf args = .watch
    · exact Or.inr (laws.watch state args watch inside)
    · exact laws.queues state args multi discard exec watch inside

/-- A command sent inside a transaction: it is appended exactly when the server queues it. -/
theorem MirrorsQueue.queues {r : Redis2 (Endpoint server)} (mirrors : r.MirrorsQueue laws)
    (mode : r.proto.transactionMode = true) {c : RedisCommand} {args : List Bytes}
    (exec : commandOf args ≠ .exec) (discard : commandOf args ≠ .discard) {ok : Bool}
    {c' : RedisCommand} {proto : RedisProtocol (Endpoint server)}
    (mirrors' : proto.Mirrors laws.transactions)
    (exchanges : RedisProtocol.Exchanges r.proto c
      (server.handle r.proto.tcpClient.os.peer.state args).1
      (server.handle r.proto.tcpClient.os.peer.state args).2 (.ok (ok, c', proto)))
    (queuedAs : ok = true → QueuedAs c' args) :
    ({ r with
        proto := proto
        transactionCmds := if ok then r.transactionCmds ++ [c'] else r.transactionCmds } :
      Redis2 (Endpoint server)).MirrorsQueue laws := by
  obtain ⟨alive, queued, inside⟩ := queue_some mirrors.mirrors mode
  have before : List.Forall₂ QueuedAs r.transactionCmds queued := by
    have all := mirrors.queue alive
    rw [inside] at all
    exact all
  have ready := mirrors.database mode
  cases exchanges with
  | lost valid fd => exact ⟨mirrors', fun alive => absurd fd alive, fun _ => ready⟩
  | accepted synced alive fd mode' state accepts =>
    refine ⟨mirrors', fun _ => ?_, fun _ => ready⟩
    have readable := accepts.readable
    rcases queued_or_error laws exec discard inside with ⟨-, more⟩ | ⟨⟨text, error⟩, -⟩
    · rw [state, more]
      exact List.rel_append before (List.Forall₂.cons (queuedAs rfl) List.Forall₂.nil)
    · rw [error] at readable
      cases readable
  | @refused out _ left valid alive fd mode' state unread refuses =>
    refine ⟨mirrors', fun _ => ?_, fun _ => ready⟩
    rcases queued_or_error laws exec discard inside with ⟨⟨text, status⟩, -⟩ | ⟨-, same⟩
    · rw [status] at refuses
      exact absurd refuses (RedisProtocol.not_refuses (by simp) (by simp [IsArray]) left)
    · rw [state, same]
      exact before

/-- The reply to a command sent inside a transaction is one line. -/
theorem MirrorsQueue.quiet {r : Redis2 (Endpoint server)} (mirrors : r.MirrorsQueue laws)
    (mode : r.proto.transactionMode = true) {c : RedisCommand} {args : List Bytes}
    (names : Names args c) (exec : commandOf args ≠ .exec) (discard : commandOf args ≠ .discard) :
    RedisProtocol.QuietReply r.proto c
      (server.handle r.proto.tcpClient.os.peer.state args).1 := by
  obtain ⟨-, queued, inside⟩ := queue_some mirrors.mirrors mode
  have line := queued_or_error laws exec discard inside
  apply RedisProtocol.quiet_of_line (line.imp And.left And.left)
  intro isExec
  exact absurd ((names .exec (by decide)).mpr isExec) exec

/-- `multi` keeps the commands those queued. -/
theorem MirrorsQueue.multi {r r' : Redis2 (Endpoint server)} (mirrors : r.MirrorsQueue laws)
    (kept : r.proto.isOpen.1 = true ∨ r.proto.transactionMode = false) {ok : Bool}
    (returns : r.multi = .ok (ok, r')) : r'.MirrorsQueue laws := by
  obtain ⟨connected, r₁, assures, ends⟩ := statusOkMethod_returns returns
  obtain ⟨mirrors₁, ready, -, -⟩ := mirrors.assureConnect kept assures
  rcases ends with ⟨-, rfl⟩ | ⟨good, sent, c', r₂, text, executes, rfl⟩
  · exact mirrors₁
  apply MirrorsQueue.error
  obtain ⟨proto, sends, rfl⟩ := protoExecCommand_returns executes
  have names := names_requestOf (.new .multi)
  obtain ⟨mirrors', refused | exchanges⟩ := mirrors₁.mirrors.execCommand (by decide +kernel)
    (RedisProtocol.quiet_of_status rfl _) sends
  · obtain ⟨-, text, rfl⟩ := refused
    exact mirrors₁.error text
  have law := laws.multi r₁.proto.tcpClient.os.peer.state _ ((names .multi (by decide)).mpr rfl)
  cases exchanges with
  | lost valid fd => exact ⟨mirrors', fun alive => absurd fd alive, fun _ => ready good⟩
  | accepted synced alive fd mode state accepts =>
    refine ⟨mirrors', fun _ => ?_, fun _ => ready good⟩
    have readable := accepts.readable
    rcases law with ⟨outside, -, begun⟩ | ⟨⟨text, error⟩, -⟩
    · have queue := mirrors₁.queue (by omega)
      rw [outside] at queue
      rw [state, begun]
      exact queue
    · rw [error] at readable
      cases readable
  | @refused out _ left valid alive fd mode state unread refuses =>
    refine ⟨mirrors', fun _ => ?_, fun _ => ready good⟩
    rcases law with ⟨-, ⟨text, status⟩, -⟩ | ⟨-, same⟩
    · rw [status] at refuses
      exact absurd refuses (RedisProtocol.not_refuses (by simp) (by simp [IsArray]) left)
    · rw [state, same]
      exact mirrors₁.queue (by omega)

/-- `watch` keeps the commands those queued: inside a transaction it is refused. -/
theorem MirrorsQueue.watch {r r' : Redis2 (Endpoint server)} (mirrors : r.MirrorsQueue laws)
    (kept : r.proto.isOpen.1 = true ∨ r.proto.transactionMode = false) {keys : List Bytes}
    (small : (commandText ((RedisCommand.new .watch).pushArgs keys)).length < 2 ^ 31) {ok : Bool}
    (returns : r.watch keys = .ok (ok, r')) : r'.MirrorsQueue laws := by
  obtain ⟨connected, r₁, assures, ends⟩ := statusOkMethod_returns returns
  obtain ⟨mirrors₁, ready, -, idle⟩ := mirrors.assureConnect kept assures
  rcases ends with ⟨-, rfl⟩ | ⟨good, sent, c', r₂, text, executes, rfl⟩
  · exact mirrors₁
  apply MirrorsQueue.error
  cases mode : r₁.proto.transactionMode with
  | false =>
    have after := (idle good mode).protoExecCommand small rfl (by simp [RedisCommand.pushArgs,
      RedisCommand.new]) executes
    exact after.mirrorsQueue
  | true =>
    obtain ⟨proto, sends, rfl⟩ := protoExecCommand_returns executes
    have names := names_requestOf ((RedisCommand.new .watch).pushArgs keys)
    have isWatch := (names .watch (by decide)).mpr rfl
    obtain ⟨mirrors', refused | exchanges⟩ := mirrors₁.mirrors.execCommand small
      (RedisProtocol.quiet_of_status rfl _) sends
    · obtain ⟨-, text, rfl⟩ := refused
      exact mirrors₁.error text
    have notSent : sent = false := by
      cases exchanges with
      | lost => rfl
      | accepted synced alive fd mode' state accepts =>
        have readable := accepts.readable
        obtain ⟨-, queued, inside⟩ := queue_some mirrors₁.mirrors mode
        obtain ⟨⟨text, error⟩, -⟩ := laws.watch _ _ isWatch inside
        rw [error] at readable
        cases readable
      | refused => rfl
    subst notSent
    exact mirrors₁.queues mode (by simp [isWatch]) (by simp [isWatch]) mirrors' exchanges (by simp)

/-- `unwatch` keeps the commands those queued outside a transaction. -/
theorem MirrorsQueue.unwatch {r r' : Redis2 (Endpoint server)} (mirrors : r.MirrorsQueue laws)
    (outside : r.proto.transactionMode = false) {ok : Bool} (returns : r.unwatch = .ok (ok, r')) :
    r'.MirrorsQueue laws := by
  obtain ⟨connected, r₁, assures, ends⟩ := statusOkMethod_returns returns
  obtain ⟨mirrors₁, -, mode, idle⟩ := mirrors.assureConnect (Or.inr outside) assures
  rcases ends with ⟨-, rfl⟩ | ⟨good, sent, c', r₂, text, executes, rfl⟩
  · exact mirrors₁
  have after := (idle good (mode outside)).protoExecCommand (by decide +kernel) rfl (by decide)
    executes
  exact after.mirrorsQueue.error text

/-- `add_command` inside a transaction keeps the commands those queued. -/
theorem MirrorsQueue.addCommand {r r' : Redis2 (Endpoint server)} (mirrors : r.MirrorsQueue laws)
    (mode : r.proto.transactionMode = true) {command : RedisCommand}
    (exec : command.command ≠ .exec) (discard : command.command ≠ .discard)
    (small : (commandText command).length < 2 ^ 31) {ok : Bool}
    (returns : r.addCommand command = .ok (ok, r')) : r'.MirrorsQueue laws := by
  obtain ⟨connected, proto₁, checks, mirrors₁, mode₁, peer, alive⟩ := mirrors.checkConnect
  rw [Redis2.addCommand, checks] at returns
  cases connected with
  | false =>
    cases returns
    exact mirrors₁
  | true =>
    obtain ⟨⟨sent, c', r₂⟩, executes, ends⟩ := bind_returns returns
    obtain ⟨proto, sends, rfl⟩ := protoExecCommand_returns executes
    have names := names_requestOf command
    have notExec : commandOf (requestOf command) ≠ .exec :=
      fun named => exec ((names .exec (by decide)).mp named)
    have notDiscard : commandOf (requestOf command) ≠ .discard :=
      fun named => discard ((names .discard (by decide)).mp named)
    obtain ⟨mirrors', refused | exchanges⟩ := mirrors₁.mirrors.execCommand small
      (mirrors₁.quiet (mode₁.trans mode) names notExec notDiscard) sends
    · obtain ⟨rfl, text, rfl⟩ := refused
      cases ends
      exact mirrors₁.error text
    have after := mirrors₁.queues (mode₁.trans mode) notExec notDiscard mirrors' exchanges
      (fun good => by
        subst good
        obtain ⟨out, rfl⟩ := exchanges.command
        exact Or.inl rfl)
    cases sent with
    | false =>
      cases ends
      exact after
    | true =>
      cases ends
      exact after

/-- So does `add_command` with a format. -/
theorem MirrorsQueue.addCommandv {r r' : Redis2 (Endpoint server)} (mirrors : r.MirrorsQueue laws)
    (mode : r.proto.transactionMode = true) {command : RedisCommand} {buf : Bytes}
    (exec : commandOf (RedisProtocol.splitWords buf) ≠ .exec)
    (discard : commandOf (RedisProtocol.splitWords buf) ≠ .discard)
    (small : (RedisProtocol.commandvText (RedisProtocol.splitWords buf)).length < 2 ^ 31) {ok : Bool}
    (returns : r.addCommandv command buf = .ok (ok, r')) : r'.MirrorsQueue laws := by
  obtain ⟨connected, proto₁, checks, mirrors₁, mode₁, peer, alive⟩ := mirrors.checkConnect
  rw [Redis2.addCommandv, checks] at returns
  cases connected with
  | false =>
    cases returns
    exact mirrors₁
  | true =>
    obtain ⟨⟨sent, c', r₂⟩, executes, ends⟩ := bind_returns returns
    obtain ⟨proto, sends, rfl⟩ := protoExecCommandv_returns executes
    obtain ⟨mirrors', refused | exchanges⟩ := mirrors₁.mirrors.execCommandv small
      (mirrors₁.quiet (mode₁.trans mode) (names_commandvOf command buf) exec discard) sends
    · obtain ⟨rfl, text, rfl⟩ := refused
      cases ends
      exact mirrors₁.error text
    have after := mirrors₁.queues (mode₁.trans mode) exec discard mirrors' exchanges
      (fun good => by
        subst good
        obtain ⟨out, rfl⟩ := exchanges.command
        exact Or.inr ⟨rfl, rfl⟩)
    cases sent with
    | false =>
      cases ends
      exact after
    | true =>
      cases ends
      exact after

/-- How `exec` ends on a connection: the commands are answered and taken away if there is an element
for each. -/
theorem exec_returns {π : Type} [Peer π] {r r' r₁ : Redis2 π}
    {commands : Option (List RedisCommand)} (checks : r.checkConnect = (true, r₁))
    (returns : r.exec = .ok (commands, r')) :
    ∃ sent c' proto, r₁.proto.execCommand (.new .exec) = .ok (sent, c', proto) ∧
      ((∃ elements, sent = true ∧ c'.out = .smbulks elements ∧
        elements.length = r₁.transactionCmds.length ∧
        commands = some (List.zipWith answered r₁.transactionCmds elements) ∧
        r' = { r₁ with proto := proto, transactionCmds := [] }) ∨
      ((∀ elements, sent = true → c'.out = .smbulks elements →
          elements.length ≠ r₁.transactionCmds.length) ∧ commands = none ∧
        ∃ text, r' = { r₁ with proto := { proto with error := text } })) := by
  rw [Redis2.exec, checks] at returns
  obtain ⟨⟨sent, c', r₂⟩, executes, ends⟩ := bind_returns returns
  obtain ⟨proto, sends, rfl⟩ := protoExecCommand_returns executes
  refine ⟨sent, c', proto, sends, ?_⟩
  cases sent with
  | false =>
    have fails : (.ok (none, { r₁ with proto := proto }) : Except Abort _) = .ok (commands, r') :=
      ends
    cases fails
    exact Or.inr ⟨fun _ wrong => absurd wrong (by decide), rfl, _, rfl⟩
  | true =>
    obtain ⟨text, reports⟩ := onReplyTypeError_eq { r₁ with proto := proto } c'
    cases shape : c'.out.getSmbulks with
    | none =>
      simp only [shape, reports] at ends
      obtain ⟨rfl, rfl⟩ := Prod.mk.inj (Except.ok.inj ends)
      refine Or.inr ⟨fun elements _ smbulks => ?_, rfl, text, rfl⟩
      rw [smbulks] at shape
      cases shape
    | some elements =>
      have out : c'.out = .smbulks elements := by
        cases output : c'.out with
        | smbulks inner =>
          rw [output] at shape
          cases shape
          rfl
        | _ =>
          rw [output] at shape
          cases shape
      simp only [shape, reports] at ends
      by_cases each : elements.length = r₁.transactionCmds.length
      · have takes : (.ok (some (List.zipWith answered r₁.transactionCmds elements),
            { r₁ with proto := proto, transactionCmds := [] }) : Except Abort _) =
            .ok (commands, r') := (if_pos each).symm.trans ends
        cases takes
        exact Or.inl ⟨elements, rfl, out, each, rfl, rfl⟩
      · have fails : (.ok (none, { r₁ with proto := { proto with error := text } }) :
            Except Abort _) = .ok (commands, r') := (if_neg each).symm.trans ends
        cases fails
        refine Or.inr ⟨fun others _ smbulks => ?_, rfl, text, rfl⟩
        cases out.symm.trans smbulks
        exact each

/-- `exec` takes the commands away with the transaction, if it is answered by an element for each. -/
theorem MirrorsQueue.exec {r r' : Redis2 (Endpoint server)} (mirrors : r.MirrorsQueue laws)
    (answers : r.proto.transactionMode = true → ∃ elements,
      (server.handle r.proto.tcpClient.os.peer.state (requestOf (.new .exec))).1 = .array elements ∧
      Readable (.array elements) ∧ elements.length = r.transactionCmds.length)
    {commands : Option (List RedisCommand)} (returns : r.exec = .ok (commands, r')) :
    r'.MirrorsQueue laws := by
  obtain ⟨connected, proto₁, checks, mirrors₁, mode₁, peer, alive⟩ := mirrors.checkConnect
  cases connected with
  | false =>
    rw [Redis2.exec, checks] at returns
    cases returns
    exact mirrors₁
  | true =>
    have names := names_requestOf (.new .exec)
    have law := laws.exec proto₁.tcpClient.os.peer.state _ ((names .exec (by decide)).mpr rfl)
    rw [← peer, ← mode₁] at answers
    obtain ⟨sent, c', proto, sends, ends⟩ := exec_returns checks returns
    have outside (mode : proto₁.transactionMode = false) :=
      law.2 (queue_none mirrors₁.mirrors (alive rfl) mode)
    have quiet : RedisProtocol.QuietReply proto₁ (.new .exec)
        (server.handle proto₁.tcpClient.os.peer.state (requestOf (.new .exec))).1 := by
      cases mode : proto₁.transactionMode with
      | true =>
        obtain ⟨elements, array, readable, -⟩ := answers mode
        rw [array]
        rintro left (⟨text, wrong, -⟩ | ⟨-, -, meets⟩)
        · cases wrong
        · exact absurd meets readable.not_meets
      | false => exact RedisProtocol.quiet_of_line (Or.inr (outside mode)) fun _ => mode
    obtain ⟨mirrors', refused | exchanges⟩ :=
      mirrors₁.mirrors.execCommand (by decide +kernel) quiet sends
    · obtain ⟨rfl, text, rfl⟩ := refused
      rcases ends with ⟨-, wrong, -⟩ | ⟨-, -, text', rfl⟩
      · cases wrong
      · exact mirrors₁.error text'
    cases exchanges with
    | lost valid fd off =>
      rcases ends with ⟨-, wrong, -⟩ | ⟨-, -, text, rfl⟩
      · cases wrong
      · refine ⟨mirrors'.error text, fun alive => absurd fd alive, fun on => ?_⟩
        exact absurd (off.symm.trans on) (by decide)
    | accepted synced alive₁ fd mode state accepts =>
      have off : proto.transactionMode = false := by
        rw [mirrors'.mode (by omega), state]
        change Option.isSome _ = false
        rw [law.1]
        rfl
      have readable := accepts.readable
      cases before : proto₁.transactionMode with
      | true =>
        obtain ⟨elements, array, -, each⟩ := answers before
        rcases ends with ⟨-, -, -, -, -, rfl⟩ | ⟨differs, -⟩
        · have idle : ({ r with proto := proto, transactionCmds := [] } :
              Redis2 (Endpoint server)).Idle laws := ⟨mirrors', off, rfl⟩
          exact idle.mirrorsQueue
        · refine absurd ?_ (differs (denoteAll elements) rfl ?_)
          · rw [denoteAll_eq_map, List.length_map]
            exact each
          · rw [array, RedisProtocol.replyType_exec rfl]
            rfl
      | false =>
        obtain ⟨text, error⟩ := outside before
        rw [error] at readable
        cases readable
    | @refused out _ left valid alive₁ fd mode state unread refuses =>
      cases before : proto₁.transactionMode with
      | true =>
        have quiet' := (quiet left refuses).2 rfl
        exact absurd (before.symm.trans quiet') (by decide)
      | false =>
        rcases ends with ⟨-, wrong, -⟩ | ⟨-, -, text, rfl⟩
        · cases wrong
        · have idle : ({ r with proto := proto } : Redis2 (Endpoint server)).Idle laws :=
            ⟨mirrors', mode.trans before, (mirrors₁.idle (alive rfl) before).empty⟩
          exact idle.mirrorsQueue.error text

/-- `discard` takes the commands away with the transaction. -/
theorem MirrorsQueue.discard {r r' : Redis2 (Endpoint server)} (mirrors : r.MirrorsQueue laws)
    {ok : Bool} (returns : r.discard = .ok (ok, r')) : r'.MirrorsQueue laws := by
  obtain ⟨connected, proto₁, checks, mirrors₁, mode₁, peer, alive⟩ := mirrors.checkConnect
  rw [Redis2.discard, checks] at returns
  cases connected with
  | false =>
    cases returns
    exact mirrors₁
  | true =>
    obtain ⟨⟨sent, c', r₂⟩, executes, ends⟩ := bind_returns returns
    obtain ⟨proto, sends, rfl⟩ := protoExecCommand_returns executes
    have names := names_requestOf (.new .discard)
    have law := laws.discard proto₁.tcpClient.os.peer.state _
      ((names .discard (by decide)).mpr rfl)
    obtain ⟨mirrors', refused | exchanges⟩ := mirrors₁.mirrors.execCommand (by decide +kernel)
      (RedisProtocol.quiet_of_status rfl _) sends
    · obtain ⟨rfl, text, rfl⟩ := refused
      cases ends
      exact mirrors₁.error text
    cases exchanges with
    | lost valid fd off =>
      cases ends
      refine ⟨mirrors', fun alive => absurd fd alive, fun on => ?_⟩
      exact absurd (off.symm.trans on) (by decide)
    | accepted synced alive₁ fd mode state accepts =>
      have readable := accepts.readable
      rcases law with ⟨status, ended⟩ | ⟨⟨text, error⟩, -⟩
      · have off : proto.transactionMode = false := by
          rw [mirrors'.mode (by omega), state]
          change Option.isSome _ = false
          rw [ended]
          rfl
        have idle : ({ r with proto := proto, transactionCmds := [] } :
            Redis2 (Endpoint server)).Idle laws := ⟨mirrors', off, rfl⟩
        have takes : (.ok (true, { r with proto := proto, transactionCmds := [] }) :
            Except Abort _) = .ok (ok, r') := by
          rw [status, RedisProtocol.replyType_status rfl] at ends
          exact ends
        cases takes
        exact idle.mirrorsQueue
      · rw [error] at readable
        cases readable
    | @refused out _ left valid alive₁ fd mode state unread refuses =>
      cases ends
      refine ⟨mirrors', fun _ => ?_, fun on => mirrors₁.database (mode.symm.trans on)⟩
      rcases law with ⟨status, -⟩ | ⟨-, same⟩
      · rw [status] at refuses
        exact absurd refuses (RedisProtocol.not_refuses (by simp) (by simp [IsArray]) left)
      · rw [state, same]
        exact mirrors₁.queue (alive rfl)

/-- One step: an operation that keeps the queue leaves the commands those that the server has
queued. -/
theorem MirrorsQueue.step {r r' : Redis2 (Endpoint server)} {operation : Operation}
    (mirrors : r.MirrorsQueue laws) (performs : r.perform operation = .ok r')
    (keeps : operation.KeepsQueue r) : r'.MirrorsQueue laws := by
  cases operation with
  | multi =>
    obtain ⟨⟨ok, r₁⟩, returns, rfl⟩ := map_returns performs
    exact mirrors.multi keeps returns
  | addCommand command =>
    obtain ⟨⟨ok, r₁⟩, returns, rfl⟩ := map_returns performs
    obtain ⟨mode, exec, discard, small⟩ := keeps
    exact mirrors.addCommand mode exec discard small returns
  | addCommandv command buf =>
    obtain ⟨⟨ok, r₁⟩, returns, rfl⟩ := map_returns performs
    obtain ⟨mode, exec, discard, small⟩ := keeps
    exact mirrors.addCommandv mode exec discard small returns
  | watch keys =>
    obtain ⟨⟨ok, r₁⟩, returns, rfl⟩ := map_returns performs
    exact mirrors.watch keeps.1 keeps.2 returns
  | unwatch =>
    obtain ⟨⟨ok, r₁⟩, returns, rfl⟩ := map_returns performs
    exact mirrors.unwatch keeps returns
  | exec =>
    obtain ⟨⟨commands, r₁⟩, returns, rfl⟩ := map_returns performs
    exact mirrors.exec keeps returns
  | discard =>
    obtain ⟨⟨ok, r₁⟩, returns, rfl⟩ := map_returns performs
    exact mirrors.discard returns

/-- In every run from a new client whose operations keep the queue, on an open connection nothing is
outstanding and the remembered commands are those that the server has queued, in order. -/
theorem transactionCmds_mirrors (laws : TransactionQueue server) (host port : Bytes)
    (dbIndex : Int32) (timeout : Int) {os : Os (Endpoint server)} (silent : os.incoming = [])
    {operations : List Operation} {r : Redis2 (Endpoint server)}
    (run : Simulation.Run (fun r operation r' => r.perform operation = .ok r' ∧
      operation.KeepsQueue r) (new host port dbIndex timeout os) operations r)
    (alive : r.proto.tcpClient.fd ≠ -1) :
    r.proto.stream = [] ∧
      List.Forall₂ QueuedAs r.transactionCmds
        ((laws.queue r.proto.tcpClient.os.peer.state).getD []) ∧
      (laws.queue r.proto.tcpClient.os.peer.state = none → r.transactionCmds = []) := by
  have start : (new host port dbIndex timeout os).MirrorsQueue laws := by
    have closed : (RedisProtocol.new host port timeout os).Mirrors laws.transactions :=
      .of_closed (TcpClient.closed_valid rfl TcpClientBuffer.new_valid TcpClientBuffer.new_unread
        silent) rfl rfl
    have idle : (new host port dbIndex timeout os).Idle laws := ⟨closed, rfl, rfl⟩
    exact idle.mirrorsQueue
  have mirrors := run.invariant (fun r operation r' mirrors step => mirrors.step step.1 step.2) start
  have queue := mirrors.queue alive
  refine ⟨mirrors.mirrors.synced.stream alive, queue, fun outside => ?_⟩
  rw [outside] at queue
  exact List.forall₂_nil_right_iff.mp queue

/-- A server whose state is its queue. The flag tells whether the keys that are watched change
before every EXEC. -/
def queueServer (conflict : Bool) : Server (Option (List (List Bytes))) where
  fresh _ := none
  handle queue args :=
    match commandOf args, queue with
    | .multi, none => (.status (ascii "OK"), some [])
    | .multi, some queued => (.error (ascii "ERR"), some queued)
    | .discard, none => (.error (ascii "ERR"), none)
    | .discard, some _ => (.status (ascii "OK"), none)
    | .exec, none => (.error (ascii "ERR"), none)
    | .exec, some queued =>
      (if conflict then .nilArray else .array (queued.map fun _ => .status (ascii "OK")), none)
    | .watch, some queued => (.error (ascii "ERR"), some queued)
    | _, some queued => (.status (ascii "QUEUED"), some (queued ++ [args]))
    | _, none => (.status (ascii "OK"), none)

/-- It keeps the promises about queued commands. -/
def queueServerLaws (conflict : Bool) : TransactionQueue (queueServer conflict) where
  queue := id
  wellFormed queue args := by
    have ok : (Reply.status (ascii "OK")).WellFormed := .status (by decide)
    have queued : (Reply.status (ascii "QUEUED")).WellFormed := .status (by decide)
    have error : (Reply.error (ascii "ERR")).WellFormed := .error (by decide)
    simp only [queueServer]
    split
    · exact ok
    · exact error
    · exact error
    · exact ok
    · exact error
    · cases conflict
      · refine .array fun r member => ?_
        obtain ⟨-, -, rfl⟩ := List.mem_map.mp member
        exact ok
      · exact .nilArray
    · exact error
    · exact queued
    · exact ok
  fresh _ := rfl
  multi queue args named := by
    cases queue with
    | none =>
      simp only [queueServer, named]
      exact Or.inl ⟨rfl, ⟨_, rfl⟩, rfl⟩
    | some queued =>
      simp only [queueServer, named]
      exact Or.inr ⟨⟨_, rfl⟩, trivial⟩
  discard queue args named := by
    cases queue with
    | none =>
      simp only [queueServer, named]
      exact Or.inr ⟨⟨_, rfl⟩, trivial⟩
    | some queued =>
      simp only [queueServer, named]
      exact Or.inl ⟨trivial, rfl⟩
  exec queue args named := by
    cases queue with
    | none =>
      simp only [queueServer, named]
      exact ⟨rfl, fun _ => ⟨_, rfl⟩⟩
    | some queued =>
      simp only [queueServer, named]
      exact ⟨rfl, fun wrong => nomatch wrong⟩
  watch queue args named queued inside := by
    obtain rfl : queue = some queued := inside
    simp only [queueServer, named]
    exact ⟨⟨_, rfl⟩, rfl⟩
  queues queue args multi discard exec watch queued inside := by
    obtain rfl : queue = some queued := inside
    simp only [queueServer]
    exact Or.inl ⟨⟨_, rfl⟩, rfl⟩
  outside queue args multi outside := by
    obtain rfl : queue = none := outside
    cases named : commandOf args with
    | multi => exact absurd named multi
    | _ =>
      simp only [queueServer, named]
      rfl

/-- A client of such a server that has not connected yet. -/
def queueClient (conflict : Bool) : Redis2 (Endpoint (queueServer conflict)) :=
  new (ascii "localhost") (ascii "6379") 0 1000 (.start ⟨[], none⟩ [])

/-- `GET k`. -/
def getK : RedisCommand := ⟨.get, [ascii "k"], .none⟩

/-- A command is added, and EXEC is answered by an array: it is taken away with the transaction. -/
theorem transactionCmds_mirrors_exec : ∃ r : Redis2 (Endpoint (queueServer false)),
    r.proto.stream = [] ∧
      List.Forall₂ QueuedAs r.transactionCmds
        (((queueServerLaws false).queue r.proto.tcpClient.os.peer.state).getD []) ∧
      ((queueServerLaws false).queue r.proto.tcpClient.os.peer.state = none →
        r.transactionCmds = []) := by
  have shows₁ : ((queueClient false).perform .multi).toOption.map
      (fun r => r.proto.transactionMode) = some true := by decide +kernel
  obtain ⟨r₁, performs₁, mode₁⟩ := returned_of_view shows₁
  have shows₂ : ((queueClient false).perform .multi >>= fun r =>
      r.perform (.addCommand getK)).toOption.map (fun r =>
        (r.transactionCmds.length, r.proto.tcpClient.os.peer.state)) =
      some (1, some [[ascii "GET", ascii "k"]]) := by decide +kernel
  rw [performs₁] at shows₂
  obtain ⟨r₂, performs₂, seen⟩ := returned_of_view shows₂
  obtain ⟨each, state⟩ := Prod.mk.inj seen
  have shows₃ : ([.multi, .addCommand getK, .exec].foldlM perform (queueClient false)).toOption.map
      (fun r => r.proto.tcpClient.fd) = some 3 := by decide +kernel
  rw [List.foldlM_cons, performs₁] at shows₃
  change ((r₁.perform (.addCommand getK)) >>= _).toOption.map _ = _ at shows₃
  rw [show r₁.perform (.addCommand getK) = .ok r₂ from performs₂] at shows₃
  obtain ⟨r₃, performs₃, fd⟩ := returned_of_view shows₃
  obtain ⟨r₄, performs₃, same⟩ := bind_returns
    (show (r₂.perform .exec >>= fun r => pure r) = .ok r₃ from performs₃)
  cases same
  have keeps₂ : (Operation.addCommand getK).KeepsQueue r₁ :=
    ⟨mode₁, by decide, by decide, by decide +kernel⟩
  have keeps₃ : Operation.exec.KeepsQueue r₂ := by
    intro _
    have named : commandOf (requestOf (.new .exec)) = .exec :=
      (names_requestOf (.new .exec) .exec (by decide)).mpr rfl
    refine ⟨[.status (ascii "OK")], ?_, ?_, each.symm⟩
    · rw [state]
      simp only [queueServer, named]
      rfl
    · exact .array (by decide) fun r member => by
        rw [List.mem_singleton.mp member]
        exact .status _
  have run : Simulation.Run (fun r operation r' => perform r operation = .ok r' ∧
      operation.KeepsQueue r) (queueClient false) [.multi, .addCommand getK, .exec] r₃ :=
    .step ⟨performs₁, Or.inr rfl⟩ (.step ⟨performs₂, keeps₂⟩ (.step ⟨performs₃, keeps₃⟩ (.done r₃)))
  exact ⟨r₃, transactionCmds_mirrors (queueServerLaws false) _ _ _ _ rfl run (by simp [fd])⟩

/-- A command is added, and EXEC is answered by the nil array: it stays behind. -/
theorem transactionCmds_not_mirrors : ∃ r : Redis2 (Endpoint (queueServer true)),
    Simulation.Run (fun r operation r' => r.perform operation = .ok r') (queueClient true)
      [.multi, .addCommand getK, .exec] r ∧ r.proto.tcpClient.fd ≠ -1 ∧ r.proto.stream = [] ∧
    (queueServerLaws true).queue r.proto.tcpClient.os.peer.state = none ∧
    r.transactionCmds.length = 1 := by
  have shows : ([.multi, .addCommand getK, .exec].foldlM perform (queueClient true)).toOption.map
      (fun r => (r.proto.tcpClient.fd, r.proto.stream, r.proto.tcpClient.os.peer.state.isNone,
        r.transactionCmds.length)) = some (3, [], true, 1) := by decide +kernel
  obtain ⟨r, performs, seen⟩ := returned_of_view shows
  simp only [Prod.mk.injEq] at seen
  obtain ⟨fd, stream, state, each⟩ := seen
  exact ⟨r, Simulation.Run.of_foldlM performs, by simp [fd], stream,
    Option.isNone_iff_eq_none.mp state, each⟩

end Redis2

end LibRedis
