import LibRedis.ServerHistory
import LibRedis.TransactionQueue

/-!
# Transactions along any run

A transaction may end in many ways: EXEC is answered by the nil array because a watched key has
changed, or by an error, or the connection is lost. Behind some of them `transaction_cmds_` holds
commands of a transaction that is over. What holds in every run that sends nothing but `add_command`
inside a transaction is that the commands which the server has queued are the last of those
remembered. So `exec` returns commands only if they are all that the server had queued.
-/

namespace LibRedis

open Decimal (ascii)
open Resp (Reply)
open RedisProtocol (commandText requestOf Synced Exchanges)

variable {σ : Type} {server : Server σ}

namespace RedisProtocol

/-- How a command turns out over a server that answers whole. -/
inductive Outcome (p : RedisProtocol (Endpoint server)) (c : RedisCommand) (args : List Bytes) :
    Bool → RedisCommand → RedisProtocol (Endpoint server) → Prop
  /-- It is not sent. -/
  | unsent {c' : RedisCommand} (text : Bytes) : Outcome p c args false c' { p with error := text }
  /-- The connection is closed. -/
  | lost {c' : RedisCommand} {p' : RedisProtocol (Endpoint server)} (synced : p'.Synced)
      (closed : p'.tcpClient.fd = -1) : Outcome p c args false c' p'
  /-- The reply is accepted. -/
  | accepted {p' : RedisProtocol (Endpoint server)} (synced : p'.Synced)
      (alive : p.tcpClient.fd ≠ -1) (stays : p'.tcpClient.fd ≠ -1)
      (served : p'.served = (server.handle p.served args).2)
      (mode : p'.transactionMode =
        modeAfter true p.transactionMode c.command (server.handle p.served args).1)
      (accepts : Accepts (p.replyType c) (server.handle p.served args).1) :
      Outcome p c args true
        { c with out := denoteAs (p.replyType c) (server.handle p.served args).1 } p'
  /-- The reply is an error. -/
  | error {out : RedisOutput} {p' : RedisProtocol (Endpoint server)} (synced : p'.Synced)
      (alive : p.tcpClient.fd ≠ -1) (stays : p'.tcpClient.fd ≠ -1)
      (served : p'.served = (server.handle p.served args).2)
      (mode : p'.transactionMode = p.transactionMode) {text : Bytes}
      (reply : (server.handle p.served args).1 = .error text) :
      Outcome p c args false { c with out := out } p'

variable {p p' : RedisProtocol (Endpoint server)} {c c' : RedisCommand} {args : List Bytes}
  {ok : Bool}

/-- An exchange is one of them. -/
theorem outcome_of_exchanges (whole : AnswersWhole server)
    (exchanges : Exchanges p c (server.handle p.served args).1 (server.handle p.served args).2
      (.ok (ok, c', p'))) : Outcome p c args ok c' p' := by
  cases exchanges with
  | lost valid fd mode state reason => exact .lost (Valid.synced valid fd) fd
  | accepted synced alive fd mode state accepts =>
    exact .accepted synced (by omega) (by omega) state mode accepts
  | @refused out _ left valid alive fd mode state unread refuses =>
    have flat := (whole p.served args).2.refuses refuses
    have synced : p'.Synced := by
      refine ⟨valid, fun _ => ?_, fun _ => by rw [state]⟩
      rw [unread, flat.2]
      rfl
    have served : p'.served = (server.handle p.served args).2 := congrArg Endpoint.state state
    obtain ⟨text, reply⟩ := flat.1
    exact .error synced (by omega) (by omega) served mode reply

/-- So does `exec_command` turn out. -/
theorem Synced.execCommand_outcome (whole : AnswersWhole server) (synced : p.Synced)
    (small : (commandText c).length < 2 ^ 31) (returns : p.execCommand c = .ok (ok, c', p')) :
    Outcome p c (requestOf c) ok c' p' := by
  rcases execCommand_cases synced small rfl (whole _ _).1 with ⟨-, text, refused⟩ | ⟨-, exchanges⟩
  · cases returns.symm.trans refused
    exact .unsent text
  · rw [returns] at exchanges
    exact outcome_of_exchanges whole exchanges

/-- And a text. -/
theorem Synced.execCommandv_outcome (whole : AnswersWhole server) (synced : p.Synced) {buf : Bytes}
    (small : (commandvText (splitWords buf)).length < 2 ^ 31)
    (returns : p.execCommandv c buf = .ok (ok, c', p')) :
    Outcome p (commandvOf c buf) (splitWords buf) ok c' p' := by
  rcases execCommandv_cases synced c small rfl (whole _ _).1 with ⟨text, c₁, refused⟩ | exchanges
  · cases returns.symm.trans refused
    exact .unsent text
  · rw [returns] at exchanges
    exact outcome_of_exchanges whole exchanges

/-- A text in `error_` changes nothing that is under way. -/
theorem Synced.withError (synced : p.Synced) (text : Bytes) :
    ({ p with error := text } : RedisProtocol (Endpoint server)).Synced :=
  ⟨synced.valid, synced.stream, synced.pending⟩

variable {laws : TransactionQueue server}

/-- No transaction is open on the connection, if there is one. -/
structure Outside (laws : TransactionQueue server) (p : RedisProtocol (Endpoint server)) : Prop where
  /-- Nothing is under way. -/
  synced : p.Synced
  /-- The server has no queue. -/
  queue : p.tcpClient.fd ≠ -1 → laws.queue p.served = none

/-- A transaction is open, and the server has queued these requests. -/
structure Inside (laws : TransactionQueue server) (p : RedisProtocol (Endpoint server))
    (queued : List (List Bytes)) : Prop where
  /-- Nothing is under way. -/
  synced : p.Synced
  /-- There is a connection. -/
  alive : p.tcpClient.fd ≠ -1
  /-- The server has queued them. -/
  queue : laws.queue p.served = some queued
  /-- The mode is on. -/
  mode : p.transactionMode = true

/-- Without a connection there is no transaction. -/
theorem Outside.of_closed (synced : p.Synced) (closed : p.tcpClient.fd = -1) : p.Outside laws :=
  ⟨synced, fun alive => absurd closed alive⟩

/-- Nor on a new one. -/
theorem Outside.of_opens (opens : p.Opens p') : p'.Outside laws := by
  have fresh : p'.served = server.fresh p.served := by
    rw [served, opens.peer]
    rfl
  refine ⟨opens.synced, fun _ => ?_⟩
  rw [fresh]
  exact laws.fresh _

/-- A text in `error_` opens none. -/
theorem Outside.withError (outside : p.Outside laws) (text : Bytes) :
    ({ p with error := text } : RedisProtocol (Endpoint server)).Outside laws :=
  ⟨outside.synced.withError text, outside.queue⟩

/-- And ends none. -/
theorem Inside.withError {queued : List (List Bytes)} (inside : p.Inside laws queued) (text : Bytes) :
    ({ p with error := text } : RedisProtocol (Endpoint server)).Inside laws queued :=
  ⟨inside.synced.withError text, inside.alive, inside.queue, inside.mode⟩

/-- A blocking mode opens none. -/
theorem Outside.withBlockingMode (outside : p.Outside laws) (mode : Bool) :
    ({ p with blockingMode := mode } : RedisProtocol (Endpoint server)).Outside laws :=
  ⟨⟨outside.synced.valid, outside.synced.stream, outside.synced.pending⟩, outside.queue⟩

/-- A look at the connection opens none. -/
theorem Outside.looks (outside : p.Outside laws) (looks : p.Looks p') : p'.Outside laws := by
  refine ⟨looks.synced outside.synced, fun alive => ?_⟩
  rw [served, looks.peer]
  apply outside.queue
  rw [← looks.fd]
  exact alive

/-- And ends none. -/
theorem Inside.looks {queued : List (List Bytes)} (inside : p.Inside laws queued)
    (looks : p.Looks p') : p'.Inside laws queued := by
  refine ⟨looks.synced inside.synced, ?_, ?_, looks.mode.trans inside.mode⟩
  · rw [looks.fd]
    exact inside.alive
  · rw [served, looks.peer]
    exact inside.queue

/-- Outside a transaction nothing but MULTI opens one. -/
theorem Outside.outcome (outside : p.Outside laws) (multi : commandOf args ≠ .multi)
    (outcome : Outcome p c args ok c' p') : p'.Outside laws := by
  cases outcome with
  | unsent text => exact outside.withError text
  | lost synced closed => exact .of_closed synced closed
  | accepted synced alive stays served =>
    refine ⟨synced, fun _ => ?_⟩
    rw [served]
    exact laws.outside _ _ multi (outside.queue alive)
  | error synced alive stays served =>
    refine ⟨synced, fun _ => ?_⟩
    rw [served]
    exact laws.outside _ _ multi (outside.queue alive)

/-- MULTI opens one with nothing queued, or it does not. -/
theorem Outside.multi (outside : p.Outside laws) (multi : commandOf args = .multi)
    (names : Names args c) (outcome : Outcome p c args ok c' p') :
    p'.Outside laws ∨ p'.Inside laws [] := by
  cases outcome with
  | unsent text => exact Or.inl (outside.withError text)
  | lost synced closed => exact Or.inl (.of_closed synced closed)
  | accepted synced alive stays served mode accepts =>
    have readable := accepts.readable
    rcases laws.multi p.served args multi with ⟨-, ⟨text, status⟩, begun⟩ | ⟨⟨text, error⟩, -⟩
    · have on : p'.transactionMode = true := by
        rw [mode, status, (names .multi (by decide)).mp multi]
        cases p.transactionMode
        · rfl
        · rfl
      exact Or.inr ⟨synced, stays, served ▸ begun, on⟩
    · rw [error] at readable
      cases readable
  | @error out _ synced alive stays served mode text reply =>
    rcases laws.multi p.served args multi with ⟨-, ⟨text', status⟩, -⟩ | ⟨-, same⟩
    · cases reply.symm.trans status
    · refine Or.inl ⟨synced, fun _ => ?_⟩
      rw [served, same]
      exact outside.queue alive

/-- Inside a transaction a command is queued if it is accepted. -/
theorem Inside.outcome {queued : List (List Bytes)} (inside : p.Inside laws queued)
    (names : Names args c) (exec : commandOf args ≠ .exec) (discard : commandOf args ≠ .discard)
    (outcome : Outcome p c args ok c' p') :
    (ok = false ∧ (p'.Outside laws ∨ p'.Inside laws queued)) ∨
      (ok = true ∧ p'.Inside laws (queued ++ [args])) := by
  have law := Redis2.queued_or_error laws exec discard inside.queue
  cases outcome with
  | unsent text => exact Or.inl ⟨rfl, Or.inr (inside.withError text)⟩
  | lost synced closed => exact Or.inl ⟨rfl, Or.inl (.of_closed synced closed)⟩
  | accepted synced alive stays served mode accepts =>
    have readable := accepts.readable
    rcases law with ⟨⟨text, status⟩, more⟩ | ⟨⟨text, error⟩, -⟩
    · have notDiscard : c.command ≠ .discard :=
        fun is => discard ((names .discard (by decide)).mpr is)
      have on : p'.transactionMode = true := by
        rw [mode, status, inside.mode]
        simp [modeAfter, modeAfterStatus, notDiscard]
      exact Or.inr ⟨rfl, synced, stays, served ▸ more, on⟩
    · rw [error] at readable
      cases readable
  | @error out _ synced alive stays served mode text reply =>
    rcases law with ⟨⟨text', status⟩, -⟩ | ⟨-, same⟩
    · cases reply.symm.trans status
    · exact Or.inl ⟨rfl, Or.inr ⟨synced, stays, served ▸ same, mode.trans inside.mode⟩⟩

/-- EXEC and DISCARD end it, if they are answered by anything but an error to DISCARD. -/
theorem Inside.ends {queued : List (List Bytes)} (inside : p.Inside laws queued)
    (ends : commandOf args = .exec ∨ commandOf args = .discard)
    (outcome : Outcome p c args ok c' p') :
    p'.Outside laws ∨ (ok = false ∧ p'.Inside laws queued) := by
  cases outcome with
  | unsent text => exact Or.inr ⟨rfl, inside.withError text⟩
  | lost synced closed => exact Or.inl (.of_closed synced closed)
  | accepted synced alive stays served mode accepts =>
    have ended : laws.queue (server.handle p.served args).2 = none := by
      rcases ends with exec | discard
      · exact (laws.exec p.served args exec).1
      · rcases laws.discard p.served args discard with ⟨-, ended⟩ | ⟨⟨text, error⟩, -⟩
        · exact ended
        · have readable := accepts.readable
          rw [error] at readable
          cases readable
    exact Or.inl ⟨synced, fun _ => served ▸ ended⟩
  | @error out _ synced alive stays served mode text reply =>
    rcases ends with exec | discard
    · exact Or.inl ⟨synced, fun _ => served ▸ (laws.exec p.served args exec).1⟩
    · rcases laws.discard p.served args discard with ⟨-, ended⟩ | ⟨-, same⟩
      · exact Or.inl ⟨synced, fun _ => served ▸ ended⟩
      · have queue : laws.queue p'.served = some queued := by
          rw [served, same]
          exact inside.queue
        exact Or.inr ⟨rfl, synced, stays, queue, mode.trans inside.mode⟩

/-- A connection that is looked at, made or missed opens none. -/
theorem Outside.assureConnect (outside : p.Outside laws) {status : Int}
    (assures : p.assureConnect = (ok, status, p')) : p'.Outside laws := by
  rcases assureConnect_cases outside.synced.valid with
    ⟨p₁, same, -, -, looks, -⟩ | ⟨ok₁, status₁, p₁, same, -, -, shuts⟩ | ⟨p₁, same, -, opens⟩
  · cases same.symm.trans assures
    exact outside.looks looks
  · cases same.symm.trans assures
    exact .of_closed (shuts.valid.synced shuts.fd) shuts.fd
  · cases same.symm.trans assures
    exact .of_opens opens

/-- Nor does `connect`. -/
theorem Outside.connect (valid : p.Valid) (connects : p.connect = (ok, p')) : p'.Outside laws := by
  rcases connect_cases valid with ⟨ok₁, p₁, same, shuts⟩ | ⟨p₁, same, opens⟩
  · cases same.symm.trans connects
    exact .of_closed (shuts.valid.synced shuts.fd) shuts.fd
  · cases same.symm.trans connects
    exact .of_opens opens

end RedisProtocol

namespace Redis2

open RedisProtocol (Outcome)

section Returns

variable {π : Type} [Peer π] {r r' : Redis2 π} {ok : Bool}

/-- `discard` sends DISCARD on a connection, and remembers nothing if the reply is OK. -/
theorem discard_returns (returns : r.discard = .ok (ok, r')) :
    (ok = false ∧ r.checkConnect = (false, r')) ∨ ∃ r₁ sent c' p' text,
      r.checkConnect = (true, r₁) ∧
      r₁.proto.execCommand (.new .discard) = .ok (sent, c', p') ∧ (ok = true → sent = true) ∧
      r' = { r₁ with
        proto := { p' with error := text }
        transactionCmds := if ok then [] else r₁.transactionCmds } := by
  rcases checks : r.checkConnect with ⟨connected, r₁⟩
  rw [Redis2.discard, checks] at returns
  cases connected with
  | false =>
    cases returns
    exact Or.inl ⟨rfl, rfl⟩
  | true =>
    obtain ⟨⟨sent, c', r₂⟩, executes, ends⟩ := bind_returns returns
    obtain ⟨p', answers, rfl⟩ := protoExecCommand_returns executes
    refine Or.inr ⟨r₁, sent, c', p', ?_⟩
    cases sent with
    | false =>
      cases ends
      exact ⟨p'.error, rfl, answers, by simp, rfl⟩
    | true =>
      obtain ⟨text, reports⟩ := onReplyTypeError_eq { r₁ with proto := p' } c'
      cases good : c'.out.isStatusOk with
      | true =>
        simp only [good] at ends
        cases ends
        exact ⟨p'.error, rfl, answers, by simp, rfl⟩
      | false =>
        simp only [good, reports] at ends
        cases ends
        exact ⟨text, rfl, answers, by simp, rfl⟩

end Returns

variable {r r' : Redis2 (Endpoint server)} {laws : TransactionQueue server} {ok : Bool}

/-- The database is selected. -/
def Ready {π : Type} (r : Redis2 π) : Prop := r.dbIndex = 0 ∨ r.dbIndexSelectFailure = false

/-- A transaction is open, and the commands that the server has queued are the last of those
remembered. -/
structure Queueing (laws : TransactionQueue server) (r : Redis2 (Endpoint server))
    (queued : List (List Bytes)) : Prop where
  /-- It is open. -/
  inside : r.proto.Inside laws queued
  /-- The database is selected. -/
  ready : r.Ready
  /-- The commands are remembered, behind others. -/
  added : ∃ stale added, r.transactionCmds = stale ++ added ∧ List.Forall₂ QueuedAs added queued

/-- No transaction is open, or its commands are remembered. -/
def Remembers (laws : TransactionQueue server) (r : Redis2 (Endpoint server)) : Prop :=
  r.proto.Outside laws ∨ ∃ queued, r.Queueing laws queued

/-- Nothing is under way. -/
theorem Remembers.synced (remembers : r.Remembers laws) : r.proto.Synced := by
  rcases remembers with outside | ⟨queued, queueing⟩
  · exact outside.synced
  · exact queueing.inside.synced

/-- With the mode off no transaction is open. -/
theorem Remembers.outside (remembers : r.Remembers laws) (off : r.proto.transactionMode = false) :
    r.proto.Outside laws := by
  rcases remembers with outside | ⟨queued, queueing⟩
  · exact outside
  · exact absurd (off.symm.trans queueing.inside.mode) (by decide)

/-- A text in `error_` changes nothing of this. -/
theorem Remembers.withError (remembers : r.Remembers laws) (text : Bytes) :
    ({ r with proto := { r.proto with error := text } } : Redis2 (Endpoint server)).Remembers
      laws := by
  rcases remembers with outside | ⟨queued, queueing⟩
  · exact Or.inl (outside.withError text)
  · exact Or.inr ⟨queued, queueing.inside.withError text, queueing.ready, queueing.added⟩

/-- Behind a look at the connection it is as before. -/
theorem Remembers.looks (remembers : r.Remembers laws) {p : RedisProtocol (Endpoint server)}
    (looks : r.proto.Looks p) :
    ({ r with proto := p } : Redis2 (Endpoint server)).Remembers laws := by
  rcases remembers with outside | ⟨queued, queueing⟩
  · exact Or.inl (outside.looks looks)
  · exact Or.inr ⟨queued, queueing.inside.looks looks, queueing.ready, queueing.added⟩

/-- `select` opens no transaction, and when it succeeds the database is selected. -/
theorem select_outside (whole : AnswersWhole server) (outside : r.proto.Outside laws) {index : Int32}
    (returns : r.select index = .ok (ok, r')) :
    r'.proto.Outside laws ∧ (ok = true → r'.Ready) := by
  rcases assured : r.proto.assureConnect with ⟨connected, status, p⟩
  have outside₁ := outside.assureConnect assured
  rw [Redis2.select, assured] at returns
  cases connected with
  | false =>
    cases returns
    exact ⟨outside₁, by simp⟩
  | true =>
    change Redis2.selectConnected { r with proto := p } index = _ at returns
    obtain ⟨answered, c', p', sends, ends⟩ := selectConnected_returns returns
    have names := names_requestOf (selectCommand index)
    have other : commandOf (requestOf (selectCommand index)) ≠ .multi := by
      intro multi
      have wrong := (names .multi (by decide)).mp multi
      cases wrong
    have outcome := outside₁.synced.execCommand_outcome whole (selectCommand_small index) sends
    have outside₂ : p'.Outside laws := outside₁.outcome other outcome
    rcases ends with ⟨-, failed, rfl⟩ | ⟨-, -, text, rfl⟩
    · exact ⟨outside₂, fun wrong => absurd (failed.symm.trans wrong) (by decide)⟩
    · refine ⟨outside₂.withError text, fun good => Or.inr ?_⟩
      rw [good]
      rfl

/-- The database is selected if that is due, and no transaction is opened. -/
theorem assureDatabase_outside (whole : AnswersWhole server) (outside : r.proto.Outside laws)
    (returns : r.assureDatabase = .ok (ok, r')) :
    r'.proto.Outside laws ∧ (ok = true → r'.Ready) := by
  rw [Redis2.assureDatabase] at returns
  by_cases due : (r.dbIndex != 0 && r.dbIndexSelectFailure) = true
  · rw [if_pos due] at returns
    exact select_outside whole outside returns
  · rw [if_neg due] at returns
    cases returns
    refine ⟨outside, fun _ => ?_⟩
    by_cases first : r.dbIndex = 0
    · exact Or.inl first
    · exact Or.inr (by simpa [first] using due)

/-- `assure_connect` keeps a transaction as it is, or none is open behind it. -/
theorem Remembers.assureConnect (whole : AnswersWhole server) (remembers : r.Remembers laws)
    (returns : r.assureConnect = .ok (ok, r')) : r'.Remembers laws ∧ (ok = true → r'.Ready) ∧
      (r.proto.Outside laws → r'.proto.Outside laws) := by
  have falls {s : Redis2 (Endpoint server)} (outside : s.proto.Outside laws)
      (returns : s.assureDatabase = .ok (ok, r')) : r'.Remembers laws ∧ (ok = true → r'.Ready) ∧
        (r.proto.Outside laws → r'.proto.Outside laws) := by
    have ends := assureDatabase_outside whole outside returns
    exact ⟨Or.inl ends.1, ends.2, fun _ => ends.1⟩
  rw [Redis2.assureConnect] at returns
  rcases RedisProtocol.assureConnect_cases remembers.synced.valid with
    ⟨p, same, -, -, looks, -⟩ | ⟨connected, status, p, same, one, -, shuts⟩ | ⟨p, same, -, opens⟩
  · rw [same] at returns
    change Redis2.assureDatabase { r with proto := p } = _ at returns
    rcases remembers with outside | ⟨queued, queueing⟩
    · exact falls (outside.looks looks) returns
    · have notDue : ¬ (r.dbIndex != 0 && r.dbIndexSelectFailure) = true := by
        rcases queueing.ready with first | selected
        · simp [first]
        · simp [selected]
      have stays : Redis2.assureDatabase { r with proto := p } = .ok (true, { r with proto := p }) :=
        if_neg notDue
      cases returns.symm.trans stays
      have inside := queueing.inside.looks looks
      have still : ({ r with proto := p } : Redis2 (Endpoint server)).Queueing laws queued :=
        ⟨inside, queueing.ready, queueing.added⟩
      exact ⟨Or.inr ⟨queued, still⟩, fun _ => queueing.ready, fun outside => outside.looks looks⟩
  · have closed : p.Outside laws := .of_closed (shuts.valid.synced shuts.fd) shuts.fd
    rw [same] at returns
    cases connected with
    | false =>
      cases returns
      exact ⟨Or.inl closed, by simp, fun _ => closed⟩
    | true =>
      rw [one rfl] at returns
      change Redis2.assureDatabase (Redis2.onReset { r with proto := p }) = _ at returns
      exact falls (s := Redis2.onReset { r with proto := p }) closed returns
  · have fresh : p.Outside laws := .of_opens opens
    rw [same] at returns
    change Redis2.assureDatabase (Redis2.onReset { r with proto := p }) = _ at returns
    exact falls (s := Redis2.onReset { r with proto := p }) fresh returns

/-- `check_connect` looks at the connection. -/
theorem Remembers.checkConnect (remembers : r.Remembers laws) {connected : Bool}
    (checks : r.checkConnect = (connected, r')) : r'.Remembers laws ∧
      r'.transactionCmds = r.transactionCmds ∧ r'.proto.served = r.proto.served := by
  obtain ⟨found, p, shows, looks, -, -⟩ := RedisProtocol.isOpen_cases remembers.synced.valid
  have served : p.served = r.proto.served := congrArg Endpoint.state looks.peer
  rw [Redis2.checkConnect, RedisProtocol.checkConnect, shows] at checks
  cases found with
  | true =>
    cases checks
    exact ⟨remembers.looks looks, rfl, served⟩
  | false =>
    cases checks
    exact ⟨(remembers.looks looks).withError _, rfl, served⟩

/-- Behind a command on a connection that was assured, it is as before the command. -/
def KeepsTransaction (laws : TransactionQueue server) (r : Redis2 (Endpoint server))
    (c : RedisCommand) (args : List Bytes) : Prop :=
  ∀ (r₁ : Redis2 (Endpoint server)) (ok : Bool) (c' : RedisCommand)
    (p' : RedisProtocol (Endpoint server)), r₁.Remembers laws → r₁.Ready →
    (r.proto.Outside laws → r₁.proto.Outside laws) → Outcome r₁.proto c args ok c' p' →
    ({ r₁ with proto := p' } : Redis2 (Endpoint server)).Remembers laws

/-- Outside a transaction every command but MULTI does. -/
theorem KeepsTransaction.of_outside (outside : r.proto.Outside laws) {c : RedisCommand}
    {args : List Bytes} (multi : commandOf args ≠ .multi) : KeepsTransaction laws r c args :=
  fun _ _ _ _ _ _ kept outcome => Or.inl ((kept outside).outcome multi outcome)

/-- What a method that checks for the status OK leaves, if its command does. -/
theorem Remembers.statusOkMethod (whole : AnswersWhole server) (remembers : r.Remembers laws)
    {c : RedisCommand} (small : (commandText c).length < 2 ^ 31)
    (keeps : KeepsTransaction laws r c (requestOf c))
    (returns : r.statusOkMethod c = .ok (ok, r')) : r'.Remembers laws := by
  obtain ⟨connected, r₁, assures, ends⟩ := statusOkMethod_returns returns
  have assured := remembers.assureConnect whole assures
  rcases ends with ⟨-, rfl⟩ | ⟨good, sent, c', r₂, text, executes, rfl⟩
  · exact assured.1
  · obtain ⟨p', answers, rfl⟩ := protoExecCommand_returns executes
    have outcome := assured.1.synced.execCommand_outcome whole small answers
    have behind := keeps r₁ sent c' p' assured.1 (assured.2.1 good) assured.2.2 outcome
    exact behind.withError text

/-- `multi` opens a transaction without commands, or keeps the one that is open. -/
theorem Remembers.multi (whole : AnswersWhole server) (remembers : r.Remembers laws)
    (returns : r.multi = .ok (ok, r')) : r'.Remembers laws := by
  have names := names_requestOf (.new .multi)
  have named : commandOf (requestOf (.new .multi)) = .multi := (names .multi (by decide)).mpr rfl
  apply remembers.statusOkMethod whole (by decide +kernel) _ returns
  intro r₁ sent c' p' remembers₁ ready _ outcome
  rcases remembers₁ with outside | ⟨queued, queueing⟩
  · rcases outside.multi named names outcome with outside' | inside
    · exact Or.inl outside'
    · have none : ∃ stale added, r₁.transactionCmds = stale ++ added ∧
          List.Forall₂ QueuedAs added [] := ⟨r₁.transactionCmds, [], by simp, .nil⟩
      exact Or.inr ⟨[], inside, ready, none⟩
  · rcases queueing.inside.outcome names (by simp [named]) (by simp [named]) outcome with
      ⟨-, outside | inside⟩ | ⟨rfl, -⟩
    · exact Or.inl outside
    · exact Or.inr ⟨queued, inside, queueing.ready, queueing.added⟩
    · cases outcome with
      | accepted synced alive stays served mode accepts =>
        have readable := accepts.readable
        rcases laws.multi _ _ named with ⟨none, -⟩ | ⟨⟨text, error⟩, -⟩
        · cases none.symm.trans queueing.inside.queue
        · rw [error] at readable
          cases readable

/-- `watch` opens none, and is refused inside one. -/
theorem Remembers.watch (whole : AnswersWhole server) (remembers : r.Remembers laws)
    {keys : List Bytes}
    (small : (commandText ((RedisCommand.new .watch).pushArgs keys)).length < 2 ^ 31)
    (returns : r.watch keys = .ok (ok, r')) : r'.Remembers laws := by
  have names := names_requestOf ((RedisCommand.new .watch).pushArgs keys)
  have named := (names .watch (by decide)).mpr rfl
  apply remembers.statusOkMethod whole small _ returns
  intro r₁ sent c' p' remembers₁ ready _ outcome
  rcases remembers₁ with outside | ⟨queued, queueing⟩
  · exact Or.inl (outside.outcome (by simp [named]) outcome)
  · rcases queueing.inside.outcome names (by simp [named]) (by simp [named]) outcome with
      ⟨-, outside | inside⟩ | ⟨rfl, -⟩
    · exact Or.inl outside
    · exact Or.inr ⟨queued, inside, queueing.ready, queueing.added⟩
    · cases outcome with
      | accepted synced alive stays served mode accepts =>
        have readable := accepts.readable
        obtain ⟨⟨text, error⟩, -⟩ := laws.watch _ _ named queueing.inside.queue
        rw [error] at readable
        cases readable

/-- `unwatch` opens none outside one. -/
theorem Remembers.unwatch (whole : AnswersWhole server) (remembers : r.Remembers laws)
    (off : r.proto.transactionMode = false) (returns : r.unwatch = .ok (ok, r')) :
    r'.Remembers laws := by
  have names := names_requestOf (.new .unwatch)
  have other : commandOf (requestOf (.new .unwatch)) ≠ .multi := by
    intro multi
    have wrong := (names .multi (by decide)).mp multi
    cases wrong
  exact remembers.statusOkMethod whole (by decide +kernel)
    (.of_outside (remembers.outside off) other) returns

/-- A command that is added is remembered exactly if the server has queued it. -/
theorem Remembers.added (remembers : r.Remembers laws) {c c' : RedisCommand} {args : List Bytes}
    (names : Names args c) (multi : commandOf args ≠ .multi) (exec : commandOf args ≠ .exec)
    (discard : commandOf args ≠ .discard) {p' : RedisProtocol (Endpoint server)}
    (outcome : Outcome r.proto c args ok c' p') (queuedAs : ok = true → QueuedAs c' args) :
    ({ r with
        proto := p'
        transactionCmds := if ok then r.transactionCmds ++ [c'] else r.transactionCmds } :
      Redis2 (Endpoint server)).Remembers laws := by
  rcases remembers with outside | ⟨queued, queueing⟩
  · exact Or.inl (outside.outcome multi outcome)
  · obtain ⟨stale, added, shape, each⟩ := queueing.added
    rcases queueing.inside.outcome names exec discard outcome with
      ⟨rfl, outside | inside⟩ | ⟨rfl, inside⟩
    · exact Or.inl outside
    · exact Or.inr ⟨queued, inside, queueing.ready, stale, added, shape, each⟩
    · have longer : r.transactionCmds ++ [c'] = stale ++ (added ++ [c']) := by
        rw [shape, List.append_assoc]
      have also : List.Forall₂ QueuedAs (added ++ [c']) (queued ++ [args]) :=
        List.rel_append each (.cons (queuedAs rfl) .nil)
      exact Or.inr ⟨_, inside, queueing.ready, stale, added ++ [c'], longer, also⟩

/-- `add_command`. -/
theorem Remembers.addCommand (whole : AnswersWhole server) (remembers : r.Remembers laws)
    {c : RedisCommand} (small : (commandText c).length < 2 ^ 31)
    (multi : commandOf (requestOf c) ≠ .multi) (exec : commandOf (requestOf c) ≠ .exec)
    (discard : commandOf (requestOf c) ≠ .discard) (returns : r.addCommand c = .ok (ok, r')) :
    r'.Remembers laws := by
  rcases (addCommand_returns returns).2 with checks | ⟨r₁, sent, c', p', checks, answers, rfl⟩
  · exact (remembers.checkConnect checks).1
  · have checked := (remembers.checkConnect checks).1
    have outcome := checked.synced.execCommand_outcome whole small answers
    have queuedAs : sent = true → QueuedAs c' (requestOf c) := by
      intro good
      subst good
      cases outcome
      exact Or.inl rfl
    exact checked.added (names_requestOf c) multi exec discard outcome queuedAs

/-- `add_command` with a format. -/
theorem Remembers.addCommandv (whole : AnswersWhole server) (remembers : r.Remembers laws)
    {c : RedisCommand} {buf : Bytes}
    (small : (RedisProtocol.commandvText (RedisProtocol.splitWords buf)).length < 2 ^ 31)
    (multi : commandOf (RedisProtocol.splitWords buf) ≠ .multi)
    (exec : commandOf (RedisProtocol.splitWords buf) ≠ .exec)
    (discard : commandOf (RedisProtocol.splitWords buf) ≠ .discard)
    (returns : r.addCommandv c buf = .ok (ok, r')) : r'.Remembers laws := by
  rcases addCommandv_returns returns with ⟨-, checks⟩ | ⟨r₁, c', p', checks, answers, rfl⟩
  · exact (remembers.checkConnect checks).1
  · have checked := (remembers.checkConnect checks).1
    have outcome := checked.synced.execCommandv_outcome whole small answers
    have queuedAs : ok = true → QueuedAs c' (RedisProtocol.splitWords buf) := by
      intro good
      subst good
      cases outcome
      exact Or.inr ⟨rfl, rfl⟩
    exact checked.added (names_commandvOf c buf) multi exec discard outcome queuedAs

/-- `discard` ends the transaction, or keeps it. -/
theorem Remembers.discard (whole : AnswersWhole server) (remembers : r.Remembers laws)
    (returns : r.discard = .ok (ok, r')) : r'.Remembers laws := by
  rcases discard_returns returns with
    ⟨-, checks⟩ | ⟨r₁, sent, c', p', text, checks, answers, succeeds, rfl⟩
  · exact (remembers.checkConnect checks).1
  · have checked := (remembers.checkConnect checks).1
    have names := names_requestOf (.new .discard)
    have named : commandOf (requestOf (.new .discard)) = .discard :=
      (names .discard (by decide)).mpr rfl
    have outcome := checked.synced.execCommand_outcome whole (by decide +kernel) answers
    rcases checked with outside | ⟨queued, queueing⟩
    · exact Or.inl ((outside.outcome (by simp [named]) outcome).withError text)
    · rcases queueing.inside.ends (Or.inr named) outcome with outside | ⟨unsent, inside⟩
      · exact Or.inl (outside.withError text)
      · have failed : ok = false := by
          cases ok with
          | false => rfl
          | true => exact absurd (unsent.symm.trans (succeeds rfl)) (by decide)
        subst failed
        exact Or.inr ⟨queued, inside.withError text, queueing.ready, queueing.added⟩

/-- A server that answers EXEC, if by an array, by one with an element for each request queued. -/
def AnswersEach (laws : TransactionQueue server) : Prop :=
  ∀ state queued elements, laws.queue state = some queued →
    (server.handle state (requestOf (.new .exec))).1 = .array elements →
    elements.length = queued.length

/-- `exec` is executed where these commands were all that the server had queued, and returns them with
the elements of the reply. -/
structure ExecutesAll (laws : TransactionQueue server) (first : σ)
    (remembered commands : List RedisCommand) (last : σ) : Prop where
  /-- The requests that were queued, and the reply. -/
  answers : ∃ queued elements, laws.queue first = some queued ∧
    List.Forall₂ QueuedAs remembered queued ∧
    server.handle first (requestOf (.new .exec)) = (.array elements, last) ∧
    commands = List.zipWith answered remembered (denoteAll elements)

/-- `exec` ends the transaction, or keeps it; if it returns commands, they are all of it. -/
theorem Remembers.exec (whole : AnswersWhole server) (each : AnswersEach laws)
    (remembers : r.Remembers laws) {commands : Option (List RedisCommand)}
    (returns : r.exec = .ok (commands, r')) : r'.Remembers laws ∧
      ∀ done ∈ commands, ExecutesAll laws r.proto.served r.transactionCmds done r'.proto.served := by
  rcases checks : r.checkConnect with ⟨connected, r₁⟩
  obtain ⟨remembers₁, same, served₁⟩ := remembers.checkConnect checks
  cases connected with
  | false =>
    rw [Redis2.exec, checks] at returns
    cases returns
    exact ⟨remembers₁, by simp⟩
  | true =>
    obtain ⟨sent, c', p', sends, ends⟩ := exec_returns checks returns
    have names := names_requestOf (.new .exec)
    have named : commandOf (requestOf (.new .exec)) = .exec := (names .exec (by decide)).mpr rfl
    have outcome := remembers₁.synced.execCommand_outcome whole (by decide +kernel) sends
    rcases ends with ⟨elements, rfl, smbulks, length, rfl, rfl⟩ | ⟨-, rfl, text, rfl⟩
    · cases outcome with
      | accepted synced alive stays served mode accepts =>
        have ended : laws.queue p'.served = none := by
          rw [served]
          exact (laws.exec _ _ named).1
        refine ⟨Or.inl ⟨synced, fun _ => ended⟩, fun done is => ?_⟩
        cases is
        rw [RedisProtocol.replyType_exec rfl] at accepts smbulks
        obtain ⟨replies, array⟩ : ∃ replies,
            (server.handle r₁.proto.served (requestOf (.new .exec))).1 = .array replies := by
          rcases accepts.1 with nil | array
          · have wrong : (denoteAs .specialMultiBulk .nilArray) = .smbulks elements := nil ▸ smbulks
            cases wrong
          · exact array
        have out : elements = denoteAll replies := by
          have shows : denoteAs .specialMultiBulk (.array replies) = .smbulks elements :=
            array ▸ smbulks
          exact (RedisOutput.smbulks.inj shows).symm
        rcases remembers₁ with outside | ⟨queued, queueing⟩
        · obtain ⟨text, error⟩ := (laws.exec _ _ named).2 (outside.queue alive)
          cases array.symm.trans error
        · obtain ⟨stale, added, shape, all⟩ := queueing.added
          have count := each _ _ _ queueing.inside.queue array
          have none : stale = [] := by
            have lengths := all.length_eq
            rw [out, denoteAll_eq_map, List.length_map, shape, List.length_append] at length
            exact List.length_eq_zero_iff.mp (by omega)
          have everything : List.Forall₂ QueuedAs r₁.transactionCmds queued := by
            rw [shape, none]
            exact all
          have answers : server.handle r.proto.served (requestOf (.new .exec)) =
              (.array replies, p'.served) := by
            rw [← served₁, served, ← array]
          have inside : laws.queue r.proto.served = some queued := by
            rw [← served₁]
            exact queueing.inside.queue
          rw [← same]
          exact ⟨queued, replies, inside, everything, answers, by rw [out]⟩
    · refine ⟨?_, by simp⟩
      apply Remembers.withError (r := { r₁ with proto := p' })
      rcases remembers₁ with outside | ⟨queued, queueing⟩
      · exact Or.inl (outside.outcome (by simp [named]) outcome)
      · rcases queueing.inside.ends (Or.inl named) outcome with outside | ⟨-, inside⟩
        · exact Or.inl outside
        · exact Or.inr ⟨queued, inside, queueing.ready, queueing.added⟩

/-- What a call asks the server. -/
def Sending.asks : Sending → Option (List Bytes)
  | .connect | .close => none
  | .select index => some (requestOf (selectCommand index))
  | .exec c | .blocking c | .checked c => some (requestOf c)
  | .execv _ buf | .checkedv _ buf => some (RedisProtocol.splitWords buf)

/-- The command of a call is executed, as it is or from its text. -/
def Commands {π : Type} [Peer π] (sending : Sending) (p : RedisProtocol π) (sent : Bool)
    (c' : RedisCommand) (p' : RedisProtocol π) : Prop :=
  (∃ c, sending.asks = some (requestOf c) ∧ (sending.Small → (commandText c).length < 2 ^ 31) ∧
    p.execCommand c = .ok (sent, c', p')) ∨
  ∃ c buf, sending.asks = some (RedisProtocol.splitWords buf) ∧
    (sending.Small → (RedisProtocol.commandvText (RedisProtocol.splitWords buf)).length < 2 ^ 31) ∧
    p.execCommandv c buf = .ok (sent, c', p')

/-- A call connects, closes or selects, or it makes or finds a connection and executes its command
there, which may be in another blocking mode. -/
theorem send_returns {π : Type} [Peer π] {r r' : Redis2 π} {sending : Sending} {out : RedisOutput}
    (returns : r.send sending = .ok (ok, out, r')) :
    (sending = .connect ∧ r' = r.connect.2) ∨ (sending = .close ∧ r' = r.close) ∨
    (∃ index, sending = .select index ∧ r.select index = .ok (ok, r')) ∨
    ∃ connected r₁, (r.assureConnect = .ok (connected, r₁) ∨ r.checkConnect = (connected, r₁)) ∧
      (r' = r₁ ∨ ∃ sent c' mode p' after,
        Commands sending { r₁.proto with blockingMode := mode } sent c' p' ∧
        r' = { r₁ with proto := { p' with blockingMode := after } }) := by
  cases sending with
  | connect =>
    cases returns
    exact Or.inl ⟨rfl, rfl⟩
  | close =>
    cases returns
    exact Or.inr (Or.inl ⟨rfl, rfl⟩)
  | select index =>
    obtain ⟨⟨selected, r₁⟩, selects, same⟩ := map_returns returns
    cases same
    exact Or.inr (Or.inr (Or.inl ⟨index, rfl, selects⟩))
  | exec c =>
    obtain ⟨⟨sent, c', r₁⟩, executes, same⟩ := map_returns returns
    cases same
    obtain ⟨⟨connected, r₂⟩, assures, sends⟩ := bind_returns executes
    refine Or.inr (Or.inr (Or.inr ⟨connected, r₂, Or.inl assures, ?_⟩))
    cases connected with
    | false =>
      cases sends
      exact Or.inl rfl
    | true =>
      obtain ⟨p', answers, rfl⟩ := protoExecCommand_returns (r := r₂) sends
      have commands : Commands (.exec c) r₂.proto ok c' p' := Or.inl ⟨c, rfl, id, answers⟩
      exact Or.inr ⟨ok, c', r₂.proto.blockingMode, p', p'.blockingMode, commands, rfl⟩
  | execv c buf =>
    obtain ⟨⟨sent, c', r₁⟩, executes, same⟩ := map_returns returns
    cases same
    obtain ⟨⟨connected, r₂⟩, assures, sends⟩ := bind_returns executes
    refine Or.inr (Or.inr (Or.inr ⟨connected, r₂, Or.inl assures, ?_⟩))
    cases connected with
    | false =>
      cases sends
      exact Or.inl rfl
    | true =>
      obtain ⟨p', answers, rfl⟩ := protoExecCommandv_returns (r := r₂) sends
      have commands : Commands (.execv c buf) r₂.proto ok c' p' := Or.inr ⟨c, buf, rfl, id, answers⟩
      exact Or.inr ⟨ok, c', r₂.proto.blockingMode, p', p'.blockingMode, commands, rfl⟩
  | blocking c =>
    obtain ⟨⟨sent, c', r₁⟩, executes, same⟩ := map_returns returns
    cases same
    obtain ⟨⟨connected, r₂⟩, assures, sends⟩ := bind_returns executes
    refine Or.inr (Or.inr (Or.inr ⟨connected, r₂, Or.inl assures, ?_⟩))
    cases connected with
    | false =>
      cases sends
      exact Or.inl rfl
    | true =>
      obtain ⟨⟨sent, c₁, r₃⟩, waits, same⟩ := bind_returns sends
      cases same
      obtain ⟨p', answers, rfl⟩ := protoExecCommand_returns (r := r₂.setBlockingMode true) waits
      have commands : Commands (.blocking c) (r₂.setBlockingMode true).proto ok c' p' :=
        Or.inl ⟨c, rfl, id, answers⟩
      exact Or.inr ⟨ok, c', true, p', r₂.proto.blockingMode, commands, rfl⟩
  | checked c =>
    obtain ⟨⟨sent, c', r₁⟩, executes, same⟩ := map_returns returns
    cases same
    rcases checks : r.checkConnect with ⟨connected, r₂⟩
    rw [execChecked, checks] at executes
    refine Or.inr (Or.inr (Or.inr ⟨connected, r₂, Or.inr rfl, ?_⟩))
    cases connected with
    | false =>
      cases executes
      exact Or.inl rfl
    | true =>
      obtain ⟨p', answers, rfl⟩ := protoExecCommand_returns (r := r₂) executes
      have commands : Commands (.checked c) r₂.proto ok c' p' := Or.inl ⟨c, rfl, id, answers⟩
      exact Or.inr ⟨ok, c', r₂.proto.blockingMode, p', p'.blockingMode, commands, rfl⟩
  | checkedv c buf =>
    obtain ⟨⟨sent, c', r₁⟩, executes, same⟩ := map_returns returns
    cases same
    rcases checks : r.checkConnect with ⟨connected, r₂⟩
    rw [execCheckedv, checks] at executes
    refine Or.inr (Or.inr (Or.inr ⟨connected, r₂, Or.inr rfl, ?_⟩))
    cases connected with
    | false =>
      cases executes
      exact Or.inl rfl
    | true =>
      obtain ⟨p', answers, rfl⟩ := protoExecCommandv_returns (r := r₂) executes
      have commands : Commands (.checkedv c buf) r₂.proto ok c' p' :=
        Or.inr ⟨c, buf, rfl, id, answers⟩
      exact Or.inr ⟨ok, c', r₂.proto.blockingMode, p', p'.blockingMode, commands, rfl⟩

/-- A call outside a transaction opens none, unless it asks for one. -/
theorem send_outside (whole : AnswersWhole server) (outside : r.proto.Outside laws)
    {sending : Sending} (small : sending.Small)
    (multi : ∀ args ∈ sending.asks, commandOf args ≠ .multi) {out : RedisOutput}
    (returns : r.send sending = .ok (ok, out, r')) : r'.proto.Outside laws := by
  rcases send_returns returns with ⟨rfl, rfl⟩ | ⟨rfl, rfl⟩ | ⟨index, rfl, selects⟩ |
    ⟨connected, r₁, readies, ends⟩
  · exact .connect outside.synced.valid rfl
  · have closes := outside.synced.valid.close_receives
    exact .of_closed (RedisProtocol.Valid.synced closes.1.valid closes.2) closes.2
  · exact (select_outside whole outside selects).1
  · have outside₁ : r₁.proto.Outside laws := by
      rcases readies with assures | checks
      · exact (Remembers.assureConnect whole (Or.inl outside) assures).2.2 outside
      · obtain ⟨found, p, shows, looks, -, -⟩ := RedisProtocol.isOpen_cases outside.synced.valid
        rw [Redis2.checkConnect, RedisProtocol.checkConnect, shows] at checks
        cases found with
        | true =>
          cases checks
          exact outside.looks looks
        | false =>
          cases checks
          exact (outside.looks looks).withError _
    rcases ends with rfl | ⟨sent, c', mode, p', after, commands, rfl⟩
    · exact outside₁
    · have ready := outside₁.withBlockingMode mode
      apply RedisProtocol.Outside.withBlockingMode
      rcases commands with ⟨c, asks, fits, answers⟩ | ⟨c, buf, asks, fits, answers⟩
      · have outcome := ready.synced.execCommand_outcome whole (fits small) answers
        exact ready.outcome (multi _ asks) outcome
      · have outcome := ready.synced.execCommandv_outcome whole (fits small) answers
        exact ready.outcome (multi _ asks) outcome

/-- A call of a client that runs transactions, and others. -/
inductive Action where
  /-- A call that sends one command of its own. -/
  | send (sending : Sending)
  /-- An operation of a transaction. -/
  | operate (operation : Operation)

/-- What a call tells. -/
structure Told where
  /-- Whether it has succeeded. -/
  ok : Bool
  /-- The output of its command. -/
  out : RedisOutput
  /-- The commands that `exec` returns. -/
  commands : List RedisCommand

section Actions

variable {π : Type} [Peer π]

/-- What an operation tells, and the client behind it. -/
def operate (r : Redis2 π) : Operation → Except Abort (Told × Redis2 π)
  | .multi => r.multi.map fun (ok, r) => (⟨ok, .none, []⟩, r)
  | .addCommand c => (r.addCommand c).map fun (ok, r) => (⟨ok, .none, []⟩, r)
  | .addCommandv c buf => (r.addCommandv c buf).map fun (ok, r) => (⟨ok, .none, []⟩, r)
  | .watch keys => (r.watch keys).map fun (ok, r) => (⟨ok, .none, []⟩, r)
  | .unwatch => r.unwatch.map fun (ok, r) => (⟨ok, .none, []⟩, r)
  | .exec => r.exec.map fun (commands, r) => (⟨commands.isSome, .none, commands.getD []⟩, r)
  | .discard => r.discard.map fun (ok, r) => (⟨ok, .none, []⟩, r)

/-- What a call tells, and the client behind it. -/
def act (r : Redis2 π) : Action → Except Abort (Told × Redis2 π)
  | .send sending => (r.send sending).map fun (ok, out, r) => (⟨ok, out, []⟩, r)
  | .operate operation => r.operate operation

/-- The command that `watch` sends. -/
def watchCommand (keys : List Bytes) : RedisCommand := (RedisCommand.new .watch).pushArgs keys

/-- The command that an operation sends. -/
def Operation.sending : Operation → Sending
  | .multi => .exec (.new .multi)
  | .addCommand c => .checked c
  | .addCommandv c buf => .checkedv c buf
  | .watch keys => .exec (watchCommand keys)
  | .unwatch => .exec (.new .unwatch)
  | .exec => .checked (.new .exec)
  | .discard => .checked (.new .discard)

/-- The command that a call sends. -/
def Action.sending : Action → Sending
  | .send sending => sending
  | .operate operation => operation.sending

/-- A call that a client may make: its request fits into an `int`, and inside a transaction it is none
that sends anything but a command to be queued, or the end of the transaction. -/
def Action.Allowed (r : Redis2 π) (action : Action) : Prop :=
  action.sending.Small ∧ match action with
  | .send .connect | .send .close | .operate .multi | .operate (.watch _) | .operate .exec
  | .operate .discard => True
  | .send sending => r.proto.transactionMode = false ∧
      ∀ args ∈ sending.asks, commandOf args ≠ .multi
  | .operate (.addCommand c) => commandOf (requestOf c) ≠ .multi ∧ commandOf (requestOf c) ≠ .exec ∧
      commandOf (requestOf c) ≠ .discard
  | .operate (.addCommandv _ buf) => commandOf (RedisProtocol.splitWords buf) ≠ .multi ∧
      commandOf (RedisProtocol.splitWords buf) ≠ .exec ∧
      commandOf (RedisProtocol.splitWords buf) ≠ .discard
  | .operate .unwatch => r.proto.transactionMode = false

/-- A call that is allowed and returns. -/
def Acts (r : Redis2 π) (step : Action × Told) (r' : Redis2 π) : Prop :=
  step.1.Allowed r ∧ r.act step.1 = .ok (step.2, r')

end Actions

/-- One step: an operation that is allowed keeps a transaction remembered. -/
theorem Remembers.operate (whole : AnswersWhole server) (each : AnswersEach laws)
    (remembers : r.Remembers laws) {operation : Operation} {told : Told}
    (allowed : (Action.operate operation).Allowed r)
    (returns : r.operate operation = .ok (told, r')) : r'.Remembers laws := by
  obtain ⟨small, allowed⟩ := allowed
  cases operation with
  | multi =>
    obtain ⟨⟨ok, r₁⟩, returns, same⟩ := map_returns returns
    cases same
    exact remembers.multi whole returns
  | addCommand c =>
    obtain ⟨⟨ok, r₁⟩, returns, same⟩ := map_returns returns
    cases same
    exact remembers.addCommand whole small allowed.1 allowed.2.1 allowed.2.2 returns
  | addCommandv c buf =>
    obtain ⟨⟨ok, r₁⟩, returns, same⟩ := map_returns returns
    cases same
    exact remembers.addCommandv whole small allowed.1 allowed.2.1 allowed.2.2 returns
  | watch keys =>
    obtain ⟨⟨ok, r₁⟩, returns, same⟩ := map_returns returns
    cases same
    exact remembers.watch whole small returns
  | unwatch =>
    obtain ⟨⟨ok, r₁⟩, returns, same⟩ := map_returns returns
    cases same
    exact remembers.unwatch whole allowed returns
  | exec =>
    obtain ⟨⟨commands, r₁⟩, returns, same⟩ := map_returns returns
    cases same
    exact (remembers.exec whole each returns).1
  | discard =>
    obtain ⟨⟨ok, r₁⟩, returns, same⟩ := map_returns returns
    cases same
    exact remembers.discard whole returns

/-- One step: a call that is allowed keeps a transaction remembered. -/
theorem Remembers.act (whole : AnswersWhole server) (each : AnswersEach laws)
    (remembers : r.Remembers laws) {step : Action × Told} (acts : Acts r step r') :
    r'.Remembers laws := by
  obtain ⟨action, told⟩ := step
  obtain ⟨allowed, returns⟩ := acts
  cases action with
  | operate operation => exact remembers.operate whole each allowed returns
  | send sending =>
    obtain ⟨⟨ok, out, r₁⟩, sends, same⟩ := map_returns returns
    cases same
    obtain ⟨small, allowed⟩ := allowed
    have outside (plain : r.proto.transactionMode = false ∧
        ∀ args ∈ sending.asks, commandOf args ≠ .multi) : r'.Remembers laws :=
      Or.inl (send_outside whole (remembers.outside plain.1) small plain.2 sends)
    cases sending with
    | connect =>
      cases sends
      exact Or.inl (.connect remembers.synced.valid rfl)
    | close =>
      cases sends
      have closes := remembers.synced.valid.close_receives
      exact Or.inl (.of_closed (RedisProtocol.Valid.synced closes.1.valid closes.2) closes.2)
    | select index => exact outside allowed
    | exec c => exact outside allowed
    | execv c buf => exact outside allowed
    | blocking c => exact outside allowed
    | checked c => exact outside allowed
    | checkedv c buf => exact outside allowed

/-- A method that checks for the status OK sends its command as any other, and succeeds if the reply
is that status. -/
theorem statusOkMethod_sends {π : Type} [Peer π] {r r' : Redis2 π} {c : RedisCommand} {ok : Bool}
    (returns : r.statusOkMethod c = .ok (ok, r')) : ∃ sent out r₁ text,
      r.send (.exec c) = .ok (sent, out, r₁) ∧
      r' = { r₁ with proto := { r₁.proto with error := text } } ∧
      (ok = true → sent = true ∧ out.isStatusOk = true) := by
  obtain ⟨⟨sent, c', r₁⟩, executes, ends⟩ := bind_returns returns
  have sends : r.send (.exec c) = .ok (sent, c'.out, r₁) := by
    rw [send, executes]
    rfl
  cases sent with
  | false =>
    have fails : (.ok (false, r₁) : Except Abort _) = .ok (ok, r') := ends
    cases fails
    exact ⟨false, c'.out, r', r'.proto.error, sends, rfl, by simp⟩
  | true =>
    have checks : r₁.checkStatusOk c' = (ok, r') := Except.ok.inj ends
    obtain ⟨text, reports⟩ := onReplyTypeError_eq r₁ c'
    rw [checkStatusOk, reports] at checks
    split at checks
    · rename_i good
      cases checks
      exact ⟨true, c'.out, r', r'.proto.error, sends, rfl, fun _ => ⟨rfl, good⟩⟩
    · cases checks
      exact ⟨true, c'.out, r₁, text, sends, rfl, by simp⟩

section Sendings

variable {π : Type} [Peer π] {r r' r₁ : Redis2 π}

/-- Without a connection nothing is sent. -/
theorem send_unchecked {c : RedisCommand} (checks : r.checkConnect = (false, r₁)) :
    r.send (.checked c) = .ok (false, c.out, r₁) := by
  rw [send, execChecked, checks]
  rfl

/-- On a connection the command is. -/
theorem send_checked {c c' : RedisCommand} {sent : Bool} {p' : RedisProtocol π}
    (checks : r.checkConnect = (true, r₁)) (sends : r₁.proto.execCommand c = .ok (sent, c', p')) :
    r.send (.checked c) = .ok (sent, c'.out, { r₁ with proto := p' }) := by
  rw [send, execChecked, checks]
  change (r₁.protoExecCommand c).map _ = _
  rw [protoExecCommand, sends]
  rfl

/-- `add_command` sends its command. -/
theorem addCommand_sends {c : RedisCommand} {ok : Bool} (returns : r.addCommand c = .ok (ok, r')) :
    ∃ sent out r₁, r.send (.checked c) = .ok (sent, out, r₁) ∧ r'.proto = r₁.proto ∧
      (ok = true → sent = true) := by
  obtain ⟨rfl, checks | ⟨r₁, sent, c', p', checks, answers, rfl⟩⟩ := addCommand_returns returns
  · exact ⟨false, c.out, r', send_unchecked checks, rfl, id⟩
  · exact ⟨sent, c'.out, _, send_checked checks answers, rfl, by simp⟩

/-- So does that with a format. -/
theorem addCommandv_sends {c : RedisCommand} {buf : Bytes} {ok : Bool}
    (returns : r.addCommandv c buf = .ok (ok, r')) :
    ∃ out r₁, r.send (.checkedv c buf) = .ok (ok, out, r₁) ∧ r'.proto = r₁.proto := by
  rcases addCommandv_returns returns with ⟨rfl, checks⟩ | ⟨r₁, c', p', checks, answers, rfl⟩
  · refine ⟨c.out, r', ?_, rfl⟩
    rw [send, execCheckedv, checks]
    rfl
  · refine ⟨c'.out, { r₁ with proto := p' }, ?_, rfl⟩
    rw [send, execCheckedv, checks]
    change (r₁.protoExecCommandv c buf).map _ = _
    rw [protoExecCommandv, answers]
    rfl

/-- `exec` sends EXEC. -/
theorem exec_sends {commands : Option (List RedisCommand)} (returns : r.exec = .ok (commands, r')) :
    ∃ sent out r₁ text, r.send (.checked (.new .exec)) = .ok (sent, out, r₁) ∧
      r'.proto = { r₁.proto with error := text } ∧ (commands.isSome = true → sent = true) := by
  rcases checks : r.checkConnect with ⟨connected, r₁⟩
  cases connected with
  | false =>
    rw [Redis2.exec, checks] at returns
    cases returns
    exact ⟨false, _, r', r'.proto.error, send_unchecked checks, rfl, by simp⟩
  | true =>
    obtain ⟨sent, c', p', sends, ends⟩ := exec_returns checks returns
    rcases ends with ⟨elements, done, -, -, -, rfl⟩ | ⟨-, rfl, text, rfl⟩
    · exact ⟨sent, c'.out, _, p'.error, send_checked checks sends, rfl, fun _ => done⟩
    · exact ⟨sent, c'.out, _, text, send_checked checks sends, rfl, by simp⟩

/-- `discard` sends DISCARD. -/
theorem discard_sends {ok : Bool} (returns : r.discard = .ok (ok, r')) :
    ∃ sent out r₁ text, r.send (.checked (.new .discard)) = .ok (sent, out, r₁) ∧
      r'.proto = { r₁.proto with error := text } ∧ (ok = true → sent = true) := by
  rcases discard_returns returns with
    ⟨rfl, checks⟩ | ⟨r₁, sent, c', p', text, checks, answers, succeeds, rfl⟩
  · exact ⟨false, _, r', r'.proto.error, send_unchecked checks, rfl, id⟩
  · exact ⟨sent, c'.out, _, text, send_checked checks answers, rfl, succeeds⟩

end Sendings

/-- Every operation sends its command, and nothing else; it succeeds only if that does. -/
theorem operate_sends {operation : Operation} {told : Told}
    (returns : r.operate operation = .ok (told, r')) : ∃ sent out r₁ text,
    r.send operation.sending = .ok (sent, out, r₁) ∧
      r'.proto = { r₁.proto with error := text } ∧ (told.ok = true → sent = true) := by
  cases operation with
  | multi =>
    obtain ⟨⟨ok, r₁⟩, returns, same⟩ := map_returns returns
    cases same
    obtain ⟨sent, out, r₁, text, sends, rfl, good⟩ := statusOkMethod_sends returns
    exact ⟨sent, out, r₁, text, sends, rfl, fun done => (good done).1⟩
  | watch keys =>
    obtain ⟨⟨ok, r₁⟩, returns, same⟩ := map_returns returns
    cases same
    obtain ⟨sent, out, r₁, text, sends, rfl, good⟩ := statusOkMethod_sends returns
    exact ⟨sent, out, r₁, text, sends, rfl, fun done => (good done).1⟩
  | unwatch =>
    obtain ⟨⟨ok, r₁⟩, returns, same⟩ := map_returns returns
    cases same
    obtain ⟨sent, out, r₁, text, sends, rfl, good⟩ := statusOkMethod_sends returns
    exact ⟨sent, out, r₁, text, sends, rfl, fun done => (good done).1⟩
  | addCommand c =>
    obtain ⟨⟨ok, r₁⟩, returns, same⟩ := map_returns returns
    cases same
    obtain ⟨sent, out, r₁, sends, kept, good⟩ := addCommand_sends returns
    exact ⟨sent, out, r₁, r₁.proto.error, sends, kept, good⟩
  | addCommandv c buf =>
    obtain ⟨⟨ok, r₁⟩, returns, same⟩ := map_returns returns
    cases same
    obtain ⟨out, r₁, sends, kept⟩ := addCommandv_sends returns
    exact ⟨ok, out, r₁, r₁.proto.error, sends, kept, id⟩
  | exec =>
    obtain ⟨⟨commands, r₁⟩, returns, same⟩ := map_returns returns
    cases same
    exact exec_sends returns
  | discard =>
    obtain ⟨⟨ok, r₁⟩, returns, same⟩ := map_returns returns
    cases same
    exact discard_sends returns

/-- The piece of a history for a call: that of the command it sends, which has succeeded if the call
has. -/
def Action.Accounts (told : Told) (entries : List Entry) : Action → Prop
  | .send sending => sending.Accounts told.ok told.out entries
  | .operate operation => ∃ sent out, (told.ok = true → sent = true) ∧
      operation.sending.Accounts sent out entries

/-- It is that of some success and some output of the command. -/
theorem Action.Accounts.sends {action : Action} {told : Told} {entries : List Entry}
    (accounts : action.Accounts told entries) : ∃ sent out, (told.ok = true → sent = true) ∧
      action.sending.Accounts sent out entries := by
  cases action with
  | send sending => exact ⟨told.ok, told.out, id, accounts⟩
  | operate operation => exact accounts

/-- A call whose request fits into an `int`, and that returns. -/
def ActsFreely {π : Type} [Peer π] (r : Redis2 π) (step : Action × Told) (r' : Redis2 π) : Prop :=
  step.1.sending.Small ∧ r.act step.1 = .ok (step.2, r')

/-- Every call adds its piece to the history, and leaves nothing under way. -/
theorem act_accounts (whole : AnswersWhole server) (synced : r.proto.Synced) {step : Action × Told}
    (performs : ActsFreely r step r') : r'.proto.Synced ∧ ∃ entries,
      server.History r.proto.served entries r'.proto.served ∧ step.1.Accounts step.2 entries := by
  obtain ⟨action, told⟩ := step
  obtain ⟨small, returns⟩ := performs
  cases action with
  | send sending =>
    obtain ⟨⟨ok, out, r₁⟩, sends, same⟩ := map_returns returns
    cases same
    exact send_accounts whole synced small sends
  | operate operation =>
    obtain ⟨sent, out, r₁, text, sends, same, good⟩ := operate_sends returns
    obtain ⟨synced₁, entries, history, accounts⟩ := send_accounts whole synced small sends
    have served : r'.proto.served = r₁.proto.served := by
      rw [same]
      rfl
    refine ⟨?_, entries, served ▸ history, sent, out, good, accounts⟩
    rw [same]
    exact ⟨synced₁.valid, synced₁.stream, synced₁.pending⟩

/-- In every run of a new client the history of the server falls into one piece for each call, in the
order of the calls: every request is executed at most once, and one that succeeds exactly once, with
the reply to it as its output. -/
theorem calls_executed_once (whole : AnswersWhole server) (host port : Bytes) (dbIndex : Int32)
    (timeout : Int) {os : Os (Endpoint server)} (silent : os.incoming = [])
    {steps : List (Action × Told)}
    (run : Simulation.Run ActsFreely (new host port dbIndex timeout os) steps r') :
    ∃ pieces, List.Forall₂ (fun (step : Action × Told) entries => step.1.Accounts step.2 entries)
        steps pieces ∧ server.History os.peer.state pieces.flatten r'.proto.served :=
  run.pieces (fun r entries r' => server.History r.proto.served entries r'.proto.served)
    (fun r => .idle r.proto.served) (fun before behind => before.append behind)
    (fun _ _ _ synced performs => act_accounts whole synced performs)
    (new_synced host port dbIndex timeout silent)

/-- The server with two databases answers whole. -/
theorem twoDatabases_whole : AnswersWhole twoDatabases := by
  intro state args
  refine ⟨twoDatabasesLaws.wellFormed state args, ?_⟩
  simp only [twoDatabases]
  split_ifs
  · exact Or.inr (.status _)
  · exact Or.inr (.status _)
  · exact Or.inl ⟨_, rfl⟩
  · exact Or.inr (.bulk _)

/-- Database 1 is selected, and a command is sent and another given to `add_command`: the history has
a piece for each. -/
theorem calls_executed_once_select :
    ∃ (steps : List (Action × Told)) (last : Redis2 (Endpoint twoDatabases)),
    steps.map Prod.fst =
      [.send (.select 1), .send (.exec getKey), .operate (.addCommand getKey)] ∧
    ∃ pieces, List.Forall₂ (fun (step : Action × Told) entries => step.1.Accounts step.2 entries)
        steps pieces ∧ twoDatabases.History (0, []) pieces.flatten last.proto.served := by
  have shows : (Simulation.collect act [.send (.select 1), .send (.exec getKey),
      .operate (.addCommand getKey)] twoDatabasesClient).toOption.map
        (fun returned => returned.1.length) = some 3 := by decide +kernel
  obtain ⟨⟨steps, last⟩, returns, -⟩ := returned_of_view shows
  obtain ⟨run, names⟩ := Simulation.Run.of_collect returns
  have key : (commandText getKey).length < 2 ^ 31 := by decide +kernel
  have small : ∀ step ∈ steps, step.1.sending.Small := by
    intro step member
    have named := List.mem_map_of_mem (f := Prod.fst) member
    rw [names] at named
    have cases := List.mem_cons.mp named
    simp only [List.mem_cons, List.not_mem_nil, or_false] at cases
    rcases cases with same | same | same
    · rw [same]
      trivial
    · rw [same]
      exact key
    · rw [same]
      exact key
  exact ⟨steps, last, names,
    calls_executed_once twoDatabases_whole _ _ 0 _ rfl (run.and_label small)⟩

/-- A command without what it has answered. -/
def unanswered (c : RedisCommand) : RedisCommand := { c with out := .none }

/-- The commands given to `add_command` since a transaction has ended, with those of one more call. -/
def given (commands : List RedisCommand) (step : Action × Told) : List RedisCommand :=
  match step.1 with
  | .operate (.addCommand c) => commands ++ [c]
  | .operate (.addCommandv c buf) => commands ++ [RedisProtocol.commandvOf c buf]
  | .operate .exec | .operate .discard => if step.2.ok then [] else commands
  | _ => commands

/-- What is remembered was given, in this order. -/
def Recalls {π : Type} (commands : List RedisCommand) (r : Redis2 π) : Prop :=
  (r.transactionCmds.map unanswered).Sublist (commands.map unanswered)

section Recalling

variable {π : Type} [Peer π] {r r' : Redis2 π} {commands : List RedisCommand} {ok : Bool}

/-- A client that remembers the same as another, or nothing. -/
def Sheds (r r' : Redis2 π) : Prop :=
  r'.transactionCmds = r.transactionCmds ∨ r'.transactionCmds = []

omit [Peer π] in
/-- It recalls what the other does. -/
theorem Sheds.recalls (sheds : Sheds r r') (recalls : Recalls commands r) : Recalls commands r' := by
  rcases sheds with same | nothing
  · rw [Recalls, same]
    exact recalls
  · rw [Recalls, nothing]
    exact List.nil_sublist _

omit [Peer π] in
/-- A command that was given may be left out. -/
theorem Recalls.pass (recalls : Recalls commands r) (c : RedisCommand)
    (kept : r'.transactionCmds = r.transactionCmds) : Recalls (commands ++ [c]) r' := by
  rw [Recalls, kept, List.map_append]
  exact List.Sublist.trans recalls (List.sublist_append_left _ _)

omit [Peer π] in
/-- Or it is remembered, whatever it has answered. -/
theorem Recalls.add {c added : RedisCommand} (recalls : Recalls commands r)
    (same : unanswered added = unanswered c)
    (more : r'.transactionCmds = r.transactionCmds ++ [added]) : Recalls (commands ++ [c]) r' := by
  rw [Recalls, more, List.map_append, List.map_append, List.map_singleton, List.map_singleton, same]
  exact List.Sublist.append recalls (List.Sublist.refl _)

/-- `select` remembers what was remembered. -/
theorem select_remembered {index : Int32} (returns : r.select index = .ok (ok, r')) :
    r'.transactionCmds = r.transactionCmds := by
  rcases assured : r.proto.assureConnect with ⟨connected, status, p⟩
  rw [Redis2.select, assured] at returns
  cases connected with
  | false =>
    cases returns
    rfl
  | true =>
    change Redis2.selectConnected { r with proto := p } index = _ at returns
    obtain ⟨answered, c', p', -, ends⟩ := selectConnected_returns returns
    rcases ends with ⟨-, -, rfl⟩ | ⟨-, -, text, rfl⟩
    · rfl
    · rfl

/-- `assure_connect` remembers the same, or nothing on a new connection. -/
theorem assureConnect_sheds (returns : r.assureConnect = .ok (ok, r')) : Sheds r r' := by
  have selected {s : Redis2 π} (returns : s.assureDatabase = .ok (ok, r')) :
      r'.transactionCmds = s.transactionCmds := by
    rw [Redis2.assureDatabase] at returns
    split at returns
    · exact select_remembered returns
    · cases returns
      rfl
  rcases assured : r.proto.assureConnect with ⟨connected, status, p⟩
  rw [Redis2.assureConnect, assured] at returns
  cases connected with
  | false =>
    cases returns
    exact Or.inl rfl
  | true =>
    change (if status = 1 then (onReset { r with proto := p }).assureDatabase
      else assureDatabase { r with proto := p }) = _ at returns
    split at returns
    · exact Or.inr (selected (s := onReset { r with proto := p }) returns)
    · exact Or.inl (selected (s := { r with proto := p }) returns)

omit [Peer π] in
/-- `check_connect` remembers what was remembered. -/
theorem checkConnect_remembered {connected : Bool} (checks : r.checkConnect = (connected, r')) :
    r'.transactionCmds = r.transactionCmds :=
  congrArg (fun checked => checked.2.transactionCmds) checks.symm

/-- So does every call that sends a command of its own. -/
theorem send_sheds {sending : Sending} {out : RedisOutput}
    (returns : r.send sending = .ok (ok, out, r')) : Sheds r r' := by
  rcases send_returns returns with ⟨rfl, rfl⟩ | ⟨rfl, rfl⟩ | ⟨index, rfl, selects⟩ |
    ⟨connected, r₁, readies, ends⟩
  · exact Or.inl rfl
  · exact Or.inl rfl
  · exact Or.inl (select_remembered selects)
  · have sheds : Sheds r r₁ := by
      rcases readies with assures | checks
      · exact assureConnect_sheds assures
      · exact Or.inl (checkConnect_remembered checks)
    rcases ends with rfl | ⟨sent, c', mode, p', after, -, rfl⟩
    · exact sheds
    · exact sheds

/-- So do `multi`, `watch` and `unwatch`. -/
theorem statusOkMethod_sheds {c : RedisCommand} (returns : r.statusOkMethod c = .ok (ok, r')) :
    Sheds r r' := by
  obtain ⟨sent, out, r₁, text, sends, rfl, -⟩ := statusOkMethod_sends returns
  have sheds : Sheds r r₁ := send_sheds sends
  exact sheds

/-- `discard` remembers the same, or nothing where it succeeds. -/
theorem discard_remembered (returns : r.discard = .ok (ok, r')) :
    r'.transactionCmds = if ok then [] else r.transactionCmds := by
  rcases discard_returns returns with ⟨rfl, checks⟩ | ⟨r₁, sent, c', p', text, checks, -, -, rfl⟩
  · exact checkConnect_remembered checks
  · rw [← checkConnect_remembered checks]

/-- `exec` remembers the same, or nothing where it succeeds. -/
theorem exec_remembered {executed : Option (List RedisCommand)}
    (returns : r.exec = .ok (executed, r')) :
    r'.transactionCmds = if executed.isSome then [] else r.transactionCmds := by
  rcases checks : r.checkConnect with ⟨connected, r₁⟩
  have kept := checkConnect_remembered checks
  cases connected with
  | false =>
    rw [Redis2.exec, checks] at returns
    cases returns
    exact kept
  | true =>
    obtain ⟨sent, c', p', -, ends⟩ := exec_returns checks returns
    rcases ends with ⟨elements, -, -, -, rfl, rfl⟩ | ⟨-, rfl, text, rfl⟩
    · rfl
    · exact kept

end Recalling

/-- A command that succeeds differs by its output from the one that was given. -/
theorem unanswered_of_outcome {p p' : RedisProtocol (Endpoint server)} {c c' : RedisCommand}
    {args : List Bytes} (outcome : Outcome p c args true c' p') : unanswered c' = unanswered c := by
  cases outcome
  rfl

/-- One step: what is remembered behind a call that is allowed was given. -/
theorem Recalls.act (whole : AnswersWhole server) {commands : List RedisCommand}
    (recalls : Recalls commands r) (synced : r.proto.Synced) {step : Action × Told}
    (acts : Acts r step r') : Recalls (given commands step) r' := by
  obtain ⟨action, told⟩ := step
  obtain ⟨⟨small, -⟩, returns⟩ := acts
  cases action with
  | send sending =>
    obtain ⟨⟨ok, out, r₁⟩, sends, same⟩ := map_returns returns
    cases same
    exact (send_sheds sends).recalls recalls
  | operate operation =>
    cases operation with
    | multi =>
      obtain ⟨⟨ok, r₁⟩, returns, same⟩ := map_returns returns
      cases same
      exact (statusOkMethod_sheds returns).recalls recalls
    | watch keys =>
      obtain ⟨⟨ok, r₁⟩, returns, same⟩ := map_returns returns
      cases same
      exact (statusOkMethod_sheds returns).recalls recalls
    | unwatch =>
      obtain ⟨⟨ok, r₁⟩, returns, same⟩ := map_returns returns
      cases same
      exact (statusOkMethod_sheds returns).recalls recalls
    | addCommand c =>
      obtain ⟨⟨ok, r₁⟩, returns, same⟩ := map_returns returns
      cases same
      rcases (addCommand_returns returns).2 with checks | ⟨r₁, sent, c', p', checks, answers, rfl⟩
      · exact recalls.pass c (checkConnect_remembered checks)
      · have kept := checkConnect_remembered checks
        have synced₁ := (checkConnect_accounts synced checks).1
        have outcome := synced₁.execCommand_outcome whole small answers
        cases sent with
        | false => exact recalls.pass c kept
        | true => exact recalls.add (unanswered_of_outcome outcome) (congrArg (· ++ [c']) kept)
    | addCommandv c buf =>
      obtain ⟨⟨ok, r₁⟩, returns, same⟩ := map_returns returns
      cases same
      rcases addCommandv_returns returns with ⟨-, checks⟩ | ⟨r₁, c', p', checks, answers, rfl⟩
      · exact recalls.pass _ (checkConnect_remembered checks)
      · have kept := checkConnect_remembered checks
        have synced₁ := (checkConnect_accounts synced checks).1
        have outcome := synced₁.execCommandv_outcome whole small answers
        cases ok with
        | false => exact recalls.pass _ kept
        | true => exact recalls.add (unanswered_of_outcome outcome) (congrArg (· ++ [c']) kept)
    | exec =>
      obtain ⟨⟨executed, r₁⟩, returns, same⟩ := map_returns returns
      cases same
      have remembered := exec_remembered returns
      cases executed with
      | none =>
        have sheds : Sheds r r' := Or.inl remembered
        exact sheds.recalls recalls
      | some done =>
        have nothing : r'.transactionCmds = [] := remembered
        rw [Recalls, nothing]
        exact List.nil_sublist _
    | discard =>
      obtain ⟨⟨ok, r₁⟩, returns, same⟩ := map_returns returns
      cases same
      have remembered := discard_remembered returns
      cases ok with
      | false =>
        have sheds : Sheds r r' := Or.inl remembered
        exact sheds.recalls recalls
      | true =>
        have nothing : r'.transactionCmds = [] := remembered
        rw [Recalls, nothing]
        exact List.nil_sublist _

end Redis2

end LibRedis
