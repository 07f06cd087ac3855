import LibRedis.Lib.Simulation
import LibRedis.RespServer

/-!
# The transaction mode

`transaction_mode_` is meant to tell whether the server at the other end of the connection is inside
MULTI. It does along every run whose steps avoid two things: an EXEC in a transaction that is
answered by an error, alone or as an element, and a new connection made while the mode is on.
-/

namespace LibRedis

open Decimal (ascii)
open Resp (Reply)

/-- The command that a request names. -/
def commandOf (args : List Bytes) : Command := Command.ofName (args.headD [])

/-- A request names the same command as this one. -/
def Names (args : List Bytes) (c : RedisCommand) : Prop :=
  ∀ command ∈ Command.named, commandOf args = command ↔ c.command = command

/-- A request names the command it was made from. -/
theorem names_requestOf (c : RedisCommand) : Names (RedisProtocol.requestOf c) c :=
  fun _ named => Command.ofName_eq_iff named

/-- So do the words of a text. -/
theorem names_commandvOf (c : RedisCommand) (buf : Bytes) :
    Names (RedisProtocol.splitWords buf) (RedisProtocol.commandvOf c buf) :=
  fun _ _ => Iff.rfl

/-- What a server with transactions promises about them. -/
structure Transactions {σ : Type} (server : Server σ) where
  /-- Whether the connection is inside MULTI. -/
  inMulti : σ → Bool
  /-- Replies are well formed. -/
  wellFormed (state : σ) (args : List Bytes) : (server.handle state args).1.WellFormed
  /-- A new connection is outside a transaction. -/
  fresh (state : σ) : inMulti (server.fresh state) = false
  /-- MULTI opens a transaction, or it is answered by an error and changes nothing. -/
  multi (state : σ) (args : List Bytes) (named : commandOf args = .multi) :
    ((∃ text, (server.handle state args).1 = .status text) ∧
      inMulti (server.handle state args).2 = true) ∨
    ((∃ text, (server.handle state args).1 = .error text) ∧
      inMulti (server.handle state args).2 = inMulti state)
  /-- DISCARD closes it, or it is answered by an error and changes nothing. -/
  discard (state : σ) (args : List Bytes) (named : commandOf args = .discard) :
    ((∃ text, (server.handle state args).1 = .status text) ∧
      inMulti (server.handle state args).2 = false) ∨
    ((∃ text, (server.handle state args).1 = .error text) ∧
      inMulti (server.handle state args).2 = inMulti state)
  /-- EXEC closes it whatever it replies. -/
  exec (state : σ) (args : List Bytes) (named : commandOf args = .exec) :
    inMulti (server.handle state args).2 = false
  /-- No other command opens or closes one. -/
  other (state : σ) (args : List Bytes) (multi : commandOf args ≠ .multi)
    (discard : commandOf args ≠ .discard) (exec : commandOf args ≠ .exec) :
    inMulti (server.handle state args).2 = inMulti state

namespace RedisProtocol

/-- An operation of the protocol object. -/
inductive Call where
  /-- `connect`. -/
  | connect
  /-- `assure_connect`. -/
  | assureConnect
  /-- `close`. -/
  | close
  /-- `exec_command`. -/
  | exec (c : RedisCommand)

/-- What an operation leaves. -/
def perform {π : Type} [Peer π] (p : RedisProtocol π) : Call → Except Abort (RedisProtocol π)
  | .connect => .ok p.connect.2
  | .assureConnect => .ok p.assureConnect.2.2
  | .close => .ok p.close
  | .exec c => (p.execCommand c).map fun (_, _, p) => p

variable {σ : Type} {server : Server σ}

/-- A reply that leaves nothing behind it, and is no error that answers an EXEC in a transaction. -/
def QuietReply (p : RedisProtocol (Endpoint server)) (c : RedisCommand) (r : Reply) : Prop :=
  ∀ left, Refuses (p.replyType c) r left →
    left = [] ∧ (c.command = .exec → p.transactionMode = false)

/-- An operation that keeps the transaction mode true to the server. -/
def Call.KeepsMode (p : RedisProtocol (Endpoint server)) : Call → Prop
  | .connect => p.transactionMode = false
  | .assureConnect => p.isOpen.1 = true ∨ p.transactionMode = false
  | .close => True
  | .exec c => (commandText c).length < 2 ^ 31 ∧
      QuietReply p c (server.handle p.tcpClient.os.peer.state (requestOf c)).1

/-- The transaction mode is that of the server, and off without a connection. -/
structure Mirrors (laws : Transactions server) (p : RedisProtocol (Endpoint server)) : Prop where
  /-- Nothing is under way. -/
  synced : p.Synced
  /-- Without a connection the mode is off. -/
  closed : p.tcpClient.fd = -1 → p.transactionMode = false
  /-- On a connection it is that of the server. -/
  mode : p.tcpClient.fd ≠ -1 → p.transactionMode = laws.inMulti p.tcpClient.os.peer.state

/-- Without a connection and with the mode off, nothing has to be mirrored. -/
theorem Mirrors.of_closed {laws : Transactions server} {p : RedisProtocol (Endpoint server)}
    (valid : p.Valid) (closed : p.tcpClient.fd = -1) (off : p.transactionMode = false) :
    p.Mirrors laws where
  synced := valid.synced closed
  closed _ := off
  mode alive := absurd closed alive

/-- A new connection mirrors the server if the mode was off. -/
theorem Opens.mirrors {laws : Transactions server} {p p' : RedisProtocol (Endpoint server)}
    (opens : p.Opens p') (off : p.transactionMode = false) : p'.Mirrors laws where
  synced := opens.synced
  closed _ := opens.mode.trans off
  mode _ := by
    have fresh : p'.tcpClient.os.peer.state = server.fresh p.tcpClient.os.peer.state := by
      rw [opens.peer]
      rfl
    rw [opens.mode, off, fresh, laws.fresh]

/-- No connection mirrors the server if the mode was off. -/
theorem Shuts.mirrors {laws : Transactions server} {p p' : RedisProtocol (Endpoint server)}
    (shuts : p.Shuts p') (off : p.transactionMode = false) : p'.Mirrors laws := by
  apply Mirrors.of_closed shuts.valid shuts.fd
  rcases shuts.mode with same | off'
  · exact same.trans off
  · exact off'

/-- The reader holds a reply to EXEC to an array of any elements. -/
theorem replyType_exec {π : Type} {p : RedisProtocol π} {c : RedisCommand}
    (exec : c.command = .exec) : p.replyType c = .specialMultiBulk := by
  rw [replyType, exec]
  cases p.transactionMode
  · rfl
  · rfl

/-- An accepted reply takes the transaction mode where the server goes. -/
theorem accepted_mode {laws : Transactions server} {p : RedisProtocol (Endpoint server)}
    {state : σ} (mode : p.transactionMode = laws.inMulti state) {c : RedisCommand}
    {args : List Bytes} (names : Names args c)
    (accepts : Accepts (p.replyType c) (server.handle state args).1) :
    modeAfter true p.transactionMode c.command (server.handle state args).1 =
      laws.inMulti (server.handle state args).2 := by
  have readable := accepts.readable
  by_cases multi : c.command = .multi
  · rcases laws.multi state args ((names .multi (by decide)).mpr multi) with
      ⟨⟨text, status⟩, opened⟩ | ⟨⟨text, error⟩, -⟩
    · rw [status, opened, multi]
      cases p.transactionMode
      · rfl
      · rfl
    · rw [error] at readable
      cases readable
  by_cases discard : c.command = .discard
  · rcases laws.discard state args ((names .discard (by decide)).mpr discard) with
      ⟨⟨text, status⟩, ended⟩ | ⟨⟨text, error⟩, -⟩
    · rw [status, ended, discard]
      cases p.transactionMode
      · rfl
      · rfl
    · rw [error] at readable
      cases readable
  by_cases exec : c.command = .exec
  · rw [laws.exec state args ((names .exec (by decide)).mpr exec), exec]
    rw [replyType_exec exec] at accepts
    rcases accepts.1 with nil | ⟨elements, array⟩
    · rw [nil, modeAfter]
      simp
    · rw [array, modeAfter]
      simp
  · have same := laws.other state args (fun named => multi ((names .multi (by decide)).mp named))
      (fun named => discard ((names .discard (by decide)).mp named))
      (fun named => exec ((names .exec (by decide)).mp named))
    rw [same, ← mode]
    cases (server.handle state args).1 with
    | status text => simp [modeAfter, modeAfterStatus, multi, discard]
    | array elements => simp [modeAfter, exec]
    | nilArray => simp [modeAfter, exec]
    | error text => rfl
    | integer value => rfl
    | bulk bytes => rfl
    | nilBulk => rfl

/-- An error leaves the server where it was, unless it answers an EXEC in a transaction. -/
theorem refused_mode {laws : Transactions server} {p : RedisProtocol (Endpoint server)}
    {state : σ} (mode : p.transactionMode = laws.inMulti state) {c : RedisCommand}
    {args : List Bytes} (names : Names args c) {left : List Reply}
    (refuses : Refuses (p.replyType c) (server.handle state args).1 left)
    (outside : c.command = .exec → p.transactionMode = false) :
    p.transactionMode = laws.inMulti (server.handle state args).2 := by
  have notStatus : ∀ text, (server.handle state args).1 ≠ .status text := by
    intro text status
    rw [status] at refuses
    exact not_refuses (by simp) (by simp [IsArray]) left refuses
  by_cases multi : c.command = .multi
  · rcases laws.multi state args ((names .multi (by decide)).mpr multi) with
      ⟨⟨text, status⟩, -⟩ | ⟨-, same⟩
    · exact absurd status (notStatus text)
    · exact mode.trans same.symm
  by_cases discard : c.command = .discard
  · rcases laws.discard state args ((names .discard (by decide)).mpr discard) with
      ⟨⟨text, status⟩, -⟩ | ⟨-, same⟩
    · exact absurd status (notStatus text)
    · exact mode.trans same.symm
  by_cases exec : c.command = .exec
  · rw [outside exec, laws.exec state args ((names .exec (by decide)).mpr exec)]
  · have same := laws.other state args (fun named => multi ((names .multi (by decide)).mp named))
      (fun named => discard ((names .discard (by decide)).mp named))
      (fun named => exec ((names .exec (by decide)).mp named))
    exact mode.trans same.symm

/-- A command that is answered by a status is held to one, in a transaction too. -/
theorem replyType_status {π : Type} {p : RedisProtocol π} {c : RedisCommand}
    (status : c.command.commandInfo.replyType = .status) : p.replyType c = .status := by
  have checked : (true && c.command.commandInfo.replyType != .depends) = true := by simp [status]
  rw [replyType, typeRead, if_pos checked]
  unfold expectedType
  split
  · split
    · exact status
    · exact status
    · exact status
    · rfl
  · exact status

/-- No reply to such a command leaves anything. -/
theorem quiet_of_status {p : RedisProtocol (Endpoint server)} {c : RedisCommand}
    (status : c.command.commandInfo.replyType = .status) (r : Reply) : QuietReply p c r := by
  have notExec : c.command ≠ .exec := by
    intro exec
    rw [exec] at status
    cases status
  intro left refuses
  rw [replyType_status status] at refuses
  rcases refuses with ⟨text, -, nothing⟩ | ⟨types, -⟩
  · exact ⟨nothing, fun exec => absurd exec notExec⟩
  · rcases types with wrong | wrong
    · cases wrong
    · cases wrong

/-- Nor does a reply of one line. -/
theorem quiet_of_line {p : RedisProtocol (Endpoint server)} {c : RedisCommand} {r : Reply}
    (line : (∃ text, r = .status text) ∨ ∃ text, r = .error text)
    (outside : c.command = .exec → p.transactionMode = false) : QuietReply p c r := by
  rintro left (⟨text, -, nothing⟩ | ⟨-, isArray, -⟩)
  · exact ⟨nothing, outside⟩
  · rcases line with ⟨text, rfl⟩ | ⟨text, rfl⟩
    · simp [IsArray] at isArray
    · simp [IsArray] at isArray

/-- An exchange with a quiet reply leaves the mode that of the server. -/
theorem Mirrors.exchanges {laws : Transactions server} {p p' : RedisProtocol (Endpoint server)}
    (mirrors : p.Mirrors laws) {c c' : RedisCommand} {args : List Bytes} (names : Names args c)
    (quiet : QuietReply p c (server.handle p.tcpClient.os.peer.state args).1) {ok : Bool}
    (exchanges : Exchanges p c (server.handle p.tcpClient.os.peer.state args).1
      (server.handle p.tcpClient.os.peer.state args).2 (.ok (ok, c', p'))) : p'.Mirrors laws := by
  cases exchanges with
  | lost valid fd mode state reason => exact .of_closed valid fd mode
  | accepted synced alive fd mode state accepts =>
    have before := mirrors.mode (by omega)
    refine ⟨synced, fun closed => by omega, fun _ => ?_⟩
    rw [mode, state]
    exact accepted_mode before names accepts
  | @refused out _ left valid alive fd mode state unread refuses =>
    have before := mirrors.mode (by omega)
    obtain ⟨nothing, outside⟩ := quiet left refuses
    have synced : p'.Synced := by
      refine ⟨valid, fun _ => ?_, fun _ => by rw [state]⟩
      rw [unread, nothing]
      rfl
    refine ⟨synced, fun closed => by omega, fun _ => ?_⟩
    rw [mode, state]
    exact refused_mode before names refuses outside

/-- A text in `error_` is no part of what is mirrored. -/
theorem Mirrors.error {laws : Transactions server} {p : RedisProtocol (Endpoint server)}
    (mirrors : p.Mirrors laws) (text : Bytes) :
    ({ p with error := text } : RedisProtocol (Endpoint server)).Mirrors laws :=
  ⟨⟨mirrors.synced.valid, mirrors.synced.stream, mirrors.synced.pending⟩, mirrors.closed,
    mirrors.mode⟩

/-- A look at a connection leaves the mode that of the server. -/
theorem Looks.mirrors {laws : Transactions server} {p p' : RedisProtocol (Endpoint server)}
    (looks : p.Looks p') (mirrors : p.Mirrors laws) : p'.Mirrors laws where
  synced := looks.synced mirrors.synced
  closed closed := looks.mode.trans (mirrors.closed (looks.fd.symm.trans closed))
  mode alive := by
    rw [looks.mode, looks.peer]
    apply mirrors.mode
    rw [← looks.fd]
    exact alive

/-- What `exec_command` does with a quiet reply: it refuses the command and changes the error text
only, or it makes an exchange; in both cases the mode stays that of the server. -/
theorem Mirrors.execCommand {laws : Transactions server} {p p' : RedisProtocol (Endpoint server)}
    (mirrors : p.Mirrors laws) {c c' : RedisCommand} (small : (commandText c).length < 2 ^ 31)
    (quiet : QuietReply p c (server.handle p.tcpClient.os.peer.state (requestOf c)).1) {ok : Bool}
    (returns : p.execCommand c = .ok (ok, c', p')) :
    p'.Mirrors laws ∧
      ((ok = false ∧ ∃ text, p' = { p with error := text }) ∨
      Exchanges p c (server.handle p.tcpClient.os.peer.state (requestOf c)).1
        (server.handle p.tcpClient.os.peer.state (requestOf c)).2 (.ok (ok, c', p'))) := by
  rcases execCommand_cases mirrors.synced small rfl (laws.wellFormed _ _) with
    ⟨-, text, refused⟩ | ⟨-, exchanges⟩
  · rw [refused] at returns
    cases returns
    exact ⟨mirrors.error text, Or.inl ⟨rfl, text, rfl⟩⟩
  · rw [returns] at exchanges
    exact ⟨mirrors.exchanges (names_requestOf c) quiet exchanges, Or.inr exchanges⟩

/-- So does `exec_commandv`, with the words of the text. -/
theorem Mirrors.execCommandv {laws : Transactions server} {p p' : RedisProtocol (Endpoint server)}
    (mirrors : p.Mirrors laws) {c c' : RedisCommand} {buf : Bytes}
    (small : (commandvText (splitWords buf)).length < 2 ^ 31)
    (quiet : QuietReply p (commandvOf c buf)
      (server.handle p.tcpClient.os.peer.state (splitWords buf)).1) {ok : Bool}
    (returns : p.execCommandv c buf = .ok (ok, c', p')) :
    p'.Mirrors laws ∧
      ((ok = false ∧ ∃ text, p' = { p with error := text }) ∨
      Exchanges p (commandvOf c buf) (server.handle p.tcpClient.os.peer.state (splitWords buf)).1
        (server.handle p.tcpClient.os.peer.state (splitWords buf)).2 (.ok (ok, c', p'))) := by
  rcases execCommandv_cases mirrors.synced c small rfl (laws.wellFormed _ _) with
    ⟨text, c₁, refused⟩ | exchanges
  · rw [refused] at returns
    cases returns
    exact ⟨mirrors.error text, Or.inl ⟨rfl, text, rfl⟩⟩
  · rw [returns] at exchanges
    exact ⟨mirrors.exchanges (names_commandvOf c buf) quiet exchanges, Or.inr exchanges⟩

/-- One step: an operation that keeps the mode leaves it that of the server. -/
theorem Mirrors.step {laws : Transactions server} {p p' : RedisProtocol (Endpoint server)}
    {call : Call} (mirrors : p.Mirrors laws) (returns : p.perform call = .ok p')
    (keeps : call.KeepsMode p) : p'.Mirrors laws := by
  have valid := mirrors.synced.valid
  cases call with
  | connect =>
    cases returns
    rcases connect_cases valid with ⟨ok, p₁, same, shuts⟩ | ⟨p₁, same, opens⟩
    · rw [same]
      exact shuts.mirrors keeps
    · rw [same]
      exact opens.mirrors keeps
  | assureConnect =>
    cases returns
    rcases assureConnect_cases valid with
      ⟨p₁, same, -, alive, looks, -⟩ | ⟨ok, status, p₁, same, -, found, shuts⟩ |
      ⟨p₁, same, found, opens⟩
    · rw [same]
      exact looks.mirrors mirrors
    · rw [same]
      exact shuts.mirrors (keeps.resolve_left (by simp [found]))
    · rw [same]
      exact opens.mirrors (keeps.resolve_left (by simp [found]))
  | close =>
    cases returns
    exact .of_closed valid.close_receives.1.valid valid.close_receives.2 rfl
  | exec c =>
    obtain ⟨small, quiet⟩ := keeps
    cases result : p.execCommand c with
    | error abort =>
      rw [perform, result] at returns
      cases returns
    | ok returned =>
      obtain ⟨ok, c', p₁⟩ := returned
      obtain rfl : p₁ = p' := by
        rw [perform, result] at returns
        exact Except.ok.inj returns
      exact (mirrors.execCommand small quiet result).1

/-- In every run from a new protocol object whose operations keep the transaction mode, an open
connection has nothing outstanding and the mode is that of the server. -/
theorem transactionMode_mirrors (laws : Transactions server) (host port : Bytes) (timeout : Int)
    {os : Os (Endpoint server)} (silent : os.incoming = []) {calls : List Call}
    {p : RedisProtocol (Endpoint server)}
    (run : Simulation.Run (fun p call p' => p.perform call = .ok p' ∧ call.KeepsMode p)
      (new host port timeout os) calls p) (alive : p.tcpClient.fd ≠ -1) :
    p.stream = [] ∧ p.transactionMode = laws.inMulti p.tcpClient.os.peer.state := by
  have start : (new host port timeout os).Mirrors laws :=
    .of_closed (TcpClient.closed_valid rfl TcpClientBuffer.new_valid TcpClientBuffer.new_unread
      silent) rfl rfl
  have mirrors := run.invariant (fun p call p' mirrors step => mirrors.step step.1 step.2) start
  exact ⟨mirrors.synced.stream alive, mirrors.mode alive⟩

/-- A server on which every EXEC is answered by an error. Its state is whether it is inside MULTI. -/
def abortingServer : Server Bool where
  fresh _ := false
  handle inMulti args :=
    match commandOf args with
    | .multi => if inMulti then (.error (ascii "ERR"), true) else (.status (ascii "OK"), true)
    | .discard => if inMulti then (.status (ascii "OK"), false) else (.error (ascii "ERR"), false)
    | .exec => (.error (ascii "EXECABORT"), false)
    | _ => (.status (ascii "QUEUED"), inMulti)

/-- It keeps the promises about transactions. -/
def abortingTransactions : Transactions abortingServer where
  inMulti := id
  wellFormed inMulti args := by
    simp only [abortingServer]
    split
    · split
      · exact .error (by decide)
      · exact .status (by decide)
    · split
      · exact .status (by decide)
      · exact .error (by decide)
    · exact .error (by decide)
    · exact .status (by decide)
  fresh _ := rfl
  multi inMulti args named := by
    simp only [abortingServer, named]
    cases inMulti
    · exact Or.inl ⟨⟨_, rfl⟩, rfl⟩
    · exact Or.inr ⟨⟨_, rfl⟩, rfl⟩
  discard inMulti args named := by
    simp only [abortingServer, named]
    cases inMulti
    · exact Or.inr ⟨⟨_, rfl⟩, rfl⟩
    · exact Or.inl ⟨⟨_, rfl⟩, rfl⟩
  exec inMulti args named := by
    simp only [abortingServer, named]
    rfl
  other inMulti args multi discard exec := by
    simp only [abortingServer]

/-- A client of this server that has not connected yet. -/
def abortingClient : RedisProtocol (Endpoint abortingServer) :=
  new (ascii "localhost") (ascii "6379") 1000 (.start ⟨[], false⟩ [])

/-- Behind a connection and a MULTI the mode is on, as on this server. -/
theorem transactionMode_mirrors_multi : ∃ p : RedisProtocol (Endpoint abortingServer),
    (p.stream = [] ∧
      p.transactionMode = abortingTransactions.inMulti p.tcpClient.os.peer.state) ∧
    p.transactionMode = true := by
  have shows : (abortingClient.connect.2.perform (.exec (.new .multi))).toOption.map
      (fun p => (p.tcpClient.fd, p.transactionMode)) = some (3, true) := by decide +kernel
  obtain ⟨p, performs, seen⟩ := returned_of_view shows
  obtain ⟨fd, mode⟩ := Prod.mk.inj seen
  have keeps : (Call.exec (.new .multi)).KeepsMode abortingClient.connect.2 := by
    refine ⟨by decide +kernel, fun left refuses => ?_⟩
    have status : (abortingServer.handle abortingClient.connect.2.tcpClient.os.peer.state
        (requestOf (.new .multi))).1 = .status (ascii "OK") := by
      have named : commandOf (requestOf (.new .multi)) = .multi :=
        (names_requestOf (.new .multi) .multi (by decide)).mpr rfl
      simp only [abortingServer, named]
      rfl
    rw [status] at refuses
    exact absurd refuses (not_refuses (by simp) (by simp [IsArray]) left)
  have run : Simulation.Run (fun p call p' => perform p call = .ok p' ∧ call.KeepsMode p)
      abortingClient [.connect, .exec (.new .multi)] p :=
    .step ⟨rfl, rfl⟩ (.step ⟨performs, keeps⟩ (.done p))
  exact ⟨p, transactionMode_mirrors abortingTransactions _ _ _ rfl run (by simp [fd]), mode⟩

/-- What a run from this client ends in is what performing its operations ends in. -/
theorem abortingClient_runs (calls : List Call) {fd : Int} {stream : Bytes} {mode inMulti : Bool}
    (shows : (calls.foldlM perform abortingClient).toOption.map (fun p =>
      (p.tcpClient.fd, p.stream, p.transactionMode, p.tcpClient.os.peer.state)) =
        some (fd, stream, mode, inMulti)) :
    ∃ p, Simulation.Run (fun p call p' => p.perform call = .ok p') abortingClient calls p ∧
      p.tcpClient.fd = fd ∧ p.stream = stream ∧ p.transactionMode = mode ∧
      p.tcpClient.os.peer.state = inMulti := by
  obtain ⟨p, performs, seen⟩ := returned_of_view shows
  simp only [Prod.mk.injEq] at seen
  exact ⟨p, Simulation.Run.of_foldlM performs, seen⟩

/-- An EXEC that is answered by an error ends the transaction of the server only; and so does a new
connection. -/
theorem transactionMode_not_mirrors :
    (∃ p, Simulation.Run (fun p call p' => p.perform call = .ok p') abortingClient
      [.connect, .exec (.new .multi), .exec (.new .exec)] p ∧ p.tcpClient.fd ≠ -1 ∧ p.stream = [] ∧
      p.transactionMode ≠ abortingTransactions.inMulti p.tcpClient.os.peer.state) ∧
    (∃ p, Simulation.Run (fun p call p' => p.perform call = .ok p') abortingClient
      [.connect, .exec (.new .multi), .connect] p ∧ p.tcpClient.fd ≠ -1 ∧ p.stream = [] ∧
      p.transactionMode ≠ abortingTransactions.inMulti p.tcpClient.os.peer.state) := by
  constructor
  · obtain ⟨p, run, fd, stream, mode, state⟩ := abortingClient_runs
      [.connect, .exec (.new .multi), .exec (.new .exec)]
      (show _ = some (3, [], true, false) by decide +kernel)
    refine ⟨p, run, by simp [fd], stream, ?_⟩
    simp [abortingTransactions, mode, state]
  · obtain ⟨p, run, fd, stream, mode, state⟩ := abortingClient_runs
      [.connect, .exec (.new .multi), .connect]
      (show _ = some (3, [], true, false) by decide +kernel)
    refine ⟨p, run, by simp [fd], stream, ?_⟩
    simp [abortingTransactions, mode, state]

end RedisProtocol

end LibRedis
