import LibRedis.PipelineHistory

/-!
# Runs in the selected database

Every call of a client that sends data commands, and the condition under which it keeps the selected
database that of the connection. Four kinds of calls do not: an explicit `connect` while the
database is taken for selected; a `select` that finds the connection lost, makes a new one and is
refused; `add_command`, which looks at the connection but selects nothing, while the database is
known not to be selected; and a pipeline that leaves replies behind it, since the next `select` takes
one of them for its own.
-/

namespace LibRedis

open Decimal (ascii)
open Resp (Reply)
open RedisProtocol (LeavesNothing Passes commandText requestOf)

variable {σ : Type} {server : Server σ}

namespace Redis2

/-- A call of the client. -/
inductive Call where
  /-- `connect`. -/
  | connect
  /-- `close`. -/
  | close
  /-- `select`. -/
  | select (index : Int32)
  /-- A command. -/
  | data (c : RedisCommand)
  /-- A command from a text. -/
  | datav (c : RedisCommand) (buf : Bytes)
  /-- A command that waits without a timeout. -/
  | blocking (c : RedisCommand)
  /-- `exec_pipeline`. -/
  | pipeline (commands : List RedisCommand)
  /-- `add_command`. -/
  | add (c : RedisCommand)
  /-- `add_command` with a text. -/
  | addv (c : RedisCommand) (buf : Bytes)

/-- What a call returns and leaves. -/
def call {π : Type} [Peer π] (r : Redis2 π) : Call → Except Abort (Bool × Redis2 π)
  | .connect => .ok r.connect
  | .close => .ok (true, r.close)
  | .select index => r.select index
  | .data c => (r.execCommand c).map fun (ok, _, r) => (ok, r)
  | .datav c buf => (r.execCommandv c buf).map fun (ok, _, r) => (ok, r)
  | .blocking c => (r.execBlocking c).map fun (ok, _, r) => (ok, r)
  | .pipeline commands => (r.execPipeline commands).map fun (ok, _, r) => (ok, r)
  | .add c => r.addCommand c
  | .addv c buf => r.addCommandv c buf

/-- The database that is chosen after a call. -/
def Call.chooses (chosen : Int32) (ok : Bool) : Call → Int32
  | .select index => if ok then index else chosen
  | _ => chosen

/-- A client together with the database that was chosen last. -/
def track {π : Type} [Peer π] (tracked : Redis2 π × Int32) (call : Call) :
    Except Abort (Redis2 π × Int32) :=
  (tracked.1.call call).map fun (ok, r) => (r, call.chooses tracked.2 ok)

/-- The states in which a server can meet the requests behind `assure_connect`: there may be new
connections, and SELECT of the remembered database. -/
inductive Meets (server : Server σ) (index : Int32) (state : σ) : σ → Prop
  /-- The connection is open, and the database selected. -/
  | here : Meets server index state state
  /-- A connection is made. -/
  | fresh {met : σ} (before : Meets server index state met) :
      Meets server index state (server.fresh met)
  /-- The database is selected, or SELECT is refused. -/
  | select {met : σ} (before : Meets server index state met) :
      Meets server index state (server.handle met (requestOf (selectCommand index))).2

/-- A pipeline of data commands that leaves no reply behind: the first is refused for its arguments,
or none is, and no command but the last is answered by an error. -/
structure DataPipeline (r : Redis2 (Endpoint server)) (commands : List RedisCommand) : Prop where
  /-- Its requests are not too long. -/
  small : ∀ c ∈ commands, (commandText c).length < 2 ^ 31
  /-- It selects no database, and opens no transaction. -/
  data : ∀ c ∈ commands, c.command ≠ .select ∧ c.command ≠ .multi
  /-- There is no error inside an array. -/
  flat : ∀ state, Meets server r.dbIndex r.proto.tcpClient.os.peer.state state →
    ∀ reply ∈ server.answers state (commands.map requestOf), NoNestedError reply
  /-- No reply is left behind. -/
  quiet : ∀ state, Meets server r.dbIndex r.proto.tcpClient.os.peer.state state →
    (∃ c rest, commands = c :: rest ∧ ¬ Passes c) ∨ ((∀ c ∈ commands, Passes c) ∧
      ¬ ErrorBeforeLast false commands (server.answers state (commands.map requestOf)))

/-- The chosen database is that of the connection, as far as the client knows, or there is no
connection. -/
def KnowsSelected {π : Type} (r : Redis2 π) : Prop :=
  r.proto.isOpen.1 = false ∨ r.dbIndex = 0 ∨ r.dbIndexSelectFailure = false

/-- A call that keeps the database selected. -/
def Call.KeepsDatabase (r : Redis2 (Endpoint server)) : Call → Prop
  | .connect => r.dbIndex = 0 ∨ r.dbIndexSelectFailure = true
  | .close => True
  | .select index => r.KeepsSelected index
  | .data c | .blocking c =>
      (commandText c).length < 2 ^ 31 ∧ DataRequest server c (requestOf c)
  | .datav c buf =>
      (RedisProtocol.commandvText (RedisProtocol.splitWords buf)).length < 2 ^ 31 ∧
        DataRequest server (RedisProtocol.commandvOf c buf) (RedisProtocol.splitWords buf)
  | .pipeline commands => r.DataPipeline commands
  | .add c => r.KnowsSelected ∧
      (commandText c).length < 2 ^ 31 ∧ DataRequest server c (requestOf c)
  | .addv c buf => r.KnowsSelected ∧
      (RedisProtocol.commandvText (RedisProtocol.splitWords buf)).length < 2 ^ 31 ∧
        DataRequest server (RedisProtocol.commandvOf c buf) (RedisProtocol.splitWords buf)

/-- What a command that waits does behind `assure_connect`. -/
def execWaiting {π : Type} [Peer π] (r : Redis2 π) (c : RedisCommand) :
    Except Abort (Bool × RedisCommand × Redis2 π) := do
  let (ok, c, r') ← (r.setBlockingMode true).protoExecCommand c
  return (ok, c, r'.setBlockingMode r.proto.blockingMode)

variable {laws : Databases server} {r r' : Redis2 (Endpoint server)} {chosen : Int32}

/-- `check_connect` executes nothing, and where the client knows that the chosen database is that of
the connection it is. -/
theorem Tracks.checkConnect (tracks : r.Tracks laws chosen) {connected : Bool}
    (checks : r.checkConnect = (connected, r')) :
    r'.Tracks laws chosen ∧
      r'.proto.tcpClient.os.peer.state = r.proto.tcpClient.os.peer.state ∧
      (connected = true → r.KnowsSelected →
        laws.db r'.proto.tcpClient.os.peer.state = r'.dbIndex) := by
  obtain ⟨found, p, shows, looks, alive, -⟩ :=
    RedisProtocol.isOpen_cases tracks.plain.synced.valid
  have tracks₁ : ({ r with proto := p } : Redis2 (Endpoint server)).Tracks laws chosen := by
    refine ⟨tracks.plain.looks looks, tracks.chosen, fun connected => ?_⟩
    change laws.db p.tcpClient.os.peer.state = _ ∨ _
    rw [looks.peer]
    exact tracks.database (looks.fd ▸ connected)
  have state : p.tcpClient.os.peer.state = r.proto.tcpClient.os.peer.state := by rw [looks.peer]
  rw [Redis2.checkConnect, RedisProtocol.checkConnect, shows] at checks
  cases found with
  | false =>
    cases checks
    exact ⟨tracks₁.frame _ p.blockingMode, state, by simp⟩
  | true =>
    cases checks
    refine ⟨tracks₁, state, fun _ knows => ?_⟩
    obtain ⟨proceeds, open_⟩ := alive rfl
    change laws.db p.tcpClient.os.peer.state = r.dbIndex
    rw [state]
    rcases tracks.database open_ with same | ⟨other, flag⟩
    · exact same
    · rcases knows with closed | zero | clear
      · rw [shows] at closed
        cases closed
      · exact absurd zero other
      · rw [flag] at clear
        cases clear

/-- The queue of the client is no part of what is tracked. -/
theorem Tracks.queue (tracks : r.Tracks laws chosen) (commands : List RedisCommand) :
    ({ r with transactionCmds := commands } : Redis2 (Endpoint server)).Tracks laws chosen :=
  ⟨tracks.plain, tracks.chosen, tracks.database⟩

/-- What is executed between two states and behind them. -/
theorem ExecutesIn.trans {first next last : σ} (before : ExecutesIn laws chosen first next)
    (behind : ExecutesIn laws chosen next last) : ExecutesIn laws chosen first last := by
  obtain ⟨entries, executed, all⟩ := before
  obtain ⟨later, executed', all'⟩ := behind
  refine ⟨entries ++ later, ?_, fun entry member => ?_⟩
  · rw [executed', executed, List.append_assoc]
  · rcases List.mem_append.mp member with here | there
    · exact all entry here
    · exact all' entry there

/-- Commands other than SELECT are executed one after the other in the database of the
connection. -/
theorem after_executes (laws : Databases server) {commands : List RedisCommand}
    (data : ∀ c ∈ commands, c.command ≠ .select) (state : σ) :
    laws.db (server.after state (commands.map requestOf)) = laws.db state ∧
      ExecutesIn laws (laws.db state) state (server.after state (commands.map requestOf)) := by
  induction commands generalizing state with
  | nil => exact ⟨rfl, executesIn_nothing rfl⟩
  | cons c rest ih =>
    have other : commandOf (requestOf c) ≠ .select := fun named =>
      data c List.mem_cons_self ((names_requestOf c .select (by decide)).mp named)
    have same := (laws.other state (requestOf c) other).1
    obtain ⟨db, executed⟩ := ih (fun c' member => data c' (List.mem_cons_of_mem c member))
      (server.handle state (requestOf c)).2
    rw [same] at db executed
    exact ⟨db, (executesIn_request other).trans executed⟩

/-- Replies of a server are well formed. -/
theorem answers_wellFormed (laws : Databases server) (state : σ) (requests : List (List Bytes)) :
    ∀ reply ∈ server.answers state requests, reply.WellFormed := by
  induction requests generalizing state with
  | nil => simp [Server.answers]
  | cons args rest ih => exact List.forall_mem_cons.mpr ⟨laws.wellFormed state args, ih _⟩

/-- A pipeline on a connection whose database is the chosen one. -/
theorem Tracks.protoExecPipeline (tracks : r.Tracks laws chosen)
    (selected : r.proto.tcpClient.fd ≠ -1 → laws.db r.proto.tcpClient.os.peer.state = r.dbIndex)
    {commands answered : List RedisCommand} {p : RedisProtocol (Endpoint server)}
    (data : ∀ c ∈ commands, c.command ≠ .select ∧ c.command ≠ .multi)
    (leaves : LeavesNothing r.proto commands)
    (flat : ∀ reply ∈ server.answers r.proto.tcpClient.os.peer.state (commands.map requestOf),
      NoNestedError reply) {ok : Bool}
    (returns : r.proto.execPipeline commands = .ok (ok, answered, p)) :
    ({ r with proto := p } : Redis2 (Endpoint server)).Tracks laws chosen ∧
      ExecutesIn laws chosen r.proto.tcpClient.os.peer.state p.tcpClient.os.peer.state := by
  have synced := tracks.plain.synced
  obtain ⟨rounds, pending, -, entries, -, state, some, ⟨sent, front, names⟩, -⟩ :=
    synced.execPipeline laws.wellFormed leaves.1 returns
  have settled := (RedisProtocol.execPipeline_leaves synced leaves.1 fun reply member =>
    ⟨answers_wellFormed laws _ _ reply member, flat reply member⟩).1 leaves ok answered p returns
  have plain : Plain p := by
    refine ⟨⟨rounds.valid, fun alive => settled.resolve_left alive, pending⟩, ?_⟩
    exact rounds.mode tracks.plain.mode fun c member => (data c member).2
  obtain ⟨db, executed⟩ := after_executes laws
    (fun c member => (data c (front.subset member)).1) r.proto.tcpClient.os.peer.state
  rw [names] at state
  have same : p.tcpClient.os.peer.state =
      server.after r.proto.tcpClient.os.peer.state (sent.map requestOf) := state
  rw [← same] at db executed
  refine ⟨⟨plain, tracks.chosen, fun alive => Or.inl ?_⟩, ?_⟩
  · exact db.trans (selected (rounds.fd alive ▸ alive))
  · by_cases none : entries = []
    · have nothing : sent.map requestOf = [] := by rw [← names, none, List.map_nil]
      rw [same, nothing]
      exact executesIn_nothing rfl
    · rw [selected (some none), tracks.chosen] at executed
      exact executed

/-- A pipeline that leaves nothing behind it, wherever it meets the server. -/
theorem Tracks.execPipeline (tracks : r.Tracks laws chosen) {commands answered : List RedisCommand}
    (pipeline : r.DataPipeline commands) {ok : Bool}
    (returns : r.execPipeline commands = .ok (ok, answered, r')) :
    r'.Tracks laws chosen ∧
      ExecutesIn laws chosen r.proto.tcpClient.os.peer.state r'.proto.tcpClient.os.peer.state := by
  obtain ⟨⟨connected, r₁⟩, assures, sends⟩ := bind_returns returns
  obtain ⟨tracks₁, executed, selected⟩ := tracks.assureConnect assures
  have met : Meets server r.dbIndex r.proto.tcpClient.os.peer.state
      r₁.proto.tcpClient.os.peer.state :=
    Plain.assureConnect_keeps laws.wellFormed
      (fun state => Meets server r.dbIndex r.proto.tcpClient.os.peer.state state)
      tracks.plain (fun _ before => before.fresh) .here (fun _ before => before.select) assures
  cases connected with
  | false =>
    cases sends
    exact ⟨tracks₁, executesIn_nothing executed⟩
  | true =>
    obtain ⟨⟨done, written, p⟩, executes, same⟩ := bind_returns sends
    cases same
    have leaves : LeavesNothing r₁.proto commands := by
      refine ⟨pipeline.small, ?_⟩
      rw [tracks₁.plain.mode]
      exact pipeline.quiet _ met
    obtain ⟨tracks', entries, more, all⟩ := tracks₁.protoExecPipeline (selected rfl) pipeline.data
      leaves (pipeline.flat _ met) executes
    exact ⟨tracks', entries, by rw [more, executed], all⟩

/-- One step: a call that keeps the database selected leaves it so, and executes in the chosen
database what it executes. -/
theorem Tracks.step (tracks : r.Tracks laws chosen) {call : Call} (keeps : call.KeepsDatabase r)
    {ok : Bool} (returns : r.call call = .ok (ok, r')) :
    r'.Tracks laws (call.chooses chosen ok) ∧
      ExecutesIn laws chosen r.proto.tcpClient.os.peer.state r'.proto.tcpClient.os.peer.state := by
  have valid := tracks.plain.synced.valid
  cases call with
  | connect =>
    have connects : r.connect = (ok, r') := Except.ok.inj returns
    rw [Redis2.connect] at connects
    rcases RedisProtocol.connect_cases valid with ⟨ok₁, p, same, shuts⟩ | ⟨p, same, opens⟩
    · rw [same] at connects
      cases connects
      refine ⟨⟨tracks.plain.shuts shuts, tracks.chosen, fun alive => absurd shuts.fd alive⟩, ?_⟩
      exact executesIn_nothing (by rw [shuts.peer])
    · rw [same] at connects
      cases connects
      obtain ⟨-, db, executed⟩ := opens_database laws opens
      refine ⟨⟨tracks.plain.opens opens, tracks.chosen, fun _ => ?_⟩, executesIn_nothing executed⟩
      change laws.db p.tcpClient.os.peer.state = r.dbIndex ∨ _
      rw [db]
      by_cases first : r.dbIndex = 0
      · exact Or.inl first.symm
      · exact Or.inr ⟨first, keeps.resolve_left first⟩
  | close =>
    cases returns
    have closes := valid.close_receives
    refine ⟨⟨⟨RedisProtocol.Valid.synced closes.1.valid closes.2, rfl⟩, tracks.chosen,
      fun alive => absurd closes.2 alive⟩, executesIn_nothing ?_⟩
    change laws.executed r.proto.tcpClient.close.os.peer.state = _
    rw [closes.1.frame]
  | select index =>
    obtain ⟨tracks', executed, -⟩ := tracks.select keeps returns
    exact ⟨tracks', executesIn_nothing executed⟩
  | data c =>
    obtain ⟨⟨ok₁, c', r₁⟩, performs, same⟩ := map_returns returns
    cases same
    exact tracks.assured c (fun r => r.protoExecCommand c) performs fun r₂ tracks₂ selected sends =>
      tracks₂.protoExecCommand selected keeps.1 keeps.2 sends
  | datav c buf =>
    obtain ⟨⟨ok₁, c', r₁⟩, performs, same⟩ := map_returns returns
    cases same
    exact tracks.assured c (fun r => r.protoExecCommandv c buf) performs
      fun r₂ tracks₂ selected sends => tracks₂.protoExecCommandv selected keeps.1 keeps.2 sends
  | blocking c =>
    obtain ⟨⟨ok₁, c', r₁⟩, performs, same⟩ := map_returns returns
    cases same
    refine tracks.assured c (fun r => r.execWaiting c) performs fun r₂ tracks₂ selected sends => ?_
    obtain ⟨⟨ok₂, c₂, r₃⟩, executes, ends⟩ := bind_returns sends
    cases ends
    obtain ⟨tracks₃, executed⟩ := (tracks₂.frame r₂.proto.error true).protoExecCommand selected
      keeps.1 keeps.2 executes
    exact ⟨tracks₃.frame r₃.proto.error r₂.proto.blockingMode, executed⟩
  | pipeline commands =>
    obtain ⟨⟨ok₁, answered, r₁⟩, performs, same⟩ := map_returns returns
    cases same
    exact tracks.execPipeline keeps performs
  | add c =>
    rcases (addCommand_returns returns).2 with closed | ⟨r₁, sent, c', p, checks, answers, rfl⟩
    · obtain ⟨tracks', state, -⟩ := tracks.checkConnect closed
      exact ⟨tracks', executesIn_nothing (by rw [state])⟩
    · obtain ⟨tracks₁, state, selected⟩ := tracks.checkConnect checks
      obtain ⟨tracks', executed⟩ := tracks₁.protoExecCommand (fun _ => selected rfl keeps.1)
        keeps.2.1 keeps.2.2 (Redis2.protoExecCommand_eq answers)
      exact ⟨tracks'.queue _, state ▸ executed⟩
  | addv c buf =>
    rcases addCommandv_returns returns with ⟨-, closed⟩ | ⟨r₁, c', p, checks, answers, rfl⟩
    · obtain ⟨tracks', state, -⟩ := tracks.checkConnect closed
      exact ⟨tracks', executesIn_nothing (by rw [state])⟩
    · obtain ⟨tracks₁, state, selected⟩ := tracks.checkConnect checks
      obtain ⟨tracks', executed⟩ := tracks₁.protoExecCommandv (fun _ => selected rfl keeps.1)
        keeps.2.1 keeps.2.2 (Redis2.protoExecCommandv_eq answers)
      exact ⟨tracks'.queue _, state ▸ executed⟩

/-- In every run from a new client whose calls keep the database selected, the client knows the
database that was chosen last, and the next such call executes there whatever it executes. -/
theorem commands_run_in_chosen (laws : Databases server) (host port : Bytes) (dbIndex : Int32)
    (timeout : Int) {os : Os (Endpoint server)} (silent : os.incoming = []) {calls : List Call}
    {tracked tracked' : Redis2 (Endpoint server) × Int32}
    (run : Simulation.Run (fun tracked call tracked' => track tracked call = .ok tracked' ∧
      call.KeepsDatabase tracked.1) (new host port dbIndex timeout os, dbIndex) calls tracked)
    {call : Call} (keeps : call.KeepsDatabase tracked.1)
    (returns : track tracked call = .ok tracked') :
    tracked.1.dbIndex = tracked.2 ∧ ExecutesIn laws tracked.2
      tracked.1.proto.tcpClient.os.peer.state tracked'.1.proto.tcpClient.os.peer.state := by
  have start := new_tracks laws host port dbIndex timeout silent
  have preserved : ∀ (tracked : Redis2 (Endpoint server) × Int32) (call : Call)
      (tracked' : Redis2 (Endpoint server) × Int32), tracked.1.Tracks laws tracked.2 →
      (track tracked call = .ok tracked' ∧ call.KeepsDatabase tracked.1) →
      tracked'.1.Tracks laws tracked'.2 := by
    intro tracked call tracked' tracks step
    obtain ⟨⟨ok, r⟩, performs, same⟩ := map_returns step.1
    cases same
    exact (tracks.step step.2 performs).1
  have tracks := run.invariant preserved start
  obtain ⟨⟨ok, r⟩, performs, same⟩ := map_returns returns
  cases same
  exact ⟨tracks.chosen, (tracks.step keeps performs).2⟩

/-- Database 1 is selected, and a command runs there. -/
theorem commands_run_in_chosen_select : ∃ tracked tracked' : Redis2 (Endpoint twoDatabases) × Int32,
    tracked.1.dbIndex = tracked.2 ∧ ExecutesIn twoDatabasesLaws tracked.2
      tracked.1.proto.tcpClient.os.peer.state tracked'.1.proto.tcpClient.os.peer.state := by
  have shows : ([.select 1, .data getKey].foldlM track (twoDatabasesClient, 0)).toOption.map
      (fun tracked => tracked.2) = some 1 := by decide +kernel
  obtain ⟨last, performs, -⟩ := returned_of_view shows
  rw [List.foldlM_cons] at performs
  obtain ⟨tracked, selects, performs⟩ := bind_returns performs
  obtain ⟨tracked', returns, -⟩ := bind_returns performs
  have keepsSelect : (Call.select 1).KeepsDatabase twoDatabasesClient := Or.inr (Or.inl rfl)
  have keepsGet : (Call.data getKey).KeepsDatabase tracked.1 := by
    refine ⟨by decide +kernel, by decide, by decide, fun state left refuses => ?_⟩
    have named : commandOf (requestOf getKey) ≠ .select := by decide +kernel
    simp only [twoDatabases, if_neg named] at refuses
    exact absurd refuses (RedisProtocol.not_refuses (by simp) (by simp [IsArray]) left)
  exact ⟨tracked, tracked', commands_run_in_chosen twoDatabasesLaws _ _ 0 _ rfl
    (.step ⟨selects, keepsSelect⟩ (.done tracked)) keepsGet returns⟩

/-- Database 1 is selected, the connection is made anew, and a command runs in database 0; and so
does one that is queued by a client whose database was 1 from the start. -/
theorem commands_not_in_chosen :
    (∃ tracked, Simulation.Run (fun tracked call tracked' => track tracked call = .ok tracked')
      (twoDatabasesClient, 0) [.select 1, .connect, .data getKey] tracked ∧ tracked.2 = 1 ∧
      twoDatabasesLaws.executed tracked.1.proto.tcpClient.os.peer.state =
        [(0, [ascii "GET", ascii "k"])]) ∧
    ∃ tracked, Simulation.Run (fun tracked call tracked' => track tracked call = .ok tracked')
      ({ twoDatabasesClient with dbIndex := 1 }, 1) [.connect, .add getKey] tracked ∧
      tracked.2 = 1 ∧ twoDatabasesLaws.executed tracked.1.proto.tcpClient.os.peer.state =
        [(0, [ascii "GET", ascii "k"])] := by
  constructor
  · have shows : ([.select 1, .connect, .data getKey].foldlM track
        (twoDatabasesClient, 0)).toOption.map (fun tracked =>
          (tracked.2, tracked.1.proto.tcpClient.os.peer.state.2)) =
        some (1, [(0, [ascii "GET", ascii "k"])]) := by decide +kernel
    obtain ⟨tracked, performs, seen⟩ := returned_of_view shows
    obtain ⟨chosen, executed⟩ := Prod.mk.inj seen
    exact ⟨tracked, Simulation.Run.of_foldlM performs, chosen, executed⟩
  · have shows : ([.connect, .add getKey].foldlM track
        ({ twoDatabasesClient with dbIndex := 1 }, 1)).toOption.map (fun tracked =>
          (tracked.2, tracked.1.proto.tcpClient.os.peer.state.2)) =
        some (1, [(0, [ascii "GET", ascii "k"])]) := by decide +kernel
    obtain ⟨tracked, performs, seen⟩ := returned_of_view shows
    obtain ⟨chosen, executed⟩ := Prod.mk.inj seen
    exact ⟨tracked, Simulation.Run.of_foldlM performs, chosen, executed⟩

end Redis2

end LibRedis
