import LibRedis.Pipeline
import LibRedis.SharedServer
import LibRedis.TransactionRuns

/-!
# Transactions of clients that share a server

Clients that share a server may run transactions, each on its own connection. Whatever the others do
while a transaction is put together, the server executes it in one turn. What `exec` returns are
commands that were given to `add_command`, each with what it has answered there, and they are all that
were executed. Behind a `watch` nobody has changed the keys by then, unless the client was connected
anew in between.
-/

namespace LibRedis

open Decimal (ascii)
open Resp (Reply)
open RedisProtocol (requestOf)
open Traces (part Linked)

variable {ι γ δ : Type} [DecidableEq ι] {server : Server (γ × δ)}

/-- The state of a server behind some requests. -/
def Server.behind {σ : Type} (server : Server σ) (state : σ) (requests : List (List Bytes)) : σ :=
  requests.foldl (fun state args => (server.handle state args).2) state

/-- What a server of connections and data promises about transactions: a connection has a queue of its
own, and EXEC executes all of it in one turn. -/
structure Transacts (server : Server (γ × δ)) extends TransactionQueue server where
  /-- The queue is that of the connection. -/
  own (connection : γ) (data data' : δ) : queue (connection, data) = queue (connection, data')
  /-- What the server does with requests that it does not queue. -/
  executing : Server (γ × δ)
  /-- EXEC that is answered by an array does this with all that is queued. -/
  atomic (connection : γ) (data : δ) {queued : List (List Bytes)} {elements : List Reply}
    (inside : queue (connection, data) = some queued)
    (answers : (server.handle (connection, data) (requestOf (.new .exec))).1 = .array elements) :
    elements = executing.answers (connection, data) queued ∧
      (server.handle (connection, data) (requestOf (.new .exec))).2.2 =
        (executing.behind (connection, data) queued).2

namespace Transacts

/-- The queue that a client meets. -/
def queueOf (transacts : Transacts server) (share : Share γ δ) : Option (List (List Bytes)) :=
  transacts.queue (share.connection, share.found share.turns.length)

/-- Behind a request it is that of the server. -/
theorem queueOf_handle (transacts : Transacts server) (share : Share γ δ) (args : List Bytes) :
    transacts.queueOf (server.shared.handle share args).2 =
      transacts.queue (server.handle (share.connection, share.found share.turns.length) args).2 :=
  transacts.own _ _ _

/-- What a client meets keeps the promises about queued commands. -/
def shared (transacts : Transacts server) : TransactionQueue server.shared where
  queue := transacts.queueOf
  wellFormed share args := transacts.wellFormed _ args
  fresh share := (transacts.own _ _ _).trans (transacts.fresh (share.connection, _))
  multi share args named := by
    rw [queueOf_handle]
    exact transacts.multi _ args named
  discard share args named := by
    rw [queueOf_handle]
    exact transacts.discard _ args named
  exec share args named := by
    rw [queueOf_handle]
    exact transacts.exec _ args named
  watch share args named queued inside := by
    rw [queueOf_handle]
    exact transacts.watch _ args named inside
  queues share args multi discard exec watch queued inside := by
    rw [queueOf_handle]
    exact transacts.queues _ args multi discard exec watch inside
  outside share args multi outside := by
    rw [queueOf_handle]
    exact transacts.outside _ args multi outside

end Transacts

namespace Redis2

variable {before after : δ} {calls : ι → List (Action × Told)} {trace : List (ι × Turn δ)}
  {transacts : Transacts server}

/-- A turn in which a transaction of commands that were given is executed, all at once, and these are
returned with what they have answered. -/
def Commits (transacts : Transacts server) (given commands : List RedisCommand) (turn : Turn δ) :
    Prop :=
  ∃ connection remembered queued,
    transacts.queue (connection, turn.before) = some queued ∧
    List.Forall₂ QueuedAs remembered queued ∧
    (remembered.map unanswered).Sublist (given.map unanswered) ∧
    turn.entry = some (requestOf (.new .exec),
      .array (transacts.executing.answers (connection, turn.before) queued)) ∧
    turn.after = (transacts.executing.behind (connection, turn.before) queued).2 ∧
    commands = List.zipWith answered remembered
      (denoteAll (transacts.executing.answers (connection, turn.before) queued))

/-- EXEC answers each command. -/
theorem answersEach_shared (transacts : Transacts server) : AnswersEach transacts.shared := by
  intro share queued elements inside answers
  have executed := transacts.atomic share.connection _ inside answers
  rw [executed.1, Server.length_answers]

/-- `exec` that returns commands is one turn, which commits them. -/
theorem exec_commits (whole : AnswersWhole server) {r r' : Redis2 (Endpoint server.shared)}
    (remembers : r.Remembers transacts.shared) {commands : List RedisCommand}
    (recalls : Recalls commands r) {done : List RedisCommand}
    (returns : r.exec = .ok (some done, r')) :
    ∃ turn, server.Grows r.proto.served [turn] r'.proto.served ∧
      Commits transacts commands done turn := by
  have executes := (remembers.exec (Server.shared_whole whole) (answersEach_shared transacts)
    returns).2 done rfl
  obtain ⟨queued, elements, inside, each, handles, rfl⟩ := executes.answers
  let share := r.proto.served
  let data := share.found share.turns.length
  let turns := server.handle (share.connection, data) (requestOf (.new .exec))
  have answers : turns.1 = .array elements := congrArg Prod.fst handles
  obtain ⟨all, leaves⟩ := transacts.atomic share.connection data inside answers
  have behind : r'.proto.served = (server.shared.handle share (requestOf (.new .exec))).2 :=
    congrArg Prod.snd handles.symm
  have grows : server.Grows share [⟨some (requestOf (.new .exec), turns.1), data, turns.2.2⟩]
      r'.proto.served := by
    rw [behind]
    exact ⟨rfl, .request _ _ (.idle _)⟩
  refine ⟨_, grows, share.connection, r.transactionCmds, queued, inside, each, recalls, ?_, leaves,
    ?_⟩
  · rw [answers, all]
  · rw [all]

/-- The entries of a call are those of a SELECT before it and of what it asks. -/
theorem Sending.Accounts.asked {sending : Sending} {ok : Bool} {out : RedisOutput}
    {entries : List Entry} (accounts : sending.Accounts ok out entries) :
    ∀ entry ∈ entries, IsSelect entry.1 ∨ entry.1 ∈ sending.asks := by
  have own {command : Command} {args : List Bytes} (asks : args ∈ sending.asks)
      {entries : List Entry} (executed : Executed command args ok out entries) :
      ∀ entry ∈ entries, IsSelect entry.1 ∨ entry.1 ∈ sending.asks := by
    rcases executed with ⟨rfl, -⟩ | ⟨reply, rfl, -⟩
    · simp
    · intro entry member
      rw [List.mem_singleton.mp member]
      exact Or.inr asks
  have behind {command : Command} {args : List Bytes} (asks : args ∈ sending.asks)
      (falls : ∃ selects own, entries = selects ++ own ∧ Selected selects ∧
        Executed command args ok out own) :
      ∀ entry ∈ entries, IsSelect entry.1 ∨ entry.1 ∈ sending.asks := by
    obtain ⟨selects, own', rfl, selected, executed⟩ := falls
    intro entry member
    rcases List.mem_append.mp member with member | member
    · exact Or.inl (selected.isSelect entry member)
    · exact own asks executed entry member
  cases sending with
  | connect =>
    cases accounts
    simp
  | close =>
    cases accounts
    simp
  | select index =>
    rcases accounts with ⟨rfl, -⟩ | ⟨reply, rfl, -⟩
    · simp
    · simpa using Or.inl ⟨index, rfl⟩
  | exec c => exact behind rfl accounts
  | execv c buf => exact behind rfl accounts
  | blocking c => exact behind rfl accounts
  | checked c => exact own rfl accounts
  | checkedv c buf => exact own rfl accounts

/-- What the turns of a call are, if these commands were given before it. -/
structure Taken (transacts : Transacts server) (commands : List RedisCommand) (step : Action × Told)
    (turns : List (Turn δ)) : Prop where
  /-- Besides connections and a SELECT they are what it asks. -/
  asked : ∀ turn ∈ turns, ∀ entry ∈ turn.entry, IsSelect entry.1 ∨ entry.1 ∈ step.1.sending.asks
  /-- A `watch` that succeeds is answered by a status. -/
  watches : ∀ keys, step.1 = .operate (.watch keys) → step.2.ok = true →
    ∃ turn ∈ turns, ∃ text, turn.entry = some (requestOf (watchCommand keys), .status text)
  /-- An `exec` that returns commands is one turn, which commits them. -/
  commits : step.1 = .operate .exec → step.2.ok = true →
    ∃ turn, turns = [turn] ∧ Commits transacts commands step.2.commands turn

/-- A client between two of its calls. -/
structure Running (transacts : Transacts server) (commands : List RedisCommand)
    (r : Redis2 (Endpoint server.shared)) : Prop where
  /-- No transaction is open, or its commands are remembered. -/
  remembers : r.Remembers transacts.shared
  /-- What is remembered was given. -/
  recalls : Recalls commands r

/-- A new client has nothing to remember. -/
theorem new_running (host port : Bytes) (dbIndex : Int32) (timeout : Int)
    (os : Os (Endpoint server.shared)) (silent : os.incoming = []) :
    Running transacts [] (new host port dbIndex timeout os) where
  remembers := Or.inl (.of_closed (new_synced host port dbIndex timeout silent) rfl)
  recalls := List.Sublist.refl _

/-- A `watch` that was answered by what `watch` reads was answered by a status. -/
theorem watch_status {keys : List Bytes} {out : RedisOutput} {entries : List Entry}
    (accounts : (Sending.exec (watchCommand keys)).Accounts true out entries) :
    ∃ text, (requestOf (watchCommand keys), Reply.status text) ∈ entries := by
  obtain ⟨selects, own, rfl, -, executed⟩ := accounts
  rcases executed with ⟨-, wrong⟩ | ⟨reply, rfl, succeeds⟩
  · cases wrong
  · obtain ⟨mode, accepts, -⟩ := succeeds rfl
    have reads : RedisProtocol.typeRead true mode (watchCommand keys).command = .status := by
      cases mode with
      | false => rfl
      | true => rfl
    rw [reads] at accepts
    obtain ⟨text, rfl⟩ := accepts
    exact ⟨text, by simp⟩

/-- One step: what the turns of a call are. -/
theorem Running.act (whole : AnswersWhole server) {commands : List RedisCommand}
    {r r' : Redis2 (Endpoint server.shared)} (running : Running transacts commands r)
    {step : Action × Told} (acts : Acts r step r') :
    Running transacts (given commands step) r' ∧ ∃ turns,
      server.Grows r.proto.served turns r'.proto.served ∧ Taken transacts commands step turns := by
  have all := Server.shared_whole whole
  have synced := running.remembers.synced
  have behind : Running transacts (given commands step) r' :=
    ⟨running.remembers.act all (answersEach_shared transacts) acts,
      running.recalls.act all synced acts⟩
  refine ⟨behind, ?_⟩
  by_cases commits : step.1 = .operate .exec ∧ step.2.ok = true
  · obtain ⟨action, told⟩ := step
    obtain ⟨rfl, good⟩ := commits
    obtain ⟨⟨executed, r₁⟩, returns, same⟩ := map_returns acts.2
    cases same
    obtain ⟨done, rfl⟩ := Option.isSome_iff_exists.mp good
    obtain ⟨turn, grows, commits⟩ := exec_commits whole running.remembers running.recalls returns
    obtain ⟨connection, remembered, queued, -, -, -, entry, -⟩ := id commits
    refine ⟨[turn], grows, ?_, by simp, fun _ _ => ⟨turn, rfl, commits⟩⟩
    intro turn' member asked is
    rw [List.mem_singleton.mp member, entry] at is
    rw [← Option.some.inj is]
    exact Or.inr rfl
  · obtain ⟨-, entries, history, accounts⟩ := act_accounts all synced ⟨acts.1.1, acts.2⟩
    obtain ⟨sent, out, good, accounts⟩ := accounts.sends
    obtain ⟨turns, grows, shows⟩ := Server.Grows.of_history history
    refine ⟨turns, grows, ?_, ?_, fun exec good => absurd ⟨exec, good⟩ commits⟩
    · intro turn member entry is
      apply accounts.asked entry
      rw [← shows]
      exact List.mem_filterMap.mpr ⟨turn, member, is⟩
    · intro keys watch done
      have success := good done
      rw [watch, success] at accounts
      obtain ⟨text, member⟩ := watch_status accounts
      rw [← shows] at member
      obtain ⟨turn, own, is⟩ := List.mem_filterMap.mp member
      exact ⟨turn, own, text, is⟩

/-- Along a run every call takes a piece of the turns. -/
theorem Running.run (whole : AnswersWhole server) {commands : List RedisCommand}
    {r last : Redis2 (Endpoint server.shared)} (running : Running transacts commands r)
    {steps : List (Action × Told)} (run : Simulation.Run Acts r steps last) :
    Running transacts (steps.foldl given commands) last ∧
    ∃ pieces : List (List (Turn δ)), server.Grows r.proto.served pieces.flatten last.proto.served ∧
      pieces.length = steps.length ∧ ∀ (n : Nat) (step : Action × Told), steps[n]? = some step →
        ∃ turns, pieces[n]? = some turns ∧
          Taken transacts ((steps.take n).foldl given commands) step turns := by
  induction run generalizing commands with
  | done r => exact ⟨running, [], .idle _, rfl, by simp⟩
  | @step r next last step steps head tail ih =>
    obtain ⟨running', turns, grows, taken⟩ := running.act whole head
    obtain ⟨ends, pieces, behind, length, later⟩ := ih running'
    refine ⟨ends, turns :: pieces, grows.append behind, congrArg (· + 1) length, ?_⟩
    intro n step' is
    cases n with
    | zero =>
      obtain rfl : step = step' := by simpa using is
      exact ⟨turns, rfl, taken⟩
    | succ n => exact later n step' is

/-- A client of several is new and makes its calls; what its share grows by are its turns. -/
theorem Together.starts (transacts : Transacts server)
    (together : Together server Acts before calls trace after) (i : ι) :
    ∃ r last : Redis2 (Endpoint server.shared), Running transacts [] r ∧
      Simulation.Run Acts r (calls i) last ∧
      ∀ turns, server.Grows r.proto.served turns last.proto.served → turns = part i trace := by
  obtain ⟨host, port, dbIndex, timeout, os, last, silent, nothing, run, own⟩ := together.client i
  refine ⟨_, last, new_running host port dbIndex timeout os silent, run, ?_⟩
  intro turns grows
  rw [← own, grows.1]
  change turns = os.peer.state.turns ++ turns
  rw [nothing, List.nil_append]

/-- Whatever clients do together, each `exec` that returns commands is one turn, in the order of the
calls of its client: it has executed these commands and no others, one after the other on the data
that all turns before it have left, and they are commands that were given to `add_command` since the
last transaction of the client has ended. -/
theorem transactions_at_once (whole : AnswersWhole server) (transacts : Transacts server)
    (together : Together server Acts before calls trace after) (i : ι) :
    ∃ pieces : List (List (Turn δ)), pieces.flatten = part i trace ∧
      pieces.length = (calls i).length ∧
      ∀ (n : Nat) (told : Told), (calls i)[n]? = some (.operate .exec, told) → told.ok = true →
        ∃ turn, pieces[n]? = some [turn] ∧
          Commits transacts (((calls i).take n).foldl given []) told.commands turn := by
  obtain ⟨r, last, running, run, own⟩ := together.starts transacts i
  obtain ⟨-, pieces, grows, length, taken⟩ := running.run whole run
  refine ⟨pieces, own _ grows, length, ?_⟩
  intro n told is good
  obtain ⟨turns, piece, taken⟩ := taken n _ is
  obtain ⟨turn, rfl, commits⟩ := taken.commits rfl good
  exact ⟨turn, piece, commits⟩

/-- Calls that are allowed whatever the client, one after the other, are a run. -/
theorem run_of_collect {π : Type} [Peer π] {actions : List Action} {r r' : Redis2 π}
    {steps : List (Action × Told)} (allowed : ∀ action ∈ actions, ∀ r : Redis2 π, action.Allowed r)
    (returns : Simulation.collect act actions r = .ok (steps, r')) :
    Simulation.Run Acts r steps r' ∧ steps.map Prod.fst = actions := by
  obtain ⟨run, names⟩ := Simulation.Run.of_collect returns
  refine ⟨?_, names⟩
  have each : ∀ step ∈ steps, ∀ r : Redis2 π, step.1.Allowed r := by
    intro step member
    apply allowed
    rw [← names]
    exact List.mem_map_of_mem member
  exact (run.and_label each).imp fun r step r' both => ⟨both.1 r, both.2⟩

end Redis2

/-- A server that counts, whatever the connection and the key. -/
def counter (γ : Type) : Server (γ × Int) where
  fresh state := state
  handle state args :=
    if commandOf args = .incr then (.integer (state.2 + 1), state.1, state.2 + 1)
    else (.status (ascii "OK"), state)

/-- A server that counts, with a queue for a connection and the numbers that it has seen when it began
to watch. -/
def guarded : Server ((Option (List (List Bytes)) × List Int) × Int) where
  fresh state := ((none, []), state.2)
  handle state args :=
    let ((queue, watched), number) := state
    match commandOf args, queue with
    | .multi, none => (.status (ascii "OK"), (some [], watched), number)
    | .multi, some queued => (.error (ascii "ERR"), (some queued, watched), number)
    | .discard, none => (.error (ascii "ERR"), (none, watched), number)
    | .discard, some _ => (.status (ascii "OK"), (none, []), number)
    | .exec, none => (.error (ascii "ERR"), (none, []), number)
    | .exec, some queued =>
      if watched.all (· = number) then
        let state := ((queue, watched), number)
        (.array ((counter _).answers state queued), (none, []),
          ((counter _).behind state queued).2)
      else (.nilArray, (none, []), number)
    | .watch, none => (.status (ascii "OK"), (none, number :: watched), number)
    | .watch, some queued => (.error (ascii "ERR"), (some queued, watched), number)
    | .unwatch, none => (.status (ascii "OK"), (none, []), number)
    | _, some queued => (.status (ascii "QUEUED"), (some (queued ++ [args]), watched), number)
    | _, none => (counter _).handle ((queue, watched), number) args

/-- It answers without an error. -/
theorem counter_handle {γ : Type} (state : γ × Int) (args : List Bytes) :
    ((counter γ).handle state args).1.WellFormed ∧ ErrorFree ((counter γ).handle state args).1 := by
  simp only [counter]
  split
  · exact ⟨.integer _, .integer _⟩
  · exact ⟨.status (by decide), .status _⟩

/-- One request after the other. -/
theorem counter_answers {γ : Type} (state : γ × Int) (requests : List (List Bytes)) :
    ∀ reply ∈ (counter γ).answers state requests, reply.WellFormed ∧ ErrorFree reply := by
  induction requests generalizing state with
  | nil => simp [Server.answers]
  | cons args rest ih =>
    rw [Server.answers]
    exact List.forall_mem_cons.mpr ⟨counter_handle state args, ih _⟩

/-- So does the server with queues, or whole by an error. -/
theorem guarded_whole : AnswersWhole guarded := by
  intro state args
  obtain ⟨⟨queue, watched⟩, number⟩ := state
  have ok : (Reply.status (ascii "OK")).WellFormed ∧ NoNestedError (.status (ascii "OK")) :=
    ⟨.status (by decide), Or.inr (.status _)⟩
  have error : (Reply.error (ascii "ERR")).WellFormed ∧ NoNestedError (.error (ascii "ERR")) :=
    ⟨.error (by decide), Or.inl ⟨_, rfl⟩⟩
  simp only [guarded]
  split
  · exact ok
  · exact error
  · exact error
  · exact ok
  · exact error
  · split
    · exact ⟨.array fun reply member => (counter_answers _ _ reply member).1,
        Or.inr (.array fun reply member => (counter_answers _ _ reply member).2)⟩
    · exact ⟨.nilArray, Or.inr .nilArray⟩
  · exact ok
  · exact error
  · exact ok
  · exact ⟨.status (by decide), Or.inr (.status _)⟩
  · exact ⟨(counter_handle _ args).1, Or.inr (counter_handle _ args).2⟩

/-- It executes a transaction in one turn. -/
def guardedTransacts : Transacts guarded where
  queue state := state.1.1
  wellFormed state args := (guarded_whole state args).1
  fresh state := rfl
  multi state args named := by
    obtain ⟨⟨queue, watched⟩, number⟩ := state
    cases queue with
    | none =>
      simp only [guarded, named]
      exact Or.inl ⟨trivial, ⟨_, rfl⟩, trivial⟩
    | some queued =>
      simp only [guarded, named]
      exact Or.inr ⟨⟨_, rfl⟩, trivial⟩
  discard state args named := by
    obtain ⟨⟨queue, watched⟩, number⟩ := state
    cases queue with
    | none =>
      simp only [guarded, named]
      exact Or.inr ⟨⟨_, rfl⟩, trivial⟩
    | some queued =>
      simp only [guarded, named]
      exact Or.inl ⟨trivial, trivial⟩
  exec state args named := by
    obtain ⟨⟨queue, watched⟩, number⟩ := state
    cases queue with
    | none =>
      simp only [guarded, named]
      exact ⟨trivial, fun _ => ⟨_, rfl⟩⟩
    | some queued =>
      simp only [guarded, named]
      refine ⟨?_, fun wrong => nomatch wrong⟩
      split
      · rfl
      · rfl
  watch state args named queued inside := by
    obtain ⟨⟨queue, watched⟩, number⟩ := state
    obtain rfl : queue = some queued := inside
    simp only [guarded, named]
    exact ⟨⟨_, rfl⟩, trivial⟩
  queues state args multi discard exec watch queued inside := by
    obtain ⟨⟨queue, watched⟩, number⟩ := state
    obtain rfl : queue = some queued := inside
    simp only [guarded]
    exact Or.inl ⟨⟨_, rfl⟩, trivial⟩
  outside state args multi outside := by
    obtain ⟨⟨queue, watched⟩, number⟩ := state
    obtain rfl : queue = none := outside
    let state : (Option (List (List Bytes)) × List Int) × Int := ((none, watched), number)
    have kept : ((counter _).handle state args).2.1.1 = none := by
      simp only [counter]
      split
      · rfl
      · rfl
    cases named : commandOf args with
    | multi => exact absurd named multi
    | discard | exec | watch | unwatch => simp only [guarded, named]
    | _ =>
      simp only [guarded, named]
      exact kept
  own connection data data' := rfl
  executing := counter _
  atomic connection data queued elements inside answers := by
    obtain ⟨queue, watched⟩ := connection
    obtain rfl : queue = some queued := inside
    have named : commandOf (requestOf (.new .exec)) = .exec :=
      (names_requestOf (.new .exec) .exec (by decide)).mpr rfl
    simp only [guarded, named] at answers ⊢
    split at answers
    · rename_i same
      rw [if_pos same]
      exact ⟨(Reply.array.inj answers).symm, rfl⟩
    · cases answers

namespace Redis2

/-- `INCR k`. -/
def incrK : RedisCommand := incrCommand (ascii "k")

/-- The calls of a transaction that counts if nobody else does. -/
def guardedActions : List Action :=
  [.operate (.watch [ascii "k"]), .operate .multi, .operate (.addCommand incrK), .operate .exec]

/-- They are allowed whatever the client. -/
theorem guardedActions_allowed {π : Type} [Peer π] :
    ∀ action ∈ guardedActions, ∀ r : Redis2 π, action.Allowed r := by
  intro action member r
  simp only [guardedActions, List.mem_cons, List.not_mem_nil, or_false] at member
  rcases member with rfl | rfl | rfl | rfl
  · exact ⟨(by decide +kernel : (RedisProtocol.commandText
      (watchCommand [ascii "k"])).length < 2 ^ 31), trivial⟩
  · exact ⟨(by decide +kernel : (RedisProtocol.commandText (.new .multi)).length < 2 ^ 31), trivial⟩
  · exact ⟨(by decide +kernel : (RedisProtocol.commandText incrK).length < 2 ^ 31),
      by decide +kernel, by decide +kernel, by decide +kernel⟩
  · exact ⟨(by decide +kernel : (RedisProtocol.commandText (.new .exec)).length < 2 ^ 31), trivial⟩

/-- A new client of the server with queues, which is going to find these numbers. -/
def guardedClient (found : Nat → Int) : Redis2 (Endpoint guarded.shared) :=
  new (ascii "localhost") (ascii "6379") 0 1000 (.start ⟨[], (none, []), found, []⟩ [])

/-- Two transactions at the same time: the one that watches is executed while the other has queued its
command, and that one behind it. -/
theorem guarded_together : ∃ (calls : Bool → List (Action × Told)) (trace : List (Bool × Turn Int)),
    Together guarded Acts 0 calls trace 2 ∧
    (calls false).map Prod.fst = guardedActions ∧
    (calls false).map (fun step => (step.2.ok, step.2.commands.map fun c => c.out.takeI)) =
      [(true, []), (true, []), (false, []), (true, [some 1])] ∧
    (calls true).map Prod.fst = guardedActions.tail ∧
    (calls true).map (fun step => (step.2.ok, step.2.commands.map fun c => c.out.takeI)) =
      [(true, []), (false, []), (true, [some 2])] := by
  have first : (Simulation.collect act guardedActions (guardedClient fun _ => 0)).toOption.map
      (fun returned => (
        returned.1.map fun step => (step.2.ok, step.2.commands.map fun c => c.out.takeI),
        returned.2.proto.served.turns.map fun turn => (turn.before, turn.after))) =
      some ([(true, []), (true, []), (false, []), (true, [some 1])],
        [(0, 0), (0, 0), (0, 0), (0, 0), (0, 1)]) := by
    decide +kernel
  have second : (Simulation.collect act guardedActions.tail
      (guardedClient fun n => if n < 3 then 0 else 1)).toOption.map (fun returned => (
        returned.1.map fun step => (step.2.ok, step.2.commands.map fun c => c.out.takeI),
        returned.2.proto.served.turns.map fun turn => (turn.before, turn.after))) =
      some ([(true, []), (false, []), (true, [some 2])], [(0, 0), (0, 0), (0, 0), (1, 2)]) := by
    decide +kernel
  obtain ⟨⟨calls, last⟩, returns, seen⟩ := returned_of_view first
  obtain ⟨⟨others, lastToo⟩, returnsToo, seenToo⟩ := returned_of_view second
  obtain ⟨told, turns⟩ := Prod.mk.inj seen
  obtain ⟨toldToo, turnsToo⟩ := Prod.mk.inj seenToo
  obtain ⟨run, names⟩ := run_of_collect guardedActions_allowed returns
  obtain ⟨runToo, namesToo⟩ := run_of_collect
    (fun action member => guardedActions_allowed action (List.mem_of_mem_tail member)) returnsToo
  simp only [List.map_eq_cons_iff, List.map_eq_nil_iff] at turns turnsToo
  obtain ⟨⟨accept, _, _⟩, -, own, ends₀, ⟨watch, _, _⟩, -, rfl, ends₁, ⟨multi, _, _⟩, -, rfl, ends₂,
    ⟨add, _, _⟩, -, rfl, ends₃, ⟨exec, _, _⟩, -, rfl, ends₄, rfl⟩ := turns
  obtain ⟨⟨accept', _, _⟩, -, own', ends₅, ⟨multi', _, _⟩, -, rfl, ends₆, ⟨add', _, _⟩, -, rfl, ends₇,
    ⟨exec', _, _⟩, -, rfl, ends₈, rfl⟩ := turnsToo
  cases ends₀
  cases ends₁
  cases ends₂
  cases ends₃
  cases ends₄
  cases ends₅
  cases ends₆
  cases ends₇
  cases ends₈
  let turn (entry : Option Entry) (before after : Int) : Turn Int := ⟨entry, before, after⟩
  refine ⟨fun i => if i then others else calls,
    [(false, turn accept 0 0), (false, turn watch 0 0), (false, turn multi 0 0),
      (true, turn accept' 0 0), (true, turn multi' 0 0), (true, turn add' 0 0),
      (false, turn add 0 0), (false, turn exec 0 1), (true, turn exec' 1 2)],
    ⟨?_, ?_⟩, names, told, namesToo, toldToo⟩
  · exact .cons (turn accept 0 0) (.cons (turn watch 0 0) (.cons (turn multi 0 0)
      (.cons (turn accept' 0 0) (.cons (turn multi' 0 0) (.cons (turn add' 0 0)
        (.cons (turn add 0 0) (.cons (turn exec 0 1) (.cons (turn exec' 1 2) (.nil 2)))))))))
  · intro i
    cases i with
    | false => exact ⟨_, _, _, _, _, last, rfl, rfl, run, own⟩
    | true => exact ⟨_, _, _, _, _, lastToo, rfl, rfl, runToo, own'⟩

/-- Of these two transactions the one that is executed behind the other is one turn, too. -/
theorem transactions_at_once_behind : ∃ (calls : List (Action × Told))
    (trace : List (Bool × Turn Int)),
    calls.map (fun step => step.2.commands.map fun c => c.out.takeI) = [[], [], [some 2]] ∧
    ∃ pieces : List (List (Turn Int)), pieces.flatten = part true trace ∧
      pieces.length = calls.length ∧
      ∀ (n : Nat) (told : Told), calls[n]? = some (.operate .exec, told) → told.ok = true →
        ∃ turn, pieces[n]? = some [turn] ∧
          Commits guardedTransacts ((calls.take n).foldl given []) told.commands turn := by
  obtain ⟨calls, trace, together, -, -, -, told⟩ := guarded_together
  refine ⟨calls true, trace, ?_, transactions_at_once guarded_whole guardedTransacts together true⟩
  have outputs := congrArg (List.map Prod.snd) told
  rw [List.map_map] at outputs
  exact outputs

end Redis2

/-- What a server promises about the keys that a connection watches. A key has a version, which grows
where it is changed. -/
structure Watches (server : Server (γ × δ)) where
  /-- The version of a key. -/
  version : δ → Bytes → Int
  /-- A connection watches a key and has seen this version of it. -/
  Watched : γ → Bytes → Int → Prop
  /-- To accept a connection takes no version back. -/
  accepts (state : γ × δ) (key : Bytes) :
    version state.2 key ≤ version (server.fresh state).2 key
  /-- Nor does a request. -/
  grows (state : γ × δ) (args : List Bytes) (key : Bytes) :
    version state.2 key ≤ version (server.handle state args).2.2 key
  /-- WATCH that is answered by a status watches its keys, or goes on to do so. -/
  watch (state : γ × δ) {args : List Bytes} (named : commandOf args = .watch) {text : Bytes}
    (status : (server.handle state args).1 = .status text) : ∀ key ∈ args.tail,
    ∃ seen, seen ≤ version state.2 key ∧ Watched (server.handle state args).2.1 key seen
  /-- Only EXEC, DISCARD and UNWATCH end this on a connection. -/
  keeps (state : γ × δ) {args : List Bytes} (exec : commandOf args ≠ .exec)
    (discard : commandOf args ≠ .discard) (unwatch : commandOf args ≠ .unwatch) {key : Bytes}
    {seen : Int}
    (watched : Watched state.1 key seen) : Watched (server.handle state args).2.1 key seen
  /-- EXEC that is answered by an array has found every key at the version that was seen. -/
  guards (state : γ × δ) {elements : List Reply}
    (answers : (server.handle state (requestOf (.new .exec))).1 = .array elements) {key : Bytes}
    {seen : Int}
    (watched : Watched state.1 key seen) : version state.2 key = seen

/-- A request that ends no watch. -/
def GoesOnWatching (args : List Bytes) : Prop :=
  commandOf args ≠ .exec ∧ commandOf args ≠ .discard ∧ commandOf args ≠ .unwatch

namespace Watches

variable {first last : γ} {turns between later : List (Turn δ)}
  {turn watching executing : Turn δ} {key : Bytes}

/-- No turn takes a version back. -/
theorem le_of_takes (watches : Watches server) (takes : server.Takes turn) (key : Bytes) :
    watches.version turn.before key ≤ watches.version turn.after key := by
  cases takes with
  | accept connection data => exact watches.accepts (connection, data) key
  | request connection data args => exact watches.grows (connection, data) args key

/-- Nor do turns of whatever clients. -/
theorem le_of_linked (watches : Watches server) {before after : δ}
    (takes : ∀ turn ∈ turns, server.Takes turn)
    (linked : Linked Turn.before Turn.after before turns after) (key : Bytes) :
    watches.version before key ≤ watches.version after key := by
  let older (before after : δ) : Prop := watches.version before key ≤ watches.version after key
  have kept : older before after := Linked.kept (fun state => le_refl _) le_trans
    (fun turn member => watches.le_of_takes (takes turn member) key) linked
  exact kept

/-- Where no version has grown altogether, none has in between. -/
theorem eq_of_linked (watches : Watches server) {before after : δ}
    (takes : ∀ turn ∈ turns, server.Takes turn)
    (linked : Linked Turn.before Turn.after before turns after)
    (back : watches.version after key ≤ watches.version before key) :
    ∀ turn ∈ turns, watches.version turn.after key = watches.version turn.before key := by
  intro turn member
  obtain ⟨earlier, later, rfl⟩ := List.append_of_mem member
  obtain ⟨here, there⟩ := linked.around
  have upTo := watches.le_of_linked (fun turn member => takes turn (by simp [member])) here key
  have behind := watches.le_of_linked (fun turn member => takes turn (by simp [member])) there key
  exact le_antisymm (behind.trans (back.trans upTo)) (watches.le_of_takes (takes turn member) key)

/-- A connection goes on watching. -/
theorem still (watches : Watches server) (attends : server.Attends first turns last)
    (each : ∀ turn ∈ turns, ∃ entry, turn.entry = some entry ∧ GoesOnWatching entry.1) {seen : Int}
    (watched : watches.Watched first key seen) : watches.Watched last key seen := by
  induction attends with
  | idle connection => exact watched
  | accept data behind ih =>
    obtain ⟨entry, wrong, -⟩ := each _ List.mem_cons_self
    cases wrong
  | request args data behind ih =>
    obtain ⟨entry, is, exec, discard, unwatch⟩ := each _ List.mem_cons_self
    cases is
    exact ih (fun turn member => each turn (List.mem_cons_of_mem _ member))
      (watches.keeps _ exec discard unwatch watched)

/-- From a WATCH to an EXEC that is answered by an array no version has grown. -/
theorem back_of_attends (watches : Watches server)
    (attends : server.Attends first (watching :: (between ++ executing :: later)) last)
    {args : List Bytes} {text : Bytes} (watch : watching.entry = some (args, .status text))
    (named : commandOf args = .watch) (watched : key ∈ args.tail)
    (each : ∀ turn ∈ between, ∃ entry, turn.entry = some entry ∧ GoesOnWatching entry.1)
    {elements : List Reply}
    (exec : executing.entry = some (requestOf (.new .exec), .array elements)) :
    watches.version executing.before key ≤ watches.version watching.before key := by
  cases attends with
  | accept data behind => cases watch
  | request asked data behind =>
    obtain ⟨rfl, status⟩ := Prod.mk.inj (Option.some.inj watch)
    obtain ⟨seen, older, watched⟩ := watches.watch (first, data) named status key watched
    obtain ⟨next, here, there⟩ := behind.split
    have goesOn := watches.still here each watched
    cases there with
    | accept data' behind => cases exec
    | request asked data' behind =>
      obtain ⟨rfl, answers⟩ := Prod.mk.inj (Option.some.inj exec)
      have same : watches.version data' key = seen := watches.guards (next, data') answers goesOn
      change watches.version data' key ≤ watches.version data key
      rw [same]
      exact older

end Watches

namespace Redis2

variable {before after : δ} {calls : ι → List (Action × Told)} {trace : List (ι × Turn δ)}
  {transacts : Transacts server}

/-- All turns of clients that run together are turns of the server. -/
theorem Together.takes (whole : AnswersWhole server) (transacts : Transacts server)
    (together : Together server Acts before calls trace after) :
    ∀ turn ∈ trace.map Prod.snd, server.Takes turn := by
  intro turn member
  obtain ⟨⟨i, turn⟩, listed, rfl⟩ := List.mem_map.mp member
  obtain ⟨r, last, running, run, own⟩ := together.starts transacts i
  obtain ⟨-, pieces, grows, -⟩ := running.run whole run
  have mine : turn ∈ pieces.flatten := by
    rw [own _ grows]
    exact Traces.mem_part.mpr listed
  exact grows.2.takes turn mine

/-- A request of a call that ends no watch, or a SELECT before it, ends none. -/
theorem goesOnWatching_of_asked {sending : Sending}
    (quiet : ∀ args ∈ sending.asks, GoesOnWatching args) {args : List Bytes}
    (asked : IsSelect args ∨ args ∈ sending.asks) : GoesOnWatching args := by
  rcases asked with ⟨index, rfl⟩ | own
  · have named : commandOf (requestOf (selectCommand index)) = .select :=
      (names_requestOf (selectCommand index) .select (by decide)).mpr rfl
    rw [GoesOnWatching, named]
    decide
  · exact quiet args own

/-- Along a run of calls that end no watch no turn does. -/
theorem Running.goesOn (whole : AnswersWhole server) {commands : List RedisCommand}
    {r last : Redis2 (Endpoint server.shared)} (running : Running transacts commands r)
    {steps : List (Action × Told)} (run : Simulation.Run Acts r steps last)
    (quiet : ∀ step ∈ steps, ∀ args ∈ step.1.sending.asks, GoesOnWatching args) :
    ∃ turns, server.Grows r.proto.served turns last.proto.served ∧
      ∀ turn ∈ turns, ∀ entry ∈ turn.entry, GoesOnWatching entry.1 := by
  induction run generalizing commands with
  | done r => exact ⟨[], .idle _, by simp⟩
  | @step r next last step steps head tail ih =>
    obtain ⟨running', turns, grows, taken⟩ := running.act whole head
    obtain ⟨more, behind, later⟩ := ih running' fun step member =>
      quiet step (List.mem_cons_of_mem _ member)
    refine ⟨turns ++ more, grows.append behind, ?_⟩
    intro turn member entry is
    rcases List.mem_append.mp member with here | there
    · exact goesOnWatching_of_asked (quiet step List.mem_cons_self) (taken.asked turn here entry is)
    · exact later turn there entry is

/-- WATCH ends no watch. -/
theorem goesOnWatching_watch (keys : List Bytes) :
    GoesOnWatching (requestOf (watchCommand keys)) := by
  have named : commandOf (requestOf (watchCommand keys)) = .watch :=
    (names_requestOf (watchCommand keys) .watch (by decide)).mpr rfl
  rw [GoesOnWatching, named]
  decide

/-- Of the turns of a client one answers a `watch` that succeeds, and one is the `exec` that returns
commands; those in between end no watch. -/
theorem Together.watched (whole : AnswersWhole server) (transacts : Transacts server)
    (together : Together server Acts before calls trace after) {i : ι}
    {earlier middle later : List (Action × Told)} {keys : List Bytes} {watched executed : Told}
    (cut : calls i = earlier ++ (.operate (.watch keys), watched) ::
      (middle ++ (.operate .exec, executed) :: later))
    (watching : watched.ok = true) (executes : executed.ok = true)
    (quiet : ∀ step ∈ middle, ∀ args ∈ step.1.sending.asks, GoesOnWatching args) :
    ∃ first watch text between exec behind connection last,
      part i trace = first ++ watch :: (between ++ exec :: behind) ∧
      watch.entry = some (requestOf (watchCommand keys), .status text) ∧
      Commits transacts ((earlier ++ (.operate (.watch keys), watched) :: middle).foldl given [])
        executed.commands exec ∧
      (∀ turn ∈ between, ∀ entry ∈ turn.entry, GoesOnWatching entry.1) ∧
      server.Attends connection (watch :: (between ++ exec :: behind)) last := by
  obtain ⟨r, last, running, run, own⟩ := together.starts transacts i
  rw [cut] at run
  obtain ⟨r₁, r₂, run₁, watches₁, run₂⟩ := run.split
  obtain ⟨r₃, r₄, run₃, executes₃, run₄⟩ := run₂.split
  obtain ⟨running₁, pieces₁, grows₁, -⟩ := running.run whole run₁
  obtain ⟨running₂, turns₂, grows₂, taken₂⟩ := running₁.act whole watches₁
  obtain ⟨running₃, -⟩ := running₂.run whole run₃
  obtain ⟨turns₃, grows₃, quiet₃⟩ := running₂.goesOn whole run₃ quiet
  obtain ⟨running₄, turns₄, grows₄, taken₄⟩ := running₃.act whole executes₃
  obtain ⟨-, pieces₅, grows₅, -⟩ := running₄.run whole run₄
  obtain ⟨watch, member, text, answer⟩ := taken₂.watches keys rfl watching
  obtain ⟨exec, rfl, commits⟩ := taken₄.commits rfl executes
  obtain ⟨selects, behind, rfl⟩ := List.append_of_mem member
  have grows := grows₁.append (grows₂.append (grows₃.append (grows₄.append grows₅)))
  have falls : part i trace = (pieces₁.flatten ++ selects) ++
      watch :: ((behind ++ turns₃) ++ exec :: pieces₅.flatten) := by
    rw [← own _ grows]
    simp
  have goesOn : ∀ turn ∈ behind ++ turns₃, ∀ entry ∈ turn.entry, GoesOnWatching entry.1 := by
    intro turn member entry is
    rcases List.mem_append.mp member with here | there
    · have asked := taken₂.asked turn (by simp [here]) entry is
      refine goesOnWatching_of_asked (fun args asks => ?_) asked
      rw [← Option.some.inj asks]
      exact goesOnWatching_watch keys
    · exact quiet₃ turn there entry is
  have attends := grows.2
  rw [own _ grows, falls] at attends
  obtain ⟨connection, -, attends⟩ := attends.split
  rw [List.foldl_append]
  exact ⟨_, watch, text, _, exec, _, connection, _, falls, answer, commits, goesOn, attends⟩

/-- Behind a `watch` that succeeds, an `exec` that returns commands is executed where no client has
changed the keys since the WATCH was answered, unless a new connection was accepted in between: what
the old one has watched is forgotten, and neither `multi` nor `exec` tells. -/
theorem unchanged_until_executed (whole : AnswersWhole server) (transacts : Transacts server)
    (watches : Watches server) (together : Together server Acts before calls trace after) {i : ι}
    {earlier middle later : List (Action × Told)} {keys : List Bytes} {watched executed : Told}
    (cut : calls i = earlier ++ (.operate (.watch keys), watched) ::
      (middle ++ (.operate .exec, executed) :: later))
    (watching : watched.ok = true) (executes : executed.ok = true)
    (quiet : ∀ step ∈ middle, ∀ args ∈ step.1.sending.asks, GoesOnWatching args) :
    ∃ (first between last : List (ι × Turn δ)) (watch exec : Turn δ) (text : Bytes),
      trace = first ++ (i, watch) :: (between ++ (i, exec) :: last) ∧
      watch.entry = some (requestOf (watchCommand keys), .status text) ∧
      Commits transacts ((earlier ++ (.operate (.watch keys), watched) :: middle).foldl given [])
        executed.commands exec ∧
      ((∃ turn, (i, turn) ∈ between ∧ turn.entry = none) ∨
        ∀ key ∈ keys, ∀ event ∈ between,
          watches.version event.2.after key = watches.version event.2.before key) := by
  obtain ⟨before', watch, text, own, exec, behind, connection, last, falls, answer, commits, goesOn,
    attends⟩ := together.watched whole transacts cut watching executes quiet
  obtain ⟨first, rest, rfl, -, parts⟩ := Traces.part_split falls
  obtain ⟨between, last', rfl, rfl, -⟩ := Traces.part_split parts
  refine ⟨first, between, last', watch, exec, text, rfl, answer, commits, ?_⟩
  by_cases accepted : ∃ turn, (i, turn) ∈ between ∧ turn.entry = none
  · exact Or.inl accepted
  · refine Or.inr fun key among event listed => ?_
    have named : commandOf (requestOf (watchCommand keys)) = .watch :=
      (names_requestOf (watchCommand keys) .watch (by decide)).mpr rfl
    have each : ∀ turn ∈ part i between,
        ∃ entry, turn.entry = some entry ∧ GoesOnWatching entry.1 := by
      intro turn own
      cases is : turn.entry with
      | none => exact absurd ⟨turn, Traces.mem_part.mp own, is⟩ accepted
      | some entry => exact ⟨entry, rfl, goesOn turn own entry is⟩
    obtain ⟨connection, remembered, queued, -, -, -, array, -⟩ := id commits
    have back := watches.back_of_attends attends answer named among each array
    have takes := together.takes whole transacts
    have linked := together.linked
    rw [List.map_append, List.map_cons, List.map_append, List.map_cons] at takes linked
    have onward := watches.le_of_takes (takes watch (by simp)) key
    exact watches.eq_of_linked (fun turn member => takes turn (by simp [member]))
      linked.around.2.around.1 (back.trans onward) event.2 (List.mem_map_of_mem listed)

end Redis2

/-- A server that counts never counts down. -/
theorem counter_le {γ : Type} (state : γ × Int) (args : List Bytes) :
    state.2 ≤ ((counter γ).handle state args).2.2 := by
  simp only [counter]
  split
  · change state.2 ≤ state.2 + 1
    omega
  · exact le_refl _

/-- Nor behind several requests. -/
theorem counter_behind_le {γ : Type} (state : γ × Int) (requests : List (List Bytes)) :
    state.2 ≤ ((counter γ).behind state requests).2 := by
  induction requests generalizing state with
  | nil => exact le_refl _
  | cons args rest ih => exact (counter_le state args).trans (ih _)

/-- The server with queues guards its number, which is its own version. -/
def guardedWatches : Watches guarded where
  version number _ := number
  Watched connection _ seen := seen ∈ connection.2
  accepts state key := Int.le_refl _
  grows state args key := by
    obtain ⟨⟨queue, watched⟩, number⟩ := state
    simp only [guarded]
    split
    · exact Int.le_refl _
    · exact Int.le_refl _
    · exact Int.le_refl _
    · exact Int.le_refl _
    · exact Int.le_refl _
    · split
      · exact counter_behind_le _ _
      · exact Int.le_refl _
    · exact Int.le_refl _
    · exact Int.le_refl _
    · exact Int.le_refl _
    · exact Int.le_refl _
    · exact counter_le _ _
  watch state args named text status key among := by
    obtain ⟨⟨queue, watched⟩, number⟩ := state
    refine ⟨number, Int.le_refl _, ?_⟩
    cases queue with
    | none =>
      simp only [guarded, named]
      exact List.mem_cons_self
    | some queued =>
      simp only [guarded, named] at status
      cases status
  keeps state args exec discard unwatch key seen watched := by
    obtain ⟨⟨queue, seenBefore⟩, number⟩ := state
    have kept : seen ∈ ((counter _).handle ((queue, seenBefore), number) args).2.1.2 := by
      simp only [counter]
      split
      · exact watched
      · exact watched
    simp only [guarded]
    split
    · exact watched
    · exact watched
    · exact absurd ‹_› discard
    · exact absurd ‹_› discard
    · exact absurd ‹_› exec
    · exact absurd ‹_› exec
    · exact List.mem_cons_of_mem _ watched
    · exact watched
    · exact absurd ‹_› unwatch
    · exact watched
    · exact kept
  guards state elements answers key seen watched := by
    obtain ⟨⟨queue, seenBefore⟩, number⟩ := state
    have named : commandOf (requestOf (.new .exec)) = .exec :=
      (names_requestOf (.new .exec) .exec (by decide)).mpr rfl
    cases queue with
    | none =>
      simp only [guarded, named] at answers
      cases answers
    | some queued =>
      simp only [guarded, named] at answers
      split at answers
      · rename_i all
        have same : seen = number := by simpa using List.all_eq_true.mp all seen watched
        exact same.symm
      · cases answers

namespace Redis2

/-- The transaction that watches is executed where nobody has counted. -/
theorem unchanged_until_executed_behind : ∃ (calls : List (Action × Told))
    (trace : List (Bool × Turn Int)) (executed : Told),
    executed.commands.map (fun c => c.out.takeI) = [some 1] ∧
    ∃ (first between last : List (Bool × Turn Int)) (watch exec : Turn Int) (text : Bytes),
      trace = first ++ (false, watch) :: (between ++ (false, exec) :: last) ∧
      watch.entry = some (requestOf (watchCommand [ascii "k"]), .status text) ∧
      Commits guardedTransacts (calls.foldl given []) executed.commands exec ∧
      ((∃ turn, (false, turn) ∈ between ∧ turn.entry = none) ∨
        ∀ key ∈ [ascii "k"], ∀ event ∈ between,
          guardedWatches.version event.2.after key = guardedWatches.version event.2.before key) := by
  obtain ⟨calls, trace, together, names, told, -⟩ := guarded_together
  rw [guardedActions] at names
  generalize own : calls false = steps at names told
  simp only [List.map_eq_cons_iff, List.map_eq_nil_iff] at names
  obtain ⟨⟨_, watched⟩, _, rfl, rfl, ⟨_, opened⟩, _, rfl, rfl, ⟨_, added⟩, _, rfl, rfl,
    ⟨_, executed⟩, _, rfl, rfl, rfl⟩ := names
  simp only [List.map_cons, List.map_nil, List.cons.injEq, Prod.mk.injEq, and_true] at told
  obtain ⟨⟨watching, -⟩, -, -, executes, numbers⟩ := told
  have quiet : ∀ step ∈ [(Action.operate .multi, opened), (.operate (.addCommand incrK), added)],
      ∀ args ∈ step.1.sending.asks, GoesOnWatching args := by
    intro step member args asks
    simp only [List.mem_cons, List.not_mem_nil, or_false] at member
    rcases member with rfl | rfl
    · rw [← Option.some.inj asks]
      exact ⟨by decide +kernel, by decide +kernel, by decide +kernel⟩
    · rw [← Option.some.inj asks]
      exact ⟨by decide +kernel, by decide +kernel, by decide +kernel⟩
  have cut : calls false = [] ++ (.operate (.watch [ascii "k"]), watched) ::
      ([(.operate .multi, opened), (.operate (.addCommand incrK), added)] ++
        (.operate .exec, executed) :: []) := own
  exact ⟨_, trace, executed, numbers, unchanged_until_executed guarded_whole guardedTransacts
    guardedWatches together cut watching executes quiet⟩

end Redis2

end LibRedis
