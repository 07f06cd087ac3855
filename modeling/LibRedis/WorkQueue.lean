import LibRedis.BlockingPop
import LibRedis.Lib.Fifo
import LibRedis.ServerData
import LibRedis.ServerHistory

/-!
# Work through a list

A list of a server is a queue: `rpush` puts values behind it, `lpop` and `blpop` take them from its
front. Over connections that break, a push that has failed may have been executed, and a value may be
taken that no call returns. What the client returns is still a part of what was pushed, in its order.
-/

namespace LibRedis

open Decimal (ascii)
open Resp (Reply)
open RedisOutput (takeI takeBulk takePop)
open RedisProtocol (commandText requestOf)

namespace Redis2

variable {σ : Type} {server : Server σ}

/-- RPUSH of values, as `rpush` sends it. -/
def rpushCommand (key : Bytes) (values : List Bytes) : RedisCommand :=
  (keyed .rpush key).pushArgs values

/-- LPOP, as `lpop` sends it. -/
def lpopCommand (key : Bytes) : RedisCommand := keyed .lpop key

/-- A request that takes the first value of a list and tells it, or takes none and tells that, or is
answered by an error. -/
def Pops (server : Server σ) (queue : σ → List Bytes) (args : List Bytes) (tells : Bytes → Reply)
    (nothing : Reply) (state : σ) : Prop :=
  (∃ value rest, queue state = value :: rest ∧ (server.handle state args).1 = tells value ∧
    queue (server.handle state args).2 = rest) ∨
  (((server.handle state args).1 = nothing ∨ ∃ text, (server.handle state args).1 = .error text) ∧
    queue (server.handle state args).2 = queue state)

/-- A server that holds a list under a key, in its only database. -/
structure Queues (server : Server σ) (key : Bytes) (queue : σ → List Bytes) : Prop extends
    Keeps server queue where
  /-- RPUSH puts the values behind the list and tells its length, or it is answered by an error. -/
  rpush (state : σ) (values : List Bytes) :
    ((∃ length, (server.handle state (requestOf (rpushCommand key values))).1 = .integer length) ∧
      queue (server.handle state (requestOf (rpushCommand key values))).2 = queue state ++ values) ∨
    ((∃ text, (server.handle state (requestOf (rpushCommand key values))).1 = .error text) ∧
      queue (server.handle state (requestOf (rpushCommand key values))).2 = queue state)
  /-- LPOP takes the first value. -/
  lpop (state : σ) : Pops server queue (requestOf (lpopCommand key)) .bulk .nilBulk state
  /-- So does BLPOP, and tells the key before it. -/
  blpop (timeout : Int64) (state : σ) : Pops server queue
    (requestOf (bxpopCommand true [key] timeout)) (fun value => .array [.bulk key, .bulk value])
    .nilArray state

/-- A call of a program that works through a list. -/
inductive Work where
  /-- `rpush` of values. -/
  | push (values : List Bytes)
  /-- `lpop`. -/
  | pop
  /-- `blpop` of this key. -/
  | wait (timeout : Int64)
  /-- `connect`. -/
  | connect
  /-- `close`. -/
  | close
  /-- `select`. -/
  | select (index : Int32)

/-- What it returns. -/
inductive Worked where
  /-- The length that `rpush` returns. -/
  | pushed (out : Option Int)
  /-- The value that `lpop` returns. -/
  | popped (out : Option (Option Bytes))
  /-- The key and the value that `blpop` returns. -/
  | waited (out : Option (Option (Bytes × Bytes)))
  /-- What the others return. -/
  | bool (ok : Bool)

/-- A call and what it returns, with the client behind it. -/
def work {π : Type} [Peer π] (key : Bytes) (r : Redis2 π) : Work → Except Abort (Worked × Redis2 π)
  | .push values => (r.rpushValues key values).map fun (out, r) => (.pushed out, r)
  | .pop => (r.lpop key).map fun (out, r) => (.popped out, r)
  | .wait timeout => (r.blpopKeys [key] timeout).map fun (out, r) => (.waited out, r)
  | .connect => .ok (.bool r.connect.1, r.connect.2)
  | .close => .ok (.bool true, r.close)
  | .select index => (r.select index).map fun (ok, r) => (.bool ok, r)

/-- The call as the server sees it. -/
def Work.sending (key : Bytes) : Work → Sending
  | .push values => .exec (rpushCommand key values)
  | .pop => .exec (lpopCommand key)
  | .wait timeout => .blocking (bxpopCommand true [key] timeout)
  | .connect => .connect
  | .close => .close
  | .select index => .select index

/-- The values that a call pushes, if it is executed. -/
def Work.tried : Work → List Bytes
  | .push values => values
  | .pop | .wait _ | .connect | .close | .select _ => []

/-- The values that a call has pushed, as far as it tells. -/
def Worked.told (values : List Bytes) : Worked → List Bytes
  | .pushed (some _) => values
  | .pushed none | .popped _ | .waited _ | .bool _ => []

/-- The values that a call returns. -/
def Worked.delivered : Worked → List Bytes
  | .popped out => out.join.toList
  | .waited out => (out.bind (Option.map Prod.snd)).toList
  | .pushed _ | .bool _ => []

/-- One for a pop that fails. -/
def Worked.failed : Worked → Nat
  | .popped out => out.elim 1 fun _ => 0
  | .waited out => out.elim 1 fun _ => 0
  | .pushed _ | .bool _ => 0

/-- What a method leaves: nothing is changed and it returns false, or the server has answered its
command once, and what it returns is taken from the reply. -/
def Took {α β : Type} (server : Server σ) (observed : σ → β) (first last : σ) (c : RedisCommand)
    (take : RedisOutput → Option α) (out : Option α) : Prop :=
  (observed last = observed first ∧ out = none) ∨
    ∃ state, observed state = observed first ∧
      observed last = observed (server.handle state (requestOf c)).2 ∧
      ∀ value, out = some value → ∃ mode,
        Accepts (RedisProtocol.typeRead true mode c.command) (server.handle state (requestOf c)).1 ∧
        take (denoteAs (RedisProtocol.typeRead true mode c.command)
          (server.handle state (requestOf c)).1) = some value

/-- A method that blocks takes the reply apart if its command is answered. -/
theorem blockingMethod_returns {π : Type} [Peer π] {r r' : Redis2 π} {c : RedisCommand} {α : Type}
    {take : RedisOutput → Option α} {out : Option α}
    (returns : r.blockingMethod c take = .ok (out, r')) :
    ∃ sent c' r₁, r.execBlocking c = .ok (sent, c', r₁) ∧
      ((sent = false ∧ out = none ∧ r' = r₁) ∨
      (sent = true ∧ out = take c'.out ∧ ∃ text,
        r' = { r₁ with proto := { r₁.proto with error := text } })) := by
  obtain ⟨⟨sent, c', r₁⟩, executes, ends⟩ := bind_returns returns
  refine ⟨sent, c', r₁, executes, ?_⟩
  cases sent with
  | false =>
    have failed : (.ok (none, r₁) : Except Abort _) = .ok (out, r') := ends
    cases failed
    exact Or.inl ⟨rfl, rfl, rfl⟩
  | true =>
    apply Or.inr
    obtain ⟨text, reports⟩ := onReplyTypeError_eq r₁ c'
    cases takes : take c'.out with
    | none =>
      simp only [takes, reports] at ends
      obtain ⟨rfl, rfl⟩ := Prod.mk.inj (Except.ok.inj ends)
      exact ⟨rfl, rfl, text, rfl⟩
    | some outputs =>
      simp only [takes] at ends
      obtain ⟨rfl, rfl⟩ := Prod.mk.inj (Except.ok.inj ends)
      exact ⟨rfl, rfl, r₁.proto.error, rfl⟩

section Took

variable {α β : Type} {observed : σ → β} {first last : σ} {c : RedisCommand}

/-- A command that is answered, and its output taken apart. -/
theorem Answered.took {ok : Bool} {output : RedisOutput} {take : RedisOutput → Option α}
    {out : Option α} (answered : Answered server observed first last c ok output)
    (ends : (ok = false ∧ out = none) ∨ (ok = true ∧ out = take output)) :
    Took server observed first last c take out := by
  rcases answered with ⟨same, rfl⟩ | ⟨state, before, after, succeeds⟩
  · rcases ends with ⟨-, failed⟩ | ⟨wrong, -⟩
    · exact Or.inl ⟨same, failed⟩
    · cases wrong
  · refine Or.inr ⟨state, before, after, fun value is => ?_⟩
    rcases ends with ⟨-, failed⟩ | ⟨yes, taken⟩
    · cases failed.symm.trans is
    · obtain ⟨mode, accepts, rfl⟩ := succeeds yes
      exact ⟨mode, accepts, taken.symm.trans is⟩

variable {r r' : Redis2 (Endpoint server)}

/-- A call of a command over a server that is observed, and what a method makes of it. -/
theorem Keeps.took (keeps : Keeps server observed) (whole : AnswersWhole server)
    (synced : r.proto.Synced) (sending : Sending) (named : sending.command = some c)
    (small : sending.Small) {take : RedisOutput → Option α} {out : Option α} {ok : Bool}
    {output : RedisOutput} {r₁ : Redis2 (Endpoint server)}
    (sends : r.send sending = .ok (ok, output, r₁))
    (ends : (ok = false ∧ out = none ∧ r' = r₁) ∨ (ok = true ∧ out = take output ∧ ∃ text,
      r' = { r₁ with proto := { r₁.proto with error := text } })) :
    r'.proto.Synced ∧ Took server observed r.proto.served r'.proto.served c take out := by
  obtain ⟨synced₁, entries, history, accounts⟩ := send_accounts whole synced small sends
  have answered := keeps.call named accounts history
  rcases ends with ⟨failed, nothing, rfl⟩ | ⟨yes, taken, text, rfl⟩
  · exact ⟨synced₁, answered.took (Or.inl ⟨failed, nothing⟩)⟩
  · exact ⟨⟨synced₁.valid, synced₁.stream, synced₁.pending⟩, answered.took (Or.inr ⟨yes, taken⟩)⟩

/-- A method over a server that is observed. -/
theorem Keeps.method (keeps : Keeps server observed) (whole : AnswersWhole server)
    (synced : r.proto.Synced) (small : (commandText c).length < 2 ^ 31)
    {take : RedisOutput → Option α} {out : Option α} (returns : r.method c take = .ok (out, r')) :
    r'.proto.Synced ∧ Took server observed r.proto.served r'.proto.served c take out := by
  obtain ⟨ok, c', r₁, executes, ends⟩ := method_returns returns
  have sends : r.send (.exec c) = .ok (ok, c'.out, r₁) := by
    rw [send, executes]
    rfl
  exact keeps.took whole synced (.exec c) rfl small sends ends

/-- A method that blocks. -/
theorem Keeps.blockingMethod (keeps : Keeps server observed) (whole : AnswersWhole server)
    (synced : r.proto.Synced) (small : (commandText c).length < 2 ^ 31)
    {take : RedisOutput → Option α} {out : Option α}
    (returns : r.blockingMethod c take = .ok (out, r')) :
    r'.proto.Synced ∧ Took server observed r.proto.served r'.proto.served c take out := by
  obtain ⟨ok, c', r₁, executes, ends⟩ := blockingMethod_returns returns
  have sends : r.send (.blocking c) = .ok (ok, c'.out, r₁) := by
    rw [send, executes]
    rfl
  exact keeps.took whole synced (.blocking c) rfl small sends ends

end Took

variable {key : Bytes} {queue : σ → List Bytes} {first last : σ}

/-- A push puts all its values behind the list, or none and fails. -/
theorem Queues.rpush_flows (queues : Queues server key queue) {values : List Bytes} {out : Option Int}
    (took : Took server queue first last (rpushCommand key values) takeI out) :
    Fifo.Flows (queue first) values (Worked.told values (.pushed out)) [] 0 (queue last) := by
  rcases took with ⟨same, rfl⟩ | ⟨state, before, after, takes⟩
  · rw [same]
    exact .idle _ _ _
  · rcases queues.rpush state values with ⟨-, put⟩ | ⟨⟨text, error⟩, same⟩
    · rw [after, put, before]
      refine .put _ _ _ ?_
      cases out with
      | none => exact List.nil_sublist _
      | some length => exact .refl _
    · rw [after, same, before]
      cases out with
      | none => exact .idle _ _ _
      | some length =>
        obtain ⟨mode, accepts, -⟩ := takes length rfl
        have readable := accepts.readable
        rw [error] at readable
        cases readable

/-- A pop takes the first value, and returns it or fails; or it takes none, and returns none. -/
theorem Took.flows {α : Type} {c : RedisCommand} {take : RedisOutput → Option α} {out : Option α}
    (took : Took server queue first last c take out) {tells : Bytes → Reply} {nothing : Reply}
    (pops : ∀ state, Pops server queue (requestOf c) tells nothing state) (item : α → Option Bytes)
    (told : ∀ value, (∀ text, tells value ≠ .status text) ∧ ∀ out,
      take (denoteAs c.command.commandInfo.replyType (tells value)) = some out →
        item out = some value)
    (untold : (∀ text, nothing ≠ .status text) ∧ ∀ out,
      take (denoteAs c.command.commandInfo.replyType nothing) = some out → item out = none) :
    Fifo.Flows (queue first) [] [] (out.bind item).toList (out.elim 1 fun _ => 0) (queue last) := by
  rcases took with ⟨same, rfl⟩ | ⟨state, before, after, takes⟩
  · rw [same]
    exact .idle _ _ _
  · rcases pops state with ⟨value, rest, holds, tell, next⟩ | ⟨none, same⟩
    · rw [after, next, ← before, holds]
      cases out with
      | none => exact .lose value rest
      | some out =>
        obtain ⟨mode, accepts, taken⟩ := takes out rfl
        rw [tell] at accepts taken
        rw [accepts_own accepts (told value).1] at taken
        rw [Option.bind_some, (told value).2 out taken]
        exact .take value rest 0
    · rw [after, same, before]
      cases out with
      | none => exact .idle _ _ _
      | some out =>
        obtain ⟨mode, accepts, taken⟩ := takes out rfl
        rcases none with nil | ⟨text, error⟩
        · rw [nil] at accepts taken
          rw [accepts_own accepts untold.1] at taken
          rw [Option.bind_some, untold.2 out taken]
          exact .idle _ _ _
        · have readable := accepts.readable
          rw [error] at readable
          cases readable

/-- A call in a run: its commands fit, and it returns. -/
def Works {π : Type} [Peer π] (key : Bytes) (r : Redis2 π) (step : Work × Worked) (r' : Redis2 π) :
    Prop :=
  (step.1.sending key).Small ∧ r.work key step.1 = .ok (step.2, r')

/-- What flows through the list in a call. -/
theorem work_flows (whole : AnswersWhole server) (queues : Queues server key queue)
    {r r' : Redis2 (Endpoint server)} {step : Work × Worked} (synced : r.proto.Synced)
    (works : Works key r step r') :
    r'.proto.Synced ∧ Fifo.Flows (queue r.proto.served) step.1.tried (step.2.told step.1.tried)
      step.2.delivered step.2.failed (queue r'.proto.served) := by
  obtain ⟨work, out⟩ := step
  obtain ⟨small, returns⟩ := works
  have quiet (sending : Sending) (quiet : sending = .connect ∨ sending = .close ∨
      ∃ index, sending = .select index) (small : sending.Small) {ok : Bool} {output : RedisOutput}
      (sends : r.send sending = .ok (ok, output, r')) :
      r'.proto.Synced ∧ Fifo.Flows (queue r.proto.served) [] [] [] 0 (queue r'.proto.served) := by
    obtain ⟨synced', entries, history, accounts⟩ := send_accounts whole synced small sends
    rw [queues.quiet accounts quiet history]
    exact ⟨synced', .idle _ _ _⟩
  cases work with
  | push values =>
    obtain ⟨⟨length, r₁⟩, pushes, same⟩ := map_returns returns
    cases same
    obtain ⟨synced', took⟩ := queues.method whole synced small pushes
    exact ⟨synced', queues.rpush_flows took⟩
  | pop =>
    obtain ⟨⟨value, r₁⟩, pops, same⟩ := map_returns returns
    cases same
    obtain ⟨synced', took⟩ := queues.method whole synced small pops
    refine ⟨synced', took.flows queues.lpop id (fun value => ⟨by simp, ?_⟩) ⟨by simp, ?_⟩⟩
    · rintro _ ⟨⟩
      rfl
    · rintro _ ⟨⟩
      rfl
  | wait timeout =>
    obtain ⟨⟨pair, r₁⟩, pops, same⟩ := map_returns returns
    cases same
    obtain ⟨synced', took⟩ := queues.blockingMethod whole synced small pops
    refine ⟨synced', took.flows (queues.blpop timeout) (Option.map Prod.snd)
      (fun value => ⟨by simp, ?_⟩) ⟨by simp, ?_⟩⟩
    · rintro _ ⟨⟩
      rfl
    · rintro _ ⟨⟩
      rfl
  | connect =>
    cases returns
    exact quiet .connect (Or.inl rfl) small rfl
  | close =>
    cases returns
    exact quiet .close (Or.inr (Or.inl rfl)) small rfl
  | select index =>
    obtain ⟨⟨ok, r₁⟩, selects, same⟩ := map_returns returns
    cases same
    have sends : r.send (.select index) = .ok (ok, .none, r') := by
      rw [send, selects]
      rfl
    exact quiet (.select index) (Or.inr (Or.inr ⟨index, rfl⟩)) small sends

/-- The values that calls push, as far as they are executed. -/
def triedBy (steps : List (Work × Worked)) : List Bytes := steps.flatMap fun step => step.1.tried

/-- The values that calls have pushed, as far as they tell. -/
def toldBy (steps : List (Work × Worked)) : List Bytes :=
  steps.flatMap fun step => step.2.told step.1.tried

/-- The values that calls have returned. -/
def deliveredBy (steps : List (Work × Worked)) : List Bytes :=
  steps.flatMap fun step => step.2.delivered

/-- How many pops have failed. -/
def failedBy (steps : List (Work × Worked)) : Nat := (steps.map fun step => step.2.failed).sum

/-- In every run of a new client that works through a list, whatever becomes of its connections: what
was there and what was put behind it is what was taken and what is left. What was put is part of what
was tried and has all that was told; what was taken has all that was delivered, and at most one value
more for each pop that has failed. So through a list that was empty values are delivered in the order
of the pushes, none twice, and if no pop has failed, all that was told is delivered or left. -/
theorem values_in_order (whole : AnswersWhole server) (queues : Queues server key queue)
    (host port : Bytes) (dbIndex : Int32) (timeout : Int) {os : Os (Endpoint server)}
    (silent : os.incoming = []) {steps : List (Work × Worked)} {r' : Redis2 (Endpoint server)}
    (run : Simulation.Run (Works key) (new host port dbIndex timeout os) steps r') :
    Fifo.Flows (queue os.peer.state) (triedBy steps) (toldBy steps) (deliveredBy steps)
        (failedBy steps) (queue r'.proto.served) ∧
      (queue os.peer.state = [] → (deliveredBy steps).Sublist (triedBy steps)) ∧
      (queue os.peer.state = [] → failedBy steps = 0 →
        (toldBy steps).Sublist (deliveredBy steps ++ queue r'.proto.served)) := by
  have flows : Fifo.Flows (queue os.peer.state) (triedBy steps) (toldBy steps) (deliveredBy steps)
      (failedBy steps) (queue r'.proto.served) :=
    Fifo.Flows.run (fun r : Redis2 (Endpoint server) => queue r.proto.served)
      (fun _ _ _ synced works => work_flows whole queues synced works) run
      (new_synced host port dbIndex timeout silent)
  refine ⟨flows, fun nothing => ?_, fun nothing all => ?_⟩
  · rw [nothing] at flows
    exact flows.delivered_sublist
  · rw [nothing, all] at flows
    exact flows.told_sublist

/-- A server that holds one list, under any key. -/
def listing : Server (List Bytes) where
  fresh queue := queue
  handle queue args :=
    if args.head? = some (ascii "RPUSH") then
      (.integer (queue ++ args.drop 2).length, queue ++ args.drop 2)
    else if args.head? = some (ascii "LPOP") then
      match queue with
      | [] => (.nilBulk, [])
      | value :: rest => (.bulk value, rest)
    else if args.head? = some (ascii "BLPOP") then
      match queue with
      | [] => (.nilArray, [])
      | value :: rest => (.array [.bulk (args.getD 1 []), .bulk value], rest)
    else (.status (ascii "OK"), queue)

/-- It answers whole. -/
theorem listing_whole : AnswersWhole listing := by
  intro queue args
  simp only [listing]
  split_ifs
  · exact ⟨.integer _, Or.inr (.integer _)⟩
  · cases queue with
    | nil => exact ⟨.nilBulk, Or.inr .nilBulk⟩
    | cons value rest => exact ⟨.bulk _, Or.inr (.bulk _)⟩
  · cases queue with
    | nil => exact ⟨.nilArray, Or.inr .nilArray⟩
    | cons value rest =>
      refine ⟨.array fun r member => ?_, Or.inr (.array fun r member => ?_)⟩
      · rcases List.mem_pair.mp member with rfl | rfl
        · exact .bulk _
        · exact .bulk _
      · rcases List.mem_pair.mp member with rfl | rfl
        · exact .bulk _
        · exact .bulk _
  · exact ⟨.status (by decide), Or.inr (.status _)⟩

/-- And its list is a queue. -/
theorem listing_queues (key : Bytes) : Queues listing key id where
  rpush queue values := by
    have pushes : (requestOf (rpushCommand key values)).head? = some (ascii "RPUSH") := rfl
    simp only [listing, if_pos pushes]
    exact Or.inl ⟨⟨_, rfl⟩, rfl⟩
  lpop queue := by
    have other : (requestOf (lpopCommand key)).head? ≠ some (ascii "RPUSH") := by
      change some (ascii "LPOP") ≠ some (ascii "RPUSH")
      decide +kernel
    have pops : (requestOf (lpopCommand key)).head? = some (ascii "LPOP") := rfl
    simp only [Pops, listing, if_neg other, if_pos pops]
    cases queue with
    | nil => exact Or.inr ⟨Or.inl rfl, rfl⟩
    | cons value rest => exact Or.inl ⟨value, rest, rfl, rfl, rfl⟩
  blpop timeout queue := by
    have other : (requestOf (bxpopCommand true [key] timeout)).head? ≠ some (ascii "RPUSH") ∧
        (requestOf (bxpopCommand true [key] timeout)).head? ≠ some (ascii "LPOP") := by
      change some (ascii "BLPOP") ≠ some (ascii "RPUSH") ∧ some (ascii "BLPOP") ≠ some (ascii "LPOP")
      decide +kernel
    have pops : (requestOf (bxpopCommand true [key] timeout)).head? = some (ascii "BLPOP") := rfl
    simp only [Pops, listing, if_neg other.1, if_neg other.2, if_pos pops]
    cases queue with
    | nil => exact Or.inr ⟨Or.inl rfl, rfl⟩
    | cons value rest => exact Or.inl ⟨value, rest, rfl, rfl, rfl⟩
  select queue index := by
    have other : (requestOf (selectCommand index)).head? ≠ some (ascii "RPUSH") ∧
        (requestOf (selectCommand index)).head? ≠ some (ascii "LPOP") ∧
        (requestOf (selectCommand index)).head? ≠ some (ascii "BLPOP") := by
      change some (ascii "SELECT") ≠ some (ascii "RPUSH") ∧
        some (ascii "SELECT") ≠ some (ascii "LPOP") ∧ some (ascii "SELECT") ≠ some (ascii "BLPOP")
      decide +kernel
    simp only [listing, if_neg other.1, if_neg other.2.1, if_neg other.2.2]
  fresh queue := rfl

/-- A client of such a server that gives up waiting for the second reply. -/
def impatientWorker : Redis2 (Endpoint listing) :=
  new (ascii "localhost") (ascii "6379") 0 1000
    (.start ⟨[], []⟩ [.chunk 100, .timeout, .chunk 100])

/-- It pushes two values and pops twice: the first value is taken but not returned, the second pop
returns the second. -/
theorem values_in_order_late : ∃ (steps : List (Work × Worked)) (last : Redis2 (Endpoint listing)),
    deliveredBy steps = [ascii "b"] ∧ failedBy steps = 1 ∧
    Fifo.Flows [] (triedBy steps) (toldBy steps) [ascii "b"] 1 last.proto.served ∧
      [ascii "b"].Sublist (triedBy steps) := by
  have shows : (Simulation.collect (fun r => work (ascii "k") r)
      [.push [ascii "a", ascii "b"], .pop, .wait 0] impatientWorker).toOption.map (fun returned =>
        (deliveredBy returned.1, failedBy returned.1)) = some ([ascii "b"], 1) := by decide +kernel
  obtain ⟨⟨steps, last⟩, returns, seen⟩ := returned_of_view shows
  obtain ⟨delivers, fails⟩ := Prod.mk.inj seen
  obtain ⟨run, names⟩ := Simulation.Run.of_collect returns
  have small : ∀ step ∈ steps, (step.1.sending (ascii "k")).Small := by
    intro step member
    have named := List.mem_map_of_mem (f := Prod.fst) member
    rw [names] at named
    have fits (c : RedisCommand) (is : c = rpushCommand (ascii "k") [ascii "a", ascii "b"] ∨
        c = lpopCommand (ascii "k") ∨ c = bxpopCommand true [ascii "k"] 0) :
        (commandText c).length < 2 ^ 31 := by
      rcases is with rfl | rfl | rfl <;> decide +kernel
    rcases List.mem_cons.mp named with is | named
    · rw [is]
      exact fits _ (Or.inl rfl)
    · rcases List.mem_pair.mp named with is | is
      · rw [is]
        exact fits _ (Or.inr (Or.inl rfl))
      · rw [is]
        exact fits _ (Or.inr (Or.inr rfl))
  have result := values_in_order listing_whole (listing_queues (ascii "k")) _ _ 0 _ rfl
    (run.and_label small)
  rw [delivers, fails] at result
  exact ⟨steps, last, delivers, fails, result.1, result.2.1 rfl⟩

end Redis2

end LibRedis
