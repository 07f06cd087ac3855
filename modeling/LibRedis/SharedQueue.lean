import LibRedis.MethodHistory
import LibRedis.SharedServer

/-!
# Work that several clients share

Producers push values behind a list of a server, and consumers pop them from its front, all at the
same time and over connections that break. No value is returned by more pops than it was pushed, and
none that a push has reported is missing, but for one value for each pop that has failed.
-/

namespace LibRedis

open Decimal (ascii)
open Resp (Reply)
open RedisOutput (takeI takeBulk takePop)
open RedisProtocol (requestOf)
open Traces (part spread Linked)

namespace Redis2

/-- The values that an entry puts behind the list. -/
def putBy (entry : Entry) : List Bytes :=
  match commandOf entry.1 with
  | .rpush => (takeI (denoteAs .integer entry.2)).elim [] fun _ => entry.1.drop 2
  | _ => []

/-- The value that an entry takes from its front. -/
def takenBy (entry : Entry) : List Bytes :=
  match commandOf entry.1 with
  | .lpop => (takeBulk (denoteAs .bulk entry.2)).join.toList
  | .blpop => ((takePop (denoteAs .multiBulk entry.2)).bind (Option.map Prod.snd)).toList
  | _ => []

/-- The requests of clients that work through a list under this key. -/
def WorksOn (key : Bytes) (args : List Bytes) : Prop :=
  IsSelect args ∨ (∃ values, args = requestOf (rpushCommand key values)) ∨
    args = requestOf (lpopCommand key) ∨ ∃ timeout, args = requestOf (bxpopCommand true [key] timeout)

section Entries

variable {key : Bytes} {reply : Reply}

/-- A SELECT puts and takes nothing. -/
theorem select_entry {args : List Bytes} (select : IsSelect args) :
    putBy (args, reply) = [] ∧ takenBy (args, reply) = [] := by
  obtain ⟨index, rfl⟩ := select
  have named : commandOf (requestOf (selectCommand index)) = .select :=
    (names_requestOf (selectCommand index) .select (by decide)).mpr rfl
  simp only [putBy, takenBy, named]
  exact ⟨trivial, trivial⟩

/-- RPUSH puts its values if it is answered by a number. -/
theorem rpush_entry (values : List Bytes) :
    putBy (requestOf (rpushCommand key values), reply) =
        (takeI (denoteAs .integer reply)).elim [] (fun _ => values) ∧
      takenBy (requestOf (rpushCommand key values), reply) = [] := by
  have named : commandOf (requestOf (rpushCommand key values)) = .rpush := commandOf_requestOf rfl
  simp only [putBy, takenBy, named]
  exact ⟨rfl, trivial⟩

/-- LPOP takes what `lpop` returns. -/
theorem lpop_entry : putBy (requestOf (lpopCommand key), reply) = [] ∧
    takenBy (requestOf (lpopCommand key), reply) = (takeBulk (denoteAs .bulk reply)).join.toList := by
  have named : commandOf (requestOf (lpopCommand key)) = .lpop := commandOf_requestOf rfl
  simp only [putBy, takenBy, named]
  exact ⟨trivial, trivial⟩

/-- BLPOP takes what `blpop` returns. -/
theorem blpop_entry (timeout : Int64) :
    putBy (requestOf (bxpopCommand true [key] timeout), reply) = [] ∧
      takenBy (requestOf (bxpopCommand true [key] timeout), reply) =
        ((takePop (denoteAs .multiBulk reply)).bind (Option.map Prod.snd)).toList := by
  have named : commandOf (requestOf (bxpopCommand true [key] timeout)) = .blpop :=
    commandOf_requestOf rfl
  simp only [putBy, takenBy, named]
  exact ⟨trivial, trivial⟩

end Entries

/-- What entries put and take, for the calls that they are of: what is put lies between what is told
and what is tried, and what is taken is returned or a call has failed. -/
structure EntriesFlow (key : Bytes) (most least returned : List Bytes) (failures : Nat)
    (entries : List Entry) : Prop where
  /-- What is told is put. -/
  told : least.Sublist (entries.flatMap putBy)
  /-- What is put was tried. -/
  tried : (entries.flatMap putBy).Sublist most
  /-- What is returned is taken. -/
  delivered : returned.Sublist (entries.flatMap takenBy)
  /-- What is taken and not returned has failed. -/
  missing : (entries.flatMap takenBy).length ≤ returned.length + failures
  /-- The requests are those of such clients. -/
  asks : ∀ entry ∈ entries, WorksOn key entry.1

/-- The piece of a call. -/
def WorkPiece (key : Bytes) (step : Work × Worked) (entries : List Entry) : Prop :=
  EntriesFlow key step.1.tried (step.2.told step.1.tried) step.2.delivered step.2.failed entries

variable {key : Bytes}

/-- SELECTs put and take nothing. -/
theorem selects_flow {entries : List Entry} (selects : ∀ entry ∈ entries, IsSelect entry.1) :
    entries.flatMap putBy = [] ∧ entries.flatMap takenBy = [] :=
  ⟨List.flatMap_eq_nil_iff.mpr fun entry member => (select_entry (selects entry member)).1,
    List.flatMap_eq_nil_iff.mpr fun entry member => (select_entry (selects entry member)).2⟩

/-- A call that sends SELECTs only, and tells and returns nothing. -/
theorem WorkPiece.quiet {work : Work} {ok : Bool} {entries : List Entry}
    (selects : ∀ entry ∈ entries, IsSelect entry.1) : WorkPiece key (work, .bool ok) entries := by
  obtain ⟨puts, takes⟩ := selects_flow selects
  refine ⟨?_, ?_, ?_, ?_, fun entry member => Or.inl (selects entry member)⟩
  · exact List.nil_sublist _
  · rw [puts]
    exact List.nil_sublist _
  · exact List.nil_sublist _
  · rw [takes]
    exact Nat.zero_le _

/-- The piece of a method as a list of entries that flow. -/
theorem MethodPiece.flow {α : Type} {c : RedisCommand} {take : RedisOutput → Option α}
    {out : Option α} {entries : List Entry} (piece : MethodPiece c take out entries)
    (asks : WorksOn key (requestOf c)) :
    (∀ entry ∈ entries, WorksOn key entry.1) ∧
      ((entries.flatMap putBy = [] ∧ entries.flatMap takenBy = [] ∧ out = none) ∨
      ∃ reply, entries.flatMap putBy = putBy (requestOf c, reply) ∧
        entries.flatMap takenBy = takenBy (requestOf c, reply) ∧
        ∀ value, out = some value → take (denoteAs c.commandInfo.replyType reply) = some value) := by
  obtain ⟨selects, own, rfl, selected, ends⟩ := piece
  obtain ⟨puts, takes⟩ := selects_flow selected.isSelect
  constructor
  · intro entry member
    rcases List.mem_append.mp member with member | member
    · exact Or.inl (selected.isSelect entry member)
    · rcases ends with ⟨rfl, -⟩ | ⟨reply, rfl, -⟩
      · cases member
      · rw [List.mem_singleton.mp member]
        exact asks
  · simp only [List.flatMap_append, puts, takes, List.nil_append]
    rcases ends with ⟨rfl, failed⟩ | ⟨reply, rfl, takes⟩
    · exact Or.inl ⟨rfl, rfl, failed⟩
    · exact Or.inr ⟨reply, List.flatMap_singleton _ _, List.flatMap_singleton _ _, takes⟩

/-- A pop takes what it returns, or it has failed. -/
theorem MethodPiece.pops {α : Type} {c : RedisCommand} {take : RedisOutput → Option α}
    {out : Option α} {entries : List Entry} (piece : MethodPiece c take out entries)
    (asks : WorksOn key (requestOf c)) (item : α → Option Bytes)
    (flows : ∀ reply, putBy (requestOf c, reply) = [] ∧ takenBy (requestOf c, reply) =
      ((take (denoteAs c.commandInfo.replyType reply)).bind item).toList) :
    entries.flatMap putBy = [] ∧ (out.bind item).toList.Sublist (entries.flatMap takenBy) ∧
      (entries.flatMap takenBy).length ≤ (out.bind item).toList.length + (out.elim 1 fun _ => 0) ∧
      ∀ entry ∈ entries, WorksOn key entry.1 := by
  obtain ⟨only, ⟨puts, takes, rfl⟩ | ⟨reply, puts, takes, shows⟩⟩ := piece.flow asks
  · rw [puts, takes]
    exact ⟨rfl, .slnil, Nat.zero_le _, only⟩
  · rw [puts, takes, (flows reply).1, (flows reply).2]
    refine ⟨rfl, ?_, ?_, only⟩
    · cases out with
      | none => exact List.nil_sublist _
      | some value => rw [shows value rfl]
    · cases out with
      | none =>
        cases (take (denoteAs c.commandInfo.replyType reply)).bind item with
        | none => exact Nat.zero_le _
        | some value => exact le_refl 1
      | some value =>
        rw [shows value rfl]
        exact le_refl _

/-- Every call has its piece. -/
theorem work_piece {σ : Type} {server : Server σ} (whole : AnswersWhole server)
    {r r' : Redis2 (Endpoint server)} {step : Work × Worked} (synced : r.proto.Synced)
    (works : Works key r step r') : r'.proto.Synced ∧ ∃ entries,
      server.History r.proto.served entries r'.proto.served ∧ WorkPiece key step entries := by
  obtain ⟨work, out⟩ := step
  obtain ⟨small, returns⟩ := works
  cases work with
  | push values =>
    obtain ⟨⟨length, r₁⟩, pushes, same⟩ := map_returns returns
    cases same
    obtain ⟨synced', entries, history, piece⟩ :=
      method_piece whole synced small (Or.inr fun _ => rfl) pushes
    obtain ⟨only, flows⟩ := piece.flow (show WorksOn key _ from Or.inr (Or.inl ⟨values, rfl⟩))
    refine ⟨synced', entries, history, ?_⟩
    rcases flows with ⟨puts, takes, rfl⟩ | ⟨reply, puts, takes, shows⟩
    · refine ⟨List.nil_sublist _, ?_, List.nil_sublist _, ?_, only⟩
      · rw [puts]
        exact List.nil_sublist _
      · rw [takes]
        exact Nat.zero_le _
    · rw [(rpush_entry values).1] at puts
      rw [(rpush_entry values).2] at takes
      refine ⟨?_, ?_, List.nil_sublist _, ?_, only⟩
      · rw [puts]
        cases length with
        | none => exact List.nil_sublist _
        | some length =>
          have told : takeI (denoteAs .integer reply) = some length := shows length rfl
          rw [told]
          exact .refl values
      · rw [puts]
        cases takeI (denoteAs .integer reply) with
        | none => exact List.nil_sublist _
        | some length => exact .refl values
      · rw [takes]
        exact Nat.zero_le _
  | pop =>
    obtain ⟨⟨value, r₁⟩, pops, same⟩ := map_returns returns
    cases same
    obtain ⟨synced', entries, history, piece⟩ :=
      method_piece whole synced small (Or.inr fun _ => rfl) pops
    obtain ⟨puts, least, most, only⟩ := piece.pops
      (show WorksOn key _ from Or.inr (Or.inr (Or.inl rfl))) id fun reply => lpop_entry
    refine ⟨synced', entries, history, List.nil_sublist _, ?_, least, most, only⟩
    rw [puts]
    exact List.nil_sublist _
  | wait timeout =>
    obtain ⟨⟨pair, r₁⟩, pops, same⟩ := map_returns returns
    cases same
    obtain ⟨synced', entries, history, piece⟩ :=
      blockingMethod_piece whole synced small (Or.inr fun _ => rfl) pops
    obtain ⟨puts, least, most, only⟩ := piece.pops
      (show WorksOn key _ from Or.inr (Or.inr (Or.inr ⟨timeout, rfl⟩))) (Option.map Prod.snd)
      fun reply => blpop_entry timeout
    refine ⟨synced', entries, history, List.nil_sublist _, ?_, least, most, only⟩
    rw [puts]
    exact List.nil_sublist _
  | connect =>
    cases returns
    obtain ⟨synced', entries, history, accounts⟩ :=
      send_accounts whole synced (show Sending.connect.Small from small) rfl
    cases accounts
    exact ⟨synced', [], history, .quiet (by simp)⟩
  | close =>
    cases returns
    obtain ⟨synced', entries, history, accounts⟩ :=
      send_accounts whole synced (show Sending.close.Small from small) rfl
    cases accounts
    exact ⟨synced', [], history, .quiet (by simp)⟩
  | select index =>
    obtain ⟨⟨ok, r₁⟩, selects, same⟩ := map_returns returns
    cases same
    obtain ⟨synced', entries, history, accounts⟩ := select_accounts whole synced selects
    refine ⟨synced', entries, history, .quiet ?_⟩
    rcases accounts with ⟨rfl, -⟩ | ⟨reply, rfl, -⟩
    · simp
    · simpa using ⟨index, rfl⟩

section Together

variable {ι γ δ : Type} [DecidableEq ι] {server : Server (γ × δ)} {before after : δ}
  {queue : δ → List Bytes}

/-- What pieces have, their calls have. -/
theorem WorkPiece.all {steps : List (Work × Worked)} {pieces : List (List Entry)}
    (all : List.Forall₂ (WorkPiece key) steps pieces) :
    EntriesFlow key (triedBy steps) (toldBy steps) (deliveredBy steps) (failedBy steps)
      pieces.flatten := by
  induction all with
  | nil => exact ⟨.slnil, .slnil, .slnil, le_refl 0, fun entry member => by cases member⟩
  | @cons step entries steps pieces here all ih =>
    rw [List.flatten_cons]
    refine ⟨?_, ?_, ?_, ?_, fun entry member => ?_⟩
    · rw [List.flatMap_append]
      exact here.told.append ih.told
    · rw [List.flatMap_append]
      exact here.tried.append ih.tried
    · rw [List.flatMap_append]
      exact here.delivered.append ih.delivered
    · have first := here.missing
      have behind := ih.missing
      have delivered : deliveredBy (step :: steps) = step.2.delivered ++ deliveredBy steps := rfl
      have failed : failedBy (step :: steps) = step.2.failed + failedBy steps := List.sum_cons
      rw [List.flatMap_append, delivered, failed, List.length_append, List.length_append]
      omega
    · rcases List.mem_append.mp member with member | member
      · exact here.asks entry member
      · exact ih.asks entry member

/-- A pop takes what is told from the front of the list. -/
theorem Pops.flows {args : List Bytes} {tells : Bytes → Reply} {nothing : Reply} {state : γ × δ}
    (pops : Pops server (fun state => queue state.2) args tells nothing state)
    (taken : Reply → List Bytes) (value : ∀ value, taken (tells value) = [value])
    (none : taken nothing = []) (error : ∀ text, taken (.error text) = []) :
    queue state.2 =
      taken (server.handle state args).1 ++ queue (server.handle state args).2.2 := by
  rcases pops with ⟨first, rest, holds, told, next⟩ | ⟨told | ⟨text, told⟩, same⟩
  · rw [told, value]
    exact holds.trans (congrArg (first :: ·) next.symm)
  · rw [told, none]
    exact same.symm
  · rw [told, error]
    exact same.symm

/-- A request of such a client puts values behind the list, and takes some from its front. -/
theorem Queues.request (queues : Queues server key fun state => queue state.2) {args : List Bytes}
    (asks : WorksOn key args) (state : γ × δ) :
    queue state.2 ++ putBy (args, (server.handle state args).1) =
      takenBy (args, (server.handle state args).1) ++ queue (server.handle state args).2.2 := by
  rcases asks with select | ⟨values, rfl⟩ | rfl | ⟨timeout, rfl⟩
  · rw [(select_entry select).1, (select_entry select).2, List.append_nil, List.nil_append]
    obtain ⟨index, rfl⟩ := select
    exact (queues.select state index).symm
  · rw [(rpush_entry values).1, (rpush_entry values).2, List.nil_append]
    rcases queues.rpush state values with ⟨⟨length, told⟩, next⟩ | ⟨⟨text, error⟩, same⟩
    · rw [told]
      exact next.symm
    · rw [error]
      exact (List.append_nil _).trans same.symm
  · rw [lpop_entry.1, lpop_entry.2, List.append_nil]
    refine (queues.lpop state).flows (fun reply => (takeBulk (denoteAs .bulk reply)).join.toList)
      ?_ ?_ ?_
    · exact fun value => rfl
    · rfl
    · exact fun text => rfl
  · rw [(blpop_entry timeout).1, (blpop_entry timeout).2, List.append_nil]
    refine (queues.blpop timeout state).flows (fun reply =>
      ((takePop (denoteAs .multiBulk reply)).bind (Option.map Prod.snd)).toList) ?_ ?_ ?_
    · exact fun value => rfl
    · rfl
    · exact fun text => rfl

/-- What a turn puts behind the list, and what it takes from its front. -/
theorem Queues.turn (queues : Queues server key fun state => queue state.2) {turn : Turn δ}
    (takes : server.Takes turn) (only : ∀ entry ∈ turn.entry, WorksOn key entry.1) :
    queue turn.before ++ turn.items putBy = turn.items takenBy ++ queue turn.after := by
  cases takes with
  | accept connection data =>
    have same : queue (server.fresh (connection, data)).2 = queue data := queues.fresh _
    exact (List.append_nil _).trans same.symm
  | request connection data args => exact queues.request (only _ rfl) (connection, data)

/-- What was there and what is put is what is taken and what is left. -/
theorem Queues.linked (queues : Queues server key fun state => queue state.2)
    {turns : List (Turn δ)} (takes : ∀ turn ∈ turns, server.Takes turn)
    (only : ∀ turn ∈ turns, ∀ entry ∈ turn.entry, WorksOn key entry.1)
    (linked : Linked Turn.before Turn.after before turns after) :
    queue before ++ turns.flatMap (Turn.items putBy) =
      turns.flatMap (Turn.items takenBy) ++ queue after := by
  induction linked with
  | nil data => simp
  | cons turn behind ih =>
    have rest := ih (fun later member => takes later (List.mem_cons_of_mem _ member))
      (fun later member => only later (List.mem_cons_of_mem _ member))
    have here := queues.turn (takes turn List.mem_cons_self) (only turn List.mem_cons_self)
    rw [List.flatMap_cons, List.flatMap_cons, ← List.append_assoc, here, List.append_assoc, rest,
      List.append_assoc]

/-- Clients that work together through a list, whatever becomes of their connections: what was there
and what was put behind it is what was taken and what is left, in one order for all. So no value is
returned or left more often than it was there or a push has tried, and none less often than it was
there or a push has told, but for one value for each pop that has failed. -/
theorem values_shared [Fintype ι] (whole : AnswersWhole server)
    (queues : Queues server key fun state => queue state.2) {steps : ι → List (Work × Worked)}
    {trace : List (ι × Turn δ)}
    (together : Together server (Works key) before steps trace after) :
    Fifo.FlowsTogether (queue before) (fun i => triedBy (steps i)) (fun i => toldBy (steps i))
        (fun i => deliveredBy (steps i)) (fun i => failedBy (steps i)) (queue after) ∧
      (∀ value, ∑ i, (deliveredBy (steps i)).count value + (queue after).count value ≤
        (queue before).count value + ∑ i, (triedBy (steps i)).count value) ∧
      (∀ value, (queue before).count value + ∑ i, (toldBy (steps i)).count value ≤
        ∑ i, (deliveredBy (steps i)).count value + (queue after).count value +
          ∑ i, failedBy (steps i)) := by
  let put : Turn δ → List Bytes := Turn.items putBy
  let taken : Turn δ → List Bytes := Turn.items takenBy
  have own (i : ι) : EntriesFlow key (triedBy (steps i)) (toldBy (steps i)) (deliveredBy (steps i))
        (failedBy (steps i)) ((part i trace).filterMap Turn.entry) ∧
      ∀ turn ∈ part i trace, server.Takes turn := by
    obtain ⟨pieces, all, flat, takes⟩ :=
      together.entries (fun _ _ _ => work_piece (Server.shared_whole whole)) i
    rw [← flat]
    exact ⟨WorkPiece.all all, takes⟩
  have each (turn : Turn δ) (member : turn ∈ trace.map Prod.snd) :
      ∃ i, turn ∈ part i trace := by
    obtain ⟨event, listed, rfl⟩ := List.mem_map.mp member
    exact ⟨event.1, Traces.mem_part.mpr listed⟩
  have takes : ∀ turn ∈ trace.map Prod.snd, server.Takes turn := by
    intro turn member
    obtain ⟨i, mine⟩ := each turn member
    exact (own i).2 turn mine
  have asks : ∀ turn ∈ trace.map Prod.snd, ∀ entry ∈ turn.entry, WorksOn key entry.1 := by
    intro turn member entry is
    obtain ⟨i, mine⟩ := each turn member
    exact (own i).1.asks entry (List.mem_filterMap.mpr ⟨turn, mine, is⟩)
  have balance := queues.linked takes asks together.linked
  have flows : Fifo.FlowsTogether (queue before) (fun i => triedBy (steps i))
      (fun i => toldBy (steps i)) (fun i => deliveredBy (steps i)) (fun i => failedBy (steps i))
      (queue after) := by
    refine ⟨spread put trace, spread taken trace, ?_, fun i => ?_⟩
    · rw [Traces.map_snd_spread, Traces.map_snd_spread]
      exact balance
    · have flow := (own i).1
      rw [Traces.part_spread, Traces.part_spread, ← Turn.flatMap_items, ← Turn.flatMap_items]
      exact ⟨flow.told, flow.tried, flow.delivered, flow.missing⟩
  exact ⟨flows, flows.no_more, flows.no_less⟩

end Together

/-- A queue alone is a queue for several. -/
theorem Queues.common {δ : Type} {server : Server δ} {queue : δ → List Bytes}
    (queues : Queues server key queue) : Queues server.common key fun state => queue state.2 where
  toKeeps := queues.toKeeps.common
  rpush state values := queues.rpush state.2 values
  lpop state := queues.lpop state.2
  blpop timeout state := queues.blpop timeout state.2

/-- One client pushes two values, and the other gives up waiting for the first; the second goes to the
one that has pushed it. -/
theorem values_shared_late : ∃ steps : Bool → List (Work × Worked),
    deliveredBy (steps false) = [ascii "b"] ∧ deliveredBy (steps true) = [] ∧
      failedBy (steps true) = 1 ∧
      Fifo.FlowsTogether [] (fun i => triedBy (steps i)) (fun i => toldBy (steps i))
        (fun i => deliveredBy (steps i)) (fun i => failedBy (steps i)) [] ∧
      (∀ value, ∑ i, (deliveredBy (steps i)).count value + ([] : List Bytes).count value ≤
        ([] : List Bytes).count value + ∑ i, (triedBy (steps i)).count value) ∧
      (∀ value, ([] : List Bytes).count value + ∑ i, (toldBy (steps i)).count value ≤
        ∑ i, (deliveredBy (steps i)).count value + ([] : List Bytes).count value +
          ∑ i, failedBy (steps i)) := by
  let key := ascii "k"
  let a := ascii "a"
  let b := ascii "b"
  let accepted (queue : List Bytes) : Seen (List Bytes) := ⟨none, queue, queue⟩
  let pushed : Seen (List Bytes) :=
    ⟨some (requestOf (rpushCommand key [a, b]), .number 2), [], [a, b]⟩
  let popped (value : Option Bytes) (queue left : List Bytes) : Seen (List Bytes) :=
    ⟨some (requestOf (lpopCommand key), .bytes value), queue, left⟩
  have first : (Simulation.collect (fun r => work key r) [.push [a, b], .pop] (commonClient listing
      (fun turn => if turn < 2 then [] else [b]) [])).toOption.map (fun returned =>
        ((deliveredBy returned.1, failedBy returned.1), returned.2.proto.served.turns.map seenOf)) =
      some (([b], 0), [accepted [], pushed, popped (some b) [b] []].map some) := by
    decide +kernel
  have second : (Simulation.collect (fun r => work key r) [.pop, .pop] (commonClient listing
      (fun turn => if turn < 2 then [a, b] else []) [.timeout])).toOption.map (fun returned =>
        ((deliveredBy returned.1, failedBy returned.1), returned.2.proto.served.turns.map seenOf)) =
      some (([], 1), [accepted [a, b], popped (some a) [a, b] [b], accepted [],
        popped none [] []].map some) := by
    decide +kernel
  obtain ⟨⟨steps, last⟩, returns, seen⟩ := returned_of_view first
  obtain ⟨⟨others, lastToo⟩, returnsToo, seenToo⟩ := returned_of_view second
  have shows := Prod.mk.inj seen
  have showsToo := Prod.mk.inj seenToo
  obtain ⟨run, names⟩ := Simulation.Run.of_collect returns
  obtain ⟨runToo, namesToo⟩ := Simulation.Run.of_collect returnsToo
  have fits : ∀ call ∈ [Work.push [a, b], .pop], (call.sending key).Small := by
    have pushes : (RedisProtocol.commandText (rpushCommand key [a, b])).length < 2 ^ 31 := by
      decide +kernel
    have pops : (RedisProtocol.commandText (lpopCommand key)).length < 2 ^ 31 := by
      decide +kernel
    simp only [List.forall_mem_cons]
    exact ⟨pushes, pops, by simp⟩
  have small : ∀ step ∈ steps, (step.1.sending key).Small := by
    intro step member
    exact fits step.1 (names ▸ List.mem_map_of_mem member)
  have smallToo : ∀ step ∈ others, (step.1.sending key).Small := by
    intro step member
    have named : step.1 ∈ [Work.pop, Work.pop] := namesToo ▸ List.mem_map_of_mem member
    have pops : step.1 = .pop := by simpa using named
    exact fits step.1 (by simp [pops])
  have together : Together listing.common (Works key) [] (fun i => if i then others else steps)
      [(false, (accepted []).turn), (false, pushed.turn), (true, (accepted [a, b]).turn),
        (true, (popped (some a) [a, b] [b]).turn), (false, (popped (some b) [b] []).turn),
        (true, (accepted []).turn), (true, (popped none [] []).turn)] [] := by
    refine ⟨?_, ?_⟩
    · exact .cons (accepted []).turn (.cons pushed.turn (.cons (accepted [a, b]).turn
        (.cons (popped (some a) [a, b] [b]).turn (.cons (popped (some b) [b] []).turn
        (.cons (accepted []).turn (.cons (popped none [] []).turn (.nil [])))))))
    · intro i
      cases i with
      | false => exact ⟨_, _, _, _, _, last, rfl, rfl, run.and_label small, turns_of_seen shows.2⟩
      | true =>
        exact ⟨_, _, _, _, _, lastToo, rfl, rfl, runToo.and_label smallToo, turns_of_seen showsToo.2⟩
  refine ⟨fun i => if i then others else steps, congrArg Prod.fst shows.1,
    congrArg Prod.fst showsToo.1, congrArg Prod.snd showsToo.1, ?_⟩
  exact values_shared (Server.common_whole listing_whole) (listing_queues key).common together

end Redis2

end LibRedis
