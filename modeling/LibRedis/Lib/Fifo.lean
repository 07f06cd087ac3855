import Mathlib.Algebra.GroupWithZero.Nat
import Mathlib.Algebra.Order.BigOperators.Group.Finset
import LibRedis.Lib.Simulation
import LibRedis.Lib.Traces

/-!
# First in, first out

A queue is a list: items are put behind it and taken from its front, and it may be reset. Along
every run, what was taken since the last reset and what is still there make up what was put. Where a
channel to the queue may fail, what one end knows bounds what has happened.
-/

namespace Fifo

open Simulation (Run)

variable {α : Type}

/-- What happens to a queue. -/
inductive Event (α : Type) where
  /-- Items are put behind those that are there. -/
  | put (items : List α)
  /-- These items are taken from the front. -/
  | take (items : List α)
  /-- All items are dropped. -/
  | reset
  /-- Nothing is put or taken. -/
  | keep

/-- The steps of a queue. -/
inductive Step : List α → Event α → List α → Prop
  | put (queue items : List α) : Step queue (.put items) (queue ++ items)
  | take (items queue : List α) : Step (items ++ queue) (.take items) queue
  | reset (queue : List α) : Step queue .reset []
  | keep (queue : List α) : Step queue .keep queue

/-- What was put since the last reset, behind these items. -/
def putSince : List α → List (Event α) → List α
  | items, [] => items
  | items, .put more :: events => putSince (items ++ more) events
  | _, .reset :: events => putSince [] events
  | items, .take _ :: events => putSince items events
  | items, .keep :: events => putSince items events

/-- What was taken since the last reset, behind these items. -/
def takenSince : List α → List (Event α) → List α
  | items, [] => items
  | items, .take more :: events => takenSince (items ++ more) events
  | _, .reset :: events => takenSince [] events
  | items, .put _ :: events => takenSince items events
  | items, .keep :: events => takenSince items events

/-- What was taken and what is there are what was put. -/
theorem balanced {first last : List α} {events : List (Event α)} (run : Run Step first events last)
    {put taken : List α} (start : taken ++ first = put) :
    takenSince taken events ++ last = putSince put events := by
  induction run generalizing put taken with
  | done queue => exact start
  | step head tail ih =>
    cases head with
    | put queue items =>
      apply ih
      rw [← List.append_assoc, start]
    | take items queue =>
      apply ih
      rw [List.append_assoc]
      exact start
    | reset queue => exact ih rfl
    | keep queue => exact ih start

/-- What went through a queue over a channel that may fail: what was put lies between what was told
and what was tried, what was delivered is part of what was taken, in order, and at most this many of
what was taken were not delivered. -/
def Flows (first tried told delivered : List α) (failed : Nat) (last : List α) : Prop :=
  ∃ put taken, first ++ put = taken ++ last ∧ told.Sublist put ∧ put.Sublist tried ∧
    delivered.Sublist taken ∧ taken.length ≤ delivered.length + failed

namespace Flows

variable {first next last tried told delivered tried' told' delivered' : List α}
  {failed failed' : Nat}

/-- Nothing happens, however much was tried. -/
theorem idle (queue tried : List α) (failed : Nat) : Flows queue tried [] [] failed queue :=
  ⟨[], [], by simp, .slnil, List.nil_sublist _, .slnil, by simp⟩

/-- Items are put, and it is told or not. -/
theorem put (queue items : List α) (failed : Nat) (part : told.Sublist items) :
    Flows queue items told [] failed (queue ++ items) :=
  ⟨items, [], rfl, part, .refl items, .slnil, by simp⟩

/-- The first item is taken, and delivered. -/
theorem take (item : α) (queue : List α) (failed : Nat) :
    Flows (item :: queue) [] [] [item] failed queue :=
  ⟨[], [item], by simp, .slnil, .slnil, .refl _, by simp⟩

/-- The first item is taken, and not delivered. -/
theorem lose (item : α) (queue : List α) : Flows (item :: queue) [] [] [] 1 queue :=
  ⟨[], [item], by simp, .slnil, .slnil, List.nil_sublist _, by simp⟩

/-- One after the other. -/
theorem append (before : Flows first tried told delivered failed next)
    (behind : Flows next tried' told' delivered' failed' last) :
    Flows first (tried ++ tried') (told ++ told') (delivered ++ delivered') (failed + failed')
      last := by
  obtain ⟨put, taken, balance, least, most, part, missing⟩ := before
  obtain ⟨put', taken', balance', least', most', part', missing'⟩ := behind
  refine ⟨put ++ put', taken ++ taken', ?_, least.append least', most.append most',
    part.append part', ?_⟩
  · rw [← List.append_assoc, balance, List.append_assoc, balance', List.append_assoc]
  · simp only [List.length_append]
    omega

/-- What flows along every step flows along every run. -/
theorem run {σ ℓ : Type} {step : σ → ℓ → σ → Prop} {holds : σ → Prop} (queue : σ → List α)
    {tried told delivered : ℓ → List α} {failed : ℓ → Nat}
    (flows : ∀ state label next, holds state → step state label next → holds next ∧
      Flows (queue state) (tried label) (told label) (delivered label) (failed label) (queue next))
    {first last : σ} {labels : List ℓ} (run : Run step first labels last) (start : holds first) :
    Flows (queue first) (labels.flatMap tried) (labels.flatMap told) (labels.flatMap delivered)
      (labels.map failed).sum (queue last) := by
  induction run with
  | done state => exact idle _ [] 0
  | step head tail ih =>
    obtain ⟨kept, here⟩ := flows _ _ _ start head
    exact here.append (ih kept)

/-- Through a queue that was empty nothing is delivered that was not tried, in another order or more
often. -/
theorem delivered_sublist (flows : Flows [] tried told delivered failed last) :
    delivered.Sublist tried := by
  obtain ⟨put, taken, balance, -, most, part, -⟩ := flows
  rw [List.nil_append] at balance
  exact (part.trans (List.sublist_append_left taken last)).trans (balance ▸ most)

/-- If nothing taken was left undelivered, what was told is delivered or still there. -/
theorem told_sublist (flows : Flows [] tried told delivered 0 last) :
    told.Sublist (delivered ++ last) := by
  obtain ⟨put, taken, balance, least, -, part, missing⟩ := flows
  have all : delivered = taken := part.eq_of_length_le missing
  rw [all, ← balance]
  exact least

end Flows

section Together

open Traces (part)

variable {ι : Type} [DecidableEq ι] {first last : List α} {tried told delivered : ι → List α}
  {failed : ι → Nat}

/-- What went through a queue that several put to and take from, each over a channel that may fail. -/
def FlowsTogether (first : List α) (tried told delivered : ι → List α) (failed : ι → Nat)
    (last : List α) : Prop :=
  ∃ put taken : List (ι × α), first ++ put.map Prod.snd = taken.map Prod.snd ++ last ∧
    ∀ i, (told i).Sublist (part i put) ∧ (part i put).Sublist (tried i) ∧
      (delivered i).Sublist (part i taken) ∧ (part i taken).length ≤ (delivered i).length + failed i

/-- Of a part that misses this many, this many are missing at most of what is counted. -/
theorem countP_le_of_sublist {part whole : List α} {missing : Nat} (sublist : part.Sublist whole)
    (bound : whole.length ≤ part.length + missing) (counted : α → Bool) :
    whole.countP counted ≤ part.countP counted + missing := by
  have others := sublist.countP_le (p := fun item => decide ¬ counted item)
  have all := List.length_eq_countP_add_countP counted (l := whole)
  have some := List.length_eq_countP_add_countP counted (l := part)
  omega

variable [Fintype ι] [BEq α]

/-- No item is delivered or left more often than it was there or tried. -/
theorem FlowsTogether.no_more (flows : FlowsTogether first tried told delivered failed last)
    (item : α) : ∑ i, (delivered i).count item + last.count item ≤
      first.count item + ∑ i, (tried i).count item := by
  obtain ⟨put, taken, balance, each⟩ := flows
  have counted := congrArg (List.countP (· == item)) balance
  rw [List.countP_append, List.countP_append, ← Traces.sum_countP_part,
    ← Traces.sum_countP_part] at counted
  have most : ∑ i, (delivered i).countP (· == item) ≤ ∑ i, (part i taken).countP (· == item) :=
    Finset.sum_le_sum fun i _ => (each i).2.2.1.countP_le
  have least : ∑ i, (part i put).countP (· == item) ≤ ∑ i, (tried i).countP (· == item) :=
    Finset.sum_le_sum fun i _ => (each i).2.1.countP_le
  simp only [List.count_eq_countP]
  omega

/-- And none less often than it was there or told, but for one item for each failure. -/
theorem FlowsTogether.no_less (flows : FlowsTogether first tried told delivered failed last)
    (item : α) : first.count item + ∑ i, (told i).count item ≤
      ∑ i, (delivered i).count item + last.count item + ∑ i, failed i := by
  obtain ⟨put, taken, balance, each⟩ := flows
  have counted := congrArg (List.countP (· == item)) balance
  rw [List.countP_append, List.countP_append, ← Traces.sum_countP_part,
    ← Traces.sum_countP_part] at counted
  have least : ∑ i, (told i).countP (· == item) ≤ ∑ i, (part i put).countP (· == item) :=
    Finset.sum_le_sum fun i _ => (each i).1.countP_le
  have most : ∑ i, (part i taken).countP (· == item) ≤
      ∑ i, ((delivered i).countP (· == item) + failed i) :=
    Finset.sum_le_sum fun i _ => countP_le_of_sublist (each i).2.2.1 (each i).2.2.2 _
  rw [Finset.sum_add_distrib] at most
  simp only [List.count_eq_countP]
  omega

end Together

end Fifo
