import Mathlib.Algebra.BigOperators.Group.Finset.Piecewise
import Mathlib.Data.List.Basic

/-!
# Traces of components that run together

What several components do together is one trace, in which every event belongs to one of them. The
part of a component is what it does itself. What is counted or listed over all parts is counted or
listed over the trace. Where the events are linked, each begins in the state in which the one before
it has ended, whichever components they belong to.
-/

namespace Traces

variable {ι ε α : Type} [DecidableEq ι]

/-- What one component does in a trace of several. -/
def part (i : ι) (trace : List (ι × ε)) : List ε :=
  (trace.filter fun event => event.1 = i).map Prod.snd

/-- The first event is its own. -/
theorem part_cons_self (i : ι) (event : ε) (trace : List (ι × ε)) :
    part i ((i, event) :: trace) = event :: part i trace := by
  simp [part]

/-- The first event is that of another. -/
theorem part_cons_of_ne {i j : ι} (other : j ≠ i) (event : ε) (trace : List (ι × ε)) :
    part i ((j, event) :: trace) = part i trace := by
  simp [part, other]

/-- Traces one after the other. -/
theorem part_append (i : ι) (before behind : List (ι × ε)) :
    part i (before ++ behind) = part i before ++ part i behind := by
  simp [part]

/-- The part of a component is in the order of the trace. -/
theorem part_sublist (i : ι) (trace : List (ι × ε)) : (part i trace).Sublist (trace.map Prod.snd) :=
  List.filter_sublist.map Prod.snd

/-- An event of a part is one of the trace. -/
theorem mem_part {i : ι} {event : ε} {trace : List (ι × ε)} :
    event ∈ part i trace ↔ (i, event) ∈ trace := by
  simp [part]

/-- A part is cut where the trace is. -/
theorem part_split {i : ι} {event : ε} {earlier later : List ε} {trace : List (ι × ε)}
    (cut : part i trace = earlier ++ event :: later) : ∃ before behind,
      trace = before ++ (i, event) :: behind ∧ part i before = earlier ∧ part i behind = later := by
  induction trace generalizing earlier with
  | nil => simp [part] at cut
  | cons first rest ih =>
    obtain ⟨j, first⟩ := first
    by_cases same : j = i
    · subst same
      rw [part_cons_self] at cut
      cases earlier with
      | nil =>
        have here := List.cons.inj cut
        exact ⟨[], rest, by rw [here.1, List.nil_append], rfl, here.2⟩
      | cons head earlier =>
        have here := List.cons.inj cut
        obtain ⟨before, behind, shape, parts⟩ := ih here.2
        refine ⟨(j, first) :: before, behind, by rw [shape, List.cons_append], ?_, parts.2⟩
        rw [part_cons_self, here.1, parts.1]
    · rw [part_cons_of_ne same] at cut
      obtain ⟨before, behind, shape, parts⟩ := ih cut
      refine ⟨(j, first) :: before, behind, by rw [shape, List.cons_append], ?_, parts.2⟩
      rw [part_cons_of_ne same, parts.1]

/-- What follows from every event, with the component that it belongs to. -/
def spread (items : ε → List α) (trace : List (ι × ε)) : List (ι × α) :=
  trace.flatMap fun event => (items event.2).map (event.1, ·)

omit [DecidableEq ι] in
/-- It is what follows from the events. -/
theorem map_snd_spread (items : ε → List α) (trace : List (ι × ε)) :
    (spread items trace).map Prod.snd = (trace.map Prod.snd).flatMap items := by
  simp [spread, List.map_flatMap, List.flatMap_map, Function.comp_def]

/-- What follows from the events of a component is its own. -/
theorem part_spread (i : ι) (items : ε → List α) (trace : List (ι × ε)) :
    part i (spread items trace) = (part i trace).flatMap items := by
  induction trace with
  | nil => rfl
  | cons event rest ih =>
    obtain ⟨j, event⟩ := event
    change part i ((items event).map (j, ·) ++ spread items rest) = _
    rw [part_append, ih]
    by_cases same : j = i
    · subst same
      rw [part_cons_self, List.flatMap_cons]
      simp [part, List.filter_map, Function.comp_def]
    · rw [part_cons_of_ne same]
      simp [part, same]

/-- What is counted over the parts is counted over the trace. -/
theorem sum_countP_part [Fintype ι] (counted : ε → Bool) (trace : List (ι × ε)) :
    ∑ i, (part i trace).countP counted = (trace.map Prod.snd).countP counted := by
  induction trace with
  | nil => simp [part]
  | cons event rest ih =>
    obtain ⟨j, event⟩ := event
    have each (i : ι) : (part i ((j, event) :: rest)).countP counted =
        (part i rest).countP counted + if j = i then (if counted event then 1 else 0) else 0 := by
      by_cases same : j = i
      · subst same
        rw [part_cons_self, List.countP_cons, if_pos rfl]
      · rw [part_cons_of_ne same, if_neg same, Nat.add_zero]
    simp only [each, Finset.sum_add_distrib, ih, Finset.sum_ite_eq, Finset.mem_univ, if_true,
      List.map_cons, List.countP_cons]

/-- The parts are as long as the trace. -/
theorem sum_length_part [Fintype ι] (trace : List (ι × ε)) :
    ∑ i, (part i trace).length = trace.length := by
  simpa [List.countP_true] using sum_countP_part (fun _ => true) trace

/-- Without an event that happens twice, the parts have none in common. -/
theorem disjoint_part {i j : ι} (apart : i ≠ j) {trace : List (ι × ε)}
    (once : (trace.map Prod.snd).Nodup) : (part i trace).Disjoint (part j trace) := by
  intro event here there
  have same := List.inj_on_of_nodup_map once (mem_part.mp here) (mem_part.mp there) rfl
  exact apart (congrArg Prod.fst same)

section Linked

variable {δ : Type} {before after : ε → δ} {first last : δ}

/-- A trace in which every event begins where the one before it has ended. -/
inductive Linked (before after : ε → δ) : δ → List ε → δ → Prop
  /-- No event. -/
  | nil (state : δ) : Linked before after state [] state
  /-- An event, and those behind it. -/
  | cons (event : ε) {behind : List ε} {last : δ}
      (linked : Linked before after (after event) behind last) :
      Linked before after (before event) (event :: behind) last

/-- A linked trace is cut anywhere. -/
theorem Linked.split {earlier later : List ε}
    (linked : Linked before after first (earlier ++ later) last) :
    ∃ next, Linked before after first earlier next ∧ Linked before after next later last := by
  induction earlier generalizing first with
  | nil => exact ⟨first, .nil first, linked⟩
  | cons event earlier ih =>
    cases linked with
    | cons event behind =>
      obtain ⟨next, here, there⟩ := ih behind
      exact ⟨next, .cons event here, there⟩

/-- Where an event is, its state before and its state behind link what is around it. -/
theorem Linked.around {event : ε} {earlier later : List ε}
    (linked : Linked before after first (earlier ++ event :: later) last) :
    Linked before after first earlier (before event) ∧
      Linked before after (after event) later last := by
  obtain ⟨next, here, there⟩ := linked.split
  cases there with
  | cons event behind => exact ⟨here, behind⟩

/-- What every event keeps, the trace keeps. -/
theorem Linked.kept {relates : δ → δ → Prop} (refl : ∀ state, relates state state)
    (trans : ∀ {one two three}, relates one two → relates two three → relates one three)
    {trace : List ε} (each : ∀ event ∈ trace, relates (before event) (after event))
    (linked : Linked before after first trace last) : relates first last := by
  induction linked with
  | nil state => exact refl state
  | cons event behind ih =>
    have here := each event List.mem_cons_self
    exact trans here (ih fun later member => each later (List.mem_cons_of_mem _ member))

end Linked

end Traces
