import Mathlib.Data.List.Forall2
import Mathlib.Logic.Relation

/-!
# Labelled runs and forward simulation

A system is a relation `step state label state'`; a label carries the call made and what it
returned, so the labels of a run are all an observer sees. A forward simulation carries every run
of the concrete system to a run of the abstract one with the same labels.
-/

namespace Simulation

variable {σ τ ℓ : Type}

/-- A run: states connected by steps, with the labels in the order of the steps. -/
inductive Run (step : σ → ℓ → σ → Prop) : σ → List ℓ → σ → Prop
  /-- The run without a step. -/
  | done (state : σ) : Run step state [] state
  /-- One more step at the front. -/
  | step {first next last : σ} {label : ℓ} {labels : List ℓ} (head : step first label next)
      (tail : Run step next labels last) : Run step first (label :: labels) last

/-- What every step preserves, every run preserves. -/
theorem Run.invariant {step : σ → ℓ → σ → Prop} {holds : σ → Prop}
    (preserved : ∀ state label next, holds state → step state label next → holds next)
    {first last : σ} {labels : List ℓ} (run : Run step first labels last) (start : holds first) :
    holds last := by
  induction run with
  | done => exact start
  | step head tail ih => exact ih (preserved _ _ _ start head)

/-- What every step from a state of the invariant shows of its label holds along every run. -/
theorem Run.labels {step : σ → ℓ → σ → Prop} {holds : σ → Prop} {shows : ℓ → Prop}
    (preserved : ∀ state label next, holds state → step state label next →
      shows label ∧ holds next)
    {first last : σ} {labels : List ℓ} (run : Run step first labels last) (start : holds first) :
    ∀ label ∈ labels, shows label := by
  induction run with
  | done => simp
  | step head tail ih =>
    obtain ⟨now, next⟩ := preserved _ _ _ start head
    intro label member
    rcases List.mem_cons.mp member with rfl | later
    · exact now
    · exact ih next label later

/-- Where every step adds a piece to what grows, a run adds a piece for each of its labels. -/
theorem Run.pieces {ε : Type} {step : σ → ℓ → σ → Prop} {first last : σ} {labels : List ℓ}
    (run : Run step first labels last) (grows : σ → List ε → σ → Prop)
    (idle : ∀ state, grows state [] state)
    (append : ∀ {first next last : σ} {piece more : List ε}, grows first piece next →
      grows next more last → grows first (piece ++ more) last)
    {holds : σ → Prop} {shows : ℓ → List ε → Prop}
    (each : ∀ state label next, holds state → step state label next →
      holds next ∧ ∃ piece, grows state piece next ∧ shows label piece) (start : holds first) :
    ∃ pieces, List.Forall₂ shows labels pieces ∧ grows first pieces.flatten last := by
  induction run with
  | done state => exact ⟨[], .nil, idle state⟩
  | step head tail ih =>
    obtain ⟨held, piece, grown, shown⟩ := each _ _ _ start head
    obtain ⟨pieces, all, behind⟩ := ih held
    exact ⟨piece :: pieces, .cons shown all, append grown behind⟩

/-- A run with a label in the middle is a run up to it, its step, and the run behind it. -/
theorem Run.split {step : σ → ℓ → σ → Prop} {first last : σ} {earlier later : List ℓ} {label : ℓ}
    (run : Run step first (earlier ++ label :: later) last) :
    ∃ state next, Run step first earlier state ∧ step state label next ∧
      Run step next later last := by
  induction earlier generalizing first with
  | nil =>
    cases run with
    | step head tail => exact ⟨_, _, Run.done _, head, tail⟩
  | cons label' earlier ih =>
    cases run with
    | step head tail =>
      obtain ⟨state, next, before, here, behind⟩ := ih tail
      exact ⟨state, next, Run.step head before, here, behind⟩

/-- A flag that some labels set and some release is set by these labels: one of them sets it, and
none behind that one releases it. -/
def Latched (sets releases : ℓ → Prop) : List ℓ → Prop
  | [] => False
  | label :: labels =>
    (sets label ∧ ∀ later ∈ labels, ¬ releases later) ∨ Latched sets releases labels

/-- What has set a flag is among the labels. -/
theorem Latched.among {sets releases : ℓ → Prop} {labels : List ℓ}
    (latched : Latched sets releases labels) : ∃ label ∈ labels, sets label := by
  induction labels with
  | nil => cases latched
  | cons label labels ih =>
    rcases latched with ⟨here, -⟩ | behind
    · exact ⟨label, List.mem_cons_self, here⟩
    · obtain ⟨later, member, there⟩ := ih behind
      exact ⟨later, List.mem_cons_of_mem label member, there⟩

/-- A flag that every step sets, releases or leaves is set behind a run exactly if the labels have
set it, or it was set before and none of them releases it. -/
theorem Run.latched {step : σ → ℓ → σ → Prop} {holds flag : σ → Prop} {sets releases : ℓ → Prop}
    (turns : ∀ state label next, holds state → step state label next →
      holds next ∧ (flag next ↔ sets label ∨ flag state ∧ ¬ releases label))
    {first last : σ} {labels : List ℓ} (run : Run step first labels last) (start : holds first) :
    flag last ↔ Latched sets releases labels ∨
      flag first ∧ ∀ label ∈ labels, ¬ releases label := by
  induction run with
  | done state => simp [Latched]
  | @step first next last label labels head tail ih =>
    obtain ⟨kept, turn⟩ := turns first label next start head
    rw [ih kept, turn, Latched, List.forall_mem_cons, or_and_right, and_assoc, ← or_assoc,
      or_comm (a := Latched sets releases labels)]

/-- A run whose labels are seen through a view is a run of what is seen. -/
theorem Run.view {κ : Type} {step : σ → κ → σ → Prop} {view : ℓ → κ} {first last : σ}
    {labels : List ℓ} (run : Run (fun state label next => step state (view label) next)
      first labels last) : Run step first (labels.map view) last := by
  induction run with
  | done state => exact Run.done state
  | step head tail ih => exact Run.step head ih

/-- Performing calls one after the other, until the first that fails, is a run. -/
theorem Run.of_foldlM {ε : Type} {perform : σ → ℓ → Except ε σ} {first last : σ} {labels : List ℓ}
    (performs : labels.foldlM perform first = .ok last) :
    Run (fun state label next => perform state label = .ok next) first labels last := by
  induction labels generalizing first with
  | nil =>
    cases performs
    exact Run.done _
  | cons label labels ih =>
    rw [List.foldlM_cons] at performs
    cases result : perform first label with
    | error failure =>
      rw [result] at performs
      cases performs
    | ok next =>
      rw [result] at performs
      exact Run.step result (ih performs)

/-- Calls one after the other, until the first that fails, each with what it has returned. -/
def collect {ε ο : Type} (perform : σ → ℓ → Except ε (ο × σ)) : List ℓ → σ →
    Except ε (List (ℓ × ο) × σ)
  | [], state => return ([], state)
  | label :: rest, state => do
    let (out, state) ← perform state label
    let (results, state) ← collect perform rest state
    return ((label, out) :: results, state)

/-- They are a run. -/
theorem Run.of_collect {ε ο : Type} {perform : σ → ℓ → Except ε (ο × σ)} {labels : List ℓ}
    {results : List (ℓ × ο)} {first last : σ}
    (returns : collect perform labels first = .ok (results, last)) :
    Run (fun state result next => perform state result.1 = .ok (result.2, next)) first results last ∧
      results.map Prod.fst = labels := by
  induction labels generalizing first results with
  | nil =>
    cases returns
    exact ⟨Run.done _, rfl⟩
  | cons label rest ih =>
    rw [collect] at returns
    cases performs : perform first label with
    | error failure =>
      rw [performs] at returns
      cases returns
    | ok performed =>
      obtain ⟨out, next⟩ := performed
      rw [performs] at returns
      change (collect perform rest next >>= _) = _ at returns
      cases collects : collect perform rest next with
      | error failure =>
        rw [collects] at returns
        cases returns
      | ok collected =>
        obtain ⟨later, state⟩ := collected
        rw [collects] at returns
        cases returns
        obtain ⟨run, names⟩ := ih collects
        exact ⟨Run.step performs run, congrArg (label :: ·) names⟩

/-- What holds of the label of every step may be added to the steps. -/
theorem Run.and_label {step : σ → ℓ → σ → Prop} {shows : ℓ → Prop} {first last : σ}
    {labels : List ℓ} (run : Run step first labels last) (all : ∀ label ∈ labels, shows label) :
    Run (fun state label next => shows label ∧ step state label next) first labels last := by
  induction run with
  | done state => exact Run.done state
  | step head tail ih =>
    exact Run.step ⟨all _ List.mem_cons_self, head⟩
      (ih fun later member => all later (List.mem_cons_of_mem _ member))

/-- Steps may be replaced by others that they imply. -/
theorem Run.imp {step step' : σ → ℓ → σ → Prop} {first last : σ} {labels : List ℓ}
    (implies : ∀ state label next, step state label next → step' state label next)
    (run : Run step first labels last) : Run step' first labels last := by
  induction run with
  | done state => exact Run.done state
  | step head tail ih => exact Run.step (implies _ _ _ head) ih

/-- A relation under which every concrete step is matched by an abstract step with its label. -/
def Forward (concrete : σ → ℓ → σ → Prop) (abstract : τ → ℓ → τ → Prop)
    (related : σ → τ → Prop) : Prop :=
  ∀ state image label next, related state image → concrete state label next →
    ∃ image', abstract image label image' ∧ related next image'

/-- Every concrete run is matched by an abstract run with the same labels. -/
theorem Forward.run {concrete : σ → ℓ → σ → Prop} {abstract : τ → ℓ → τ → Prop}
    {related : σ → τ → Prop} (forward : Forward concrete abstract related)
    {first last : σ} {labels : List ℓ} (run : Run concrete first labels last) {image : τ}
    (start : related first image) :
    ∃ image', Run abstract image labels image' ∧ related last image' := by
  induction run generalizing image with
  | done state => exact ⟨image, Run.done image, start⟩
  | step head tail ih =>
    obtain ⟨next, matched, relatedNext⟩ := forward _ _ _ _ start head
    obtain ⟨last, rest, relatedLast⟩ := ih relatedNext
    exact ⟨last, Run.step matched rest, relatedLast⟩

end Simulation
