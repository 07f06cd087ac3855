import Mathlib.Data.Set.Image
import Mathlib.Logic.Function.Basic

/-!
# Maps known up to candidates

Where an attempt at a value may fail behind the change as well as before it, a map is known up to
candidates, some values for each key. An attempt that succeeds has been made, and shows an output of
one of them; one that fails leaves what was there, or what it makes of it.
-/

namespace Candidates

variable {K V A B : Type}

/-- Every key has one of its candidates. -/
def Within (known : K → Set V) (map : K → V) : Prop := ∀ key, map key ∈ known key

/-- Nothing but this map. -/
def only (map : K → V) (key : K) : Set V := {map key}

/-- A map is the only one of its kind. -/
theorem within_only (map : K → V) : Within (only map) map := fun _ => rfl

/-- What an attempt leaves of the candidates for a value. -/
def Attempt (effect : V → A × V) (before : Set V) : Option A → Set V → Prop
  | some out, after =>
    (∃ value ∈ before, out = (effect value).1) ∧ after = (fun value => (effect value).2) '' before
  | none, after => after = before ∪ (fun value => (effect value).2) '' before

/-- What it makes of a candidate is a candidate. -/
theorem Attempt.made {effect : V → A × V} {before after : Set V} {out : Option A}
    (attempt : Attempt effect before out after) {value : V} (candidate : value ∈ before) :
    (effect value).2 ∈ after := by
  cases out with
  | some out =>
    rw [attempt.2]
    exact Set.mem_image_of_mem _ candidate
  | none =>
    rw [show after = _ from attempt]
    exact Or.inr (Set.mem_image_of_mem _ candidate)

/-- If it fails, what was there is a candidate too. -/
theorem Attempt.failed {effect : V → A × V} {before after : Set V}
    (attempt : Attempt effect before none after) : before ⊆ after := by
  rw [show after = _ from attempt]
  exact Set.subset_union_left

/-- There is one to make. -/
theorem exists_attempt (effect : V → A × V) (before : Set V) {out : Option A}
    (shows : ∀ outputs, out = some outputs → ∃ value ∈ before, outputs = (effect value).1) :
    ∃ after, Attempt effect before out after := by
  cases out with
  | some outputs => exact ⟨_, shows outputs rfl, rfl⟩
  | none => exact ⟨_, rfl⟩

/-- An attempt that changes nothing leaves the candidates. -/
theorem Attempt.reads {effect : V → A × V} (reads : ∀ value, (effect value).2 = value)
    {before after : Set V} {out : Option A} (attempt : Attempt effect before out after) :
    after = before := by
  have same : (fun value => (effect value).2) '' before = before := by
    rw [show (fun value => (effect value).2) = id from funext reads, Set.image_id]
  cases out with
  | some out => rw [attempt.2, same]
  | none => rw [show after = _ from attempt, same, Set.union_self]

/-- One that succeeds where the value is known shows it, and leaves one that is known. -/
theorem Attempt.certain {effect : V → A × V} {value : V} {out : A} {after : Set V}
    (attempt : Attempt effect {value} (some out) after) :
    out = (effect value).1 ∧ after = {(effect value).2} := by
  obtain ⟨⟨_, rfl, shows⟩, same⟩ := attempt
  rw [Set.image_singleton] at same
  exact ⟨shows, same⟩

section Keys

variable [DecidableEq K]

/-- An attempt at the value of a key. -/
def Tries (effect : V → A × V) (key : K) (known : K → Set V) (out : Option A)
    (known' : K → Set V) : Prop :=
  ∃ after, Attempt effect (known key) out after ∧ known' = Function.update known key after

/-- One that changes nothing leaves all candidates. -/
theorem Tries.reads {effect : V → A × V} (reads : ∀ value, (effect value).2 = value) {key : K}
    {known known' : K → Set V} {out : Option A} (tries : Tries effect key known out known') :
    known' = known := by
  obtain ⟨after, attempt, rfl⟩ := tries
  rw [attempt.reads reads, Function.update_eq_self]

/-- One that succeeds where the map is known shows it, and leaves one that is known. -/
theorem Tries.certain {effect : V → A × V} {key : K} {map : K → V} {known' : K → Set V} {out : A}
    (tries : Tries effect key (only map) (some out) known') :
    out = (effect (map key)).1 ∧ known' = only (Function.update map key (effect (map key)).2) := by
  obtain ⟨after, attempt, rfl⟩ := tries
  obtain ⟨shows, rfl⟩ := attempt.certain
  refine ⟨shows, funext fun other => ?_⟩
  by_cases same : other = key
  · subst same
    simp [only]
  · simp [only, Function.update_of_ne same]

/-- A map of the kind is of the kind behind the attempt, once that is made. -/
theorem Within.made {known : K → Set V} {map : K → V} (within : Within known map)
    {effect : V → A × V} {key : K} {out : Option A} {after : Set V}
    (attempt : Attempt effect (known key) out after) :
    Within (Function.update known key after)
      (Function.update map key (effect (map key)).2) := by
  intro other
  by_cases same : other = key
  · subst same
    rw [Function.update_self, Function.update_self]
    exact attempt.made (within other)
  · rw [Function.update_of_ne same, Function.update_of_ne same]
    exact within other

/-- If the attempt fails it is one anyway. -/
theorem Within.kept {known : K → Set V} {map : K → V} (within : Within known map) {key : K}
    {after : Set V} (more : known key ⊆ after) : Within (Function.update known key after) map := by
  intro other
  by_cases same : other = key
  · subst same
    rw [Function.update_self]
    exact more (within other)
  · rw [Function.update_of_ne same]
    exact within other

/-- Attempts in turn, until the first that fails. Their outputs are shown if all succeed. -/
def TriesEach (effect : B → V → A × V) : List (K × B) → (K → Set V) → Option (List A) →
    (K → Set V) → Prop
  | [], known, outs, known' => outs = some [] ∧ known' = known
  | (key, given) :: rest, known, outs, known' => ∃ out next, Tries (effect given) key known out next ∧
      match out with
      | none => outs = none ∧ known' = next
      | some out => ∃ more, TriesEach effect rest next more known' ∧ outs = more.map (out :: ·)

/-- What the attempts make of one map. -/
def makeEach (effect : B → V → A × V) : List (K × B) → (K → V) → List A × (K → V)
  | [], map => ([], map)
  | (key, given) :: rest, map =>
    let (out, value) := effect given (map key)
    let (outs, map) := makeEach effect rest (Function.update map key value)
    (out :: outs, map)

/-- Attempts that all succeed where the map is known show it, and leave one that is known. -/
theorem TriesEach.certain {effect : B → V → A × V} {tried : List (K × B)} {map : K → V}
    {outs : List A} {known' : K → Set V}
    (tries : TriesEach effect tried (only map) (some outs) known') :
    outs = (makeEach effect tried map).1 ∧ known' = only (makeEach effect tried map).2 := by
  induction tried generalizing map outs with
  | nil =>
    obtain ⟨shows, rfl⟩ := tries
    cases shows
    exact ⟨rfl, rfl⟩
  | cons first rest ih =>
    obtain ⟨key, given⟩ := first
    obtain ⟨out, next, here, behind⟩ := tries
    cases out with
    | none => cases behind.1
    | some out =>
      obtain ⟨more, behind, shows⟩ := behind
      cases more with
      | none => cases shows
      | some more =>
        cases shows
        obtain ⟨rfl, rfl⟩ := here.certain
        obtain ⟨rfl, rfl⟩ := ih behind
        exact ⟨rfl, rfl⟩

/-- Attempts that change nothing leave all candidates. -/
theorem TriesEach.reads {effect : B → V → A × V}
    (reads : ∀ given value, (effect given value).2 = value)
    {tried : List (K × B)} {known known' : K → Set V} {outs : Option (List A)}
    (tries : TriesEach effect tried known outs known') : known' = known := by
  induction tried generalizing known outs with
  | nil => exact tries.2
  | cons first rest ih =>
    obtain ⟨key, given⟩ := first
    obtain ⟨out, next, here, behind⟩ := tries
    have same := here.reads (reads given)
    cases out with
    | none => exact behind.2.trans same
    | some out =>
      obtain ⟨more, behind, -⟩ := behind
      exact (ih behind).trans same

end Keys

end Candidates
