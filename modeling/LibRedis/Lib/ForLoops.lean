import Mathlib.Data.List.Basic

/-!
# Loops over an index

A loop `for (i = 0; i < n; i++)` whose body may fail is a fold over the indexes below `n`. Its rule
has an invariant that the body carries from one index to the next. A loop that fills a vector by
index, in place, makes the vector of what it stores.
-/

namespace ForLoops

variable {ε σ α : Type}

/-- `for (i = 0; i < n; i++)`. -/
def forRange (n : Nat) (body : σ → Nat → Except ε σ) (state : σ) : Except ε σ :=
  (List.range n).foldlM body state

/-- The last round comes behind the others. -/
theorem forRange_succ (n : Nat) (body : σ → Nat → Except ε σ) (state : σ) :
    forRange (n + 1) body state = forRange n body state >>= fun state => body state n := by
  simp [forRange, List.range_succ, List.foldlM_append]

/-- A loop comes to its end, with its invariant, if every round does. -/
theorem forRange_ends (holds : Nat → σ → Prop) {n : Nat} {body : σ → Nat → Except ε σ} {state : σ}
    (start : holds 0 state)
    (round : ∀ i < n, ∀ state, holds i state → ∃ next, body state i = .ok next ∧ holds (i + 1) next) :
    ∃ last, forRange n body state = .ok last ∧ holds n last := by
  induction n with
  | zero => exact ⟨state, rfl, start⟩
  | succ n ih =>
    have earlier : ∀ i < n, ∀ state, holds i state →
        ∃ next, body state i = .ok next ∧ holds (i + 1) next := by
      intro i below
      exact round i (by omega)
    obtain ⟨last, ends, kept⟩ := ih earlier
    obtain ⟨next, goes, kept'⟩ := round n (by omega) last kept
    refine ⟨next, ?_, kept'⟩
    rw [forRange_succ, ends]
    exact goes

/-- A loop whose first round fails, fails. -/
theorem forRange_fails {n : Nat} {body : σ → Nat → Except ε σ} {state : σ} {failure : ε}
    (some : 0 < n) (fails : body state 0 = .error failure) :
    forRange n body state = .error failure := by
  obtain ⟨more, rfl⟩ : ∃ more, n = more + 1 := ⟨n - 1, by omega⟩
  rw [forRange, List.range_succ_eq_map, List.foldlM_cons, fails]
  rfl

/-- A vector of `n` elements that is filled up to an index. -/
def filled (f : Nat → α) (blank : α) (n i : Nat) : List α :=
  (List.range i).map f ++ List.replicate (n - i) blank

/-- At first it is blank. -/
theorem filled_zero (f : Nat → α) (blank : α) (n : Nat) :
    filled f blank n 0 = List.replicate n blank := by
  simp [filled]

/-- In the end it is full. -/
theorem filled_self (f : Nat → α) (blank : α) (n : Nat) :
    filled f blank n n = (List.range n).map f := by
  simp [filled]

/-- The next element is blank. -/
theorem getElem?_filled (f : Nat → α) (blank : α) {n i : Nat} (below : i < n) :
    (filled f blank n i)[i]? = some blank := by
  have front : ((List.range i).map f).length = i := by simp
  rw [filled, List.getElem?_append_right (by omega), front, Nat.sub_self,
    List.getElem?_replicate, if_pos (by omega)]

/-- When it is stored, the vector is filled up to the next index. -/
theorem set_filled (f : Nat → α) (blank : α) {n i : Nat} (below : i < n) :
    (filled f blank n i).set i (f i) = filled f blank n (i + 1) := by
  have front : ((List.range i).map f).length = i := by simp
  obtain ⟨more, rest⟩ : ∃ more, n - i = more + 1 := ⟨n - i - 1, by omega⟩
  have fewer : n - (i + 1) = more := by omega
  rw [filled, filled, List.set_append_right _ _ (by omega), front, Nat.sub_self, rest, fewer,
    List.replicate_succ, List.set_cons_zero, List.range_succ, List.map_append, List.append_assoc]
  rfl

end ForLoops
