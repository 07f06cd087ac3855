import Mathlib.Data.List.Nodup
import Mathlib.Data.List.Perm.Basic
import Mathlib.Logic.Function.Basic

/-!
# Tokens in places

What is stored is a list of tokens for each place. `Separate` says that no token is stored twice,
neither in one place nor in two. Moving a token from one place to another keeps this, and so does
a token that appears when it was nowhere.
-/

namespace Places

variable {κ ρ : Type}

/-- No token is stored twice. -/
structure Separate (stored : ρ → List κ) : Prop where
  /-- Not in one place. -/
  once : ∀ place, (stored place).Nodup
  /-- Not in two places. -/
  apart : ∀ (left right : ρ) {token : κ}, token ∈ stored left → token ∈ stored right → left = right

/-- A token is stored somewhere. -/
def Somewhere (stored : ρ → List κ) (token : κ) : Prop := ∃ place, token ∈ stored place

/-- A token appears in a place. -/
structure Appears (stored stored' : ρ → List κ) (token : κ) (place : ρ) : Prop where
  /-- It was nowhere. -/
  fresh : ¬ Somewhere stored token
  /-- It is in the place now. -/
  enters : (stored' place).Perm (token :: stored place)
  /-- The other places stay. -/
  stays : ∀ other, other ≠ place → (stored' other).Perm (stored other)

/-- A token moves from one place to another. -/
structure Moves (stored stored' : ρ → List κ) (token : κ) (source target : ρ) : Prop where
  /-- The places differ. -/
  differ : source ≠ target
  /-- It leaves the one. -/
  leaves : (stored source).Perm (token :: stored' source)
  /-- It enters the other. -/
  enters : (stored' target).Perm (token :: stored target)
  /-- The other places stay. -/
  stays : ∀ other, other ≠ source → other ≠ target → (stored' other).Perm (stored other)

/-- What is in a place behind an appearance was there or has appeared. -/
theorem Appears.mem_iff {stored stored' : ρ → List κ} {token : κ} {place : ρ}
    (appears : Appears stored stored' token place) (other : ρ) (x : κ) :
    x ∈ stored' other ↔ x ∈ stored other ∨ x = token ∧ other = place := by
  by_cases same : other = place
  · subst same
    rw [appears.enters.mem_iff, List.mem_cons, and_iff_left rfl, or_comm]
  · rw [(appears.stays other same).mem_iff, or_iff_left fun both => same both.2]

/-- An appearance keeps tokens separate. -/
theorem Appears.separate {stored stored' : ρ → List κ} {token : κ} {place : ρ}
    (appears : Appears stored stored' token place) (separate : Separate stored) :
    Separate stored' where
  once other := by
    by_cases same : other = place
    · subst same
      rw [appears.enters.nodup_iff, List.nodup_cons]
      exact ⟨fun member => appears.fresh ⟨other, member⟩, separate.once other⟩
    · rw [(appears.stays other same).nodup_iff]
      exact separate.once other
  apart left right x here there := by
    rw [appears.mem_iff] at here there
    rcases here with here | ⟨rfl, rfl⟩
    · rcases there with there | ⟨rfl, rfl⟩
      · exact separate.apart left right here there
      · exact absurd ⟨left, here⟩ appears.fresh
    · rcases there with there | ⟨-, rfl⟩
      · exact absurd ⟨right, there⟩ appears.fresh
      · rfl

/-- Behind an appearance one more token is somewhere. -/
theorem Appears.somewhere {stored stored' : ρ → List κ} {token : κ} {place : ρ}
    (appears : Appears stored stored' token place) (x : κ) :
    Somewhere stored' x ↔ Somewhere stored x ∨ x = token := by
  constructor
  · rintro ⟨other, member⟩
    rcases (appears.mem_iff other x).mp member with before | ⟨same, -⟩
    · exact Or.inl ⟨other, before⟩
    · exact Or.inr same
  · rintro (⟨other, member⟩ | rfl)
    · exact ⟨other, (appears.mem_iff other x).mpr (Or.inl member)⟩
    · exact ⟨place, (appears.mem_iff place x).mpr (Or.inr ⟨rfl, rfl⟩)⟩

/-- Two places that are written change as in a move. -/
theorem Moves.update [DecidableEq ρ] {stored : ρ → List κ} {token : κ} {source target : ρ}
    (differ : source ≠ target) {rest grown : List κ} (leaves : (stored source).Perm (token :: rest))
    (enters : grown.Perm (token :: stored target)) :
    Moves stored (Function.update (Function.update stored source rest) target grown) token source
      target where
  differ := differ
  leaves := by
    rw [Function.update_of_ne differ, Function.update_self]
    exact leaves
  enters := by
    rw [Function.update_self]
    exact enters
  stays other left right := by
    rw [Function.update_of_ne right, Function.update_of_ne left]

/-- So they do in whichever order they are written. -/
theorem Moves.update_comm [DecidableEq ρ] {stored : ρ → List κ} {token : κ} {source target : ρ}
    (differ : source ≠ target) {rest grown : List κ} (leaves : (stored source).Perm (token :: rest))
    (enters : grown.Perm (token :: stored target)) :
    Moves stored (Function.update (Function.update stored target grown) source rest) token source
      target := by
  rw [Function.update_comm differ.symm]
  exact Moves.update differ leaves enters

/-- A place that is written changes as in an appearance. -/
theorem Appears.update [DecidableEq ρ] {stored : ρ → List κ} {token : κ} {place : ρ}
    (fresh : ¬ Somewhere stored token) {grown : List κ}
    (enters : grown.Perm (token :: stored place)) :
    Appears stored (Function.update stored place grown) token place where
  fresh := fresh
  enters := by
    rw [Function.update_self]
    exact enters
  stays other differ := by
    rw [Function.update_of_ne differ]

/-- What is in a place behind a move was there and has not left, or has come. -/
theorem Moves.mem_iff {stored stored' : ρ → List κ} {token : κ} {source target : ρ}
    (moves : Moves stored stored' token source target) (separate : Separate stored) (other : ρ)
    (x : κ) : x ∈ stored' other ↔ (x ∈ stored other ∧ x ≠ token) ∨ x = token ∧ other = target := by
  have left : token ∈ stored source := moves.leaves.mem_iff.mpr List.mem_cons_self
  by_cases leaving : other = source
  · subst leaving
    have once := moves.leaves.nodup_iff.mp (separate.once other)
    rw [moves.leaves.mem_iff, List.mem_cons, or_iff_left fun both => moves.differ both.2]
    constructor
    · intro member
      exact ⟨Or.inr member, fun same => (List.nodup_cons.mp once).1 (same ▸ member)⟩
    · rintro ⟨same | member, other⟩
      · exact absurd same other
      · exact member
  · have elsewhere : token ∉ stored other := fun member =>
      leaving (separate.apart other source member left)
    have differs (member : x ∈ stored other) : x ≠ token := fun same =>
      elsewhere (same ▸ member)
    by_cases entering : other = target
    · subst entering
      rw [moves.enters.mem_iff, List.mem_cons, and_iff_left rfl, or_comm]
      exact or_congr_left (and_iff_left_of_imp differs).symm
    · rw [(moves.stays other leaving entering).mem_iff, or_iff_left fun both => entering both.2]
      exact (and_iff_left_of_imp differs).symm

/-- A move keeps tokens separate. -/
theorem Moves.separate {stored stored' : ρ → List κ} {token : κ} {source target : ρ}
    (moves : Moves stored stored' token source target) (separate : Separate stored) :
    Separate stored' where
  once other := by
    have left : token ∈ stored source := moves.leaves.mem_iff.mpr List.mem_cons_self
    by_cases leaving : other = source
    · subst leaving
      exact (List.nodup_cons.mp (moves.leaves.nodup_iff.mp (separate.once other))).2
    · by_cases entering : other = target
      · subst entering
        rw [moves.enters.nodup_iff, List.nodup_cons]
        exact ⟨fun member => leaving (separate.apart other source member left), separate.once other⟩
      · rw [(moves.stays other leaving entering).nodup_iff]
        exact separate.once other
  apart left right x here there := by
    rw [moves.mem_iff separate] at here there
    rcases here with ⟨here, other⟩ | ⟨rfl, rfl⟩
    · rcases there with ⟨there, -⟩ | ⟨same, -⟩
      · exact separate.apart left right here there
      · exact absurd same other
    · rcases there with ⟨-, other⟩ | ⟨-, rfl⟩
      · exact absurd rfl other
      · rfl

/-- A move loses no token and makes none. -/
theorem Moves.somewhere {stored stored' : ρ → List κ} {token : κ} {source target : ρ}
    (moves : Moves stored stored' token source target) (separate : Separate stored) (x : κ) :
    Somewhere stored' x ↔ Somewhere stored x := by
  constructor
  · rintro ⟨other, member⟩
    rcases (moves.mem_iff separate other x).mp member with ⟨before, -⟩ | ⟨rfl, -⟩
    · exact ⟨other, before⟩
    · exact ⟨source, moves.leaves.mem_iff.mpr List.mem_cons_self⟩
  · rintro ⟨other, member⟩
    by_cases same : x = token
    · exact ⟨target, (moves.mem_iff separate target x).mpr (Or.inr ⟨same, rfl⟩)⟩
    · exact ⟨other, (moves.mem_iff separate other x).mpr (Or.inl ⟨member, same⟩)⟩

end Places
