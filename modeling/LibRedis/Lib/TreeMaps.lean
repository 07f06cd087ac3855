import Mathlib.Tactic.Ring

/-!
# Ordered maps from lists of pairs

Pairs are stored in an ordered map one after the other, so that the last value of a key stays, or
added to it, so that the first one does. Both are described by what is looked up afterwards.
-/

namespace TreeMaps

variable {α β : Type} {cmp : α → α → Ordering} [Std.TransCmp cmp]

/-- Pairs stored in a map, one after the other. -/
def store (pairs : List (α × β)) (map : Std.ExtTreeMap α β cmp) : Std.ExtTreeMap α β cmp :=
  pairs.foldl (fun map pair => map.insert pair.1 pair.2) map

/-- Pairs added to a map where it has no value yet. -/
def add (pairs : List (α × β)) (map : Std.ExtTreeMap α β cmp) : Std.ExtTreeMap α β cmp :=
  pairs.foldl (fun map pair => map.insertIfNew pair.1 pair.2) map

variable [Std.LawfulEqCmp cmp] [DecidableEq α]

/-- The last value of a key is found in the map, or else the value that it had. -/
theorem getElem?_store (pairs : List (α × β)) (map : Std.ExtTreeMap α β cmp) (key : α) :
    (store pairs map)[key]? = (pairs.reverse.lookup key).or map[key]? := by
  induction pairs generalizing map with
  | nil => rfl
  | cons pair rest ih =>
    obtain ⟨first, value⟩ := pair
    have stored : (map.insert first value)[key]? = ([(first, value)].lookup key).or map[key]? := by
      by_cases same : key = first
      · subst same
        simp
      · have other : cmp first key ≠ .eq := fun equal =>
          same (Std.LawfulEqCmp.eq_of_compare equal).symm
        have absent : [(first, value)].lookup key = none :=
          List.lookup_eq_none_iff.mpr (by simpa using same)
        simp [Std.ExtTreeMap.getElem?_insert, other, absent]
    change (store rest (map.insert first value))[key]? = _
    rw [ih, stored, List.reverse_cons, List.lookup_append, Option.or_assoc]

/-- The value that a key had is found in the map, or else its first value. -/
theorem getElem?_add (pairs : List (α × β)) (map : Std.ExtTreeMap α β cmp) (key : α) :
    (add pairs map)[key]? = map[key]?.or (pairs.lookup key) := by
  induction pairs generalizing map with
  | nil => exact Option.or_none.symm
  | cons pair rest ih =>
    obtain ⟨first, value⟩ := pair
    have added : (map.insertIfNew first value)[key]? =
        map[key]?.or ([(first, value)].lookup key) := by
      rw [Std.ExtTreeMap.getElem?_insertIfNew]
      by_cases same : key = first
      · subst same
        by_cases held : key ∈ map
        · simp [held]
        · simp [held]
      · have other : cmp first key ≠ .eq := fun equal =>
          same (Std.LawfulEqCmp.eq_of_compare equal).symm
        have absent : [(first, value)].lookup key = none :=
          List.lookup_eq_none_iff.mpr (by simpa using same)
        simp [other, absent]
    change (add rest (map.insertIfNew first value))[key]? = _
    rw [ih, added, Option.or_assoc, ← List.lookup_append]
    rfl

/-- The entries of a map, in any order, have its values. -/
theorem lookup_of_perm {map : Std.ExtTreeMap α β cmp} {entries : List (α × β)}
    (same : entries.Perm map.toList) (key : α) : entries.lookup key = map[key]? := by
  cases found : entries.lookup key with
  | none =>
    rw [List.lookup_eq_none_iff] at found
    cases held : map[key]? with
    | none => rfl
    | some value =>
      have member : (key, value) ∈ map.toList :=
        Std.ExtTreeMap.mem_toList_iff_getElem?_eq_some.mpr held
      have absent := found (key, value) (same.mem_iff.mpr member)
      simp at absent
  | some value =>
    obtain ⟨before, after, split, -⟩ := List.lookup_eq_some_iff.mp found
    have member : (key, value) ∈ entries := by
      rw [split]
      exact List.mem_append_right before List.mem_cons_self
    exact (Std.ExtTreeMap.mem_toList_iff_getElem?_eq_some.mp (same.mem_iff.mp member)).symm

/-- A map is made of its entries. -/
theorem store_toList (map : Std.ExtTreeMap α β cmp) : store map.toList ∅ = map := by
  apply Std.ExtTreeMap.ext_getElem?
  intro key
  rw [getElem?_store, lookup_of_perm (List.reverse_perm map.toList)]
  simp

end TreeMaps
