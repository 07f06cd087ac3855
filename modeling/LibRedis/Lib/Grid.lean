import Mathlib.Data.List.Nodup
import Mathlib.Data.List.Perm.Basic
import Mathlib.Tactic.Ring

/-!
# Rows and columns

Numbers below `rows * width`, written line by line into a grid. The column of a number is its
remainder by the width, the row its quotient. A column has each of its numbers once, two columns
have none in common, and all columns together are all the numbers.
-/

namespace Grid

/-- The numbers of a column, from the first row on. -/
def column (rows width c : Nat) : List Nat := (List.range rows).map fun row => c + width * row

/-- A column has so many numbers. -/
@[simp] theorem length_column (rows width c : Nat) : (column rows width c).length = rows := by
  rw [column, List.length_map, List.length_range]

/-- A number is in its column. -/
theorem mem_column {rows width c i : Nat} (inside : c < width) :
    i ∈ column rows width c ↔ i < rows * width ∧ i % width = c := by
  rw [column, List.mem_map]
  constructor
  · rintro ⟨row, member, rfl⟩
    have isRow := List.mem_range.mp member
    refine ⟨?_, ?_⟩
    · calc
        c + width * row < width + width * row := Nat.add_lt_add_right inside _
        _ = (row + 1) * width := by ring
        _ ≤ rows * width := Nat.mul_le_mul_right _ isRow
    · rw [Nat.add_mul_mod_self_left, Nat.mod_eq_of_lt inside]
  · rintro ⟨below, remainder⟩
    refine ⟨i / width, List.mem_range.mpr ?_, ?_⟩
    · apply Nat.div_lt_of_lt_mul
      rw [Nat.mul_comm]
      exact below
    · rw [← remainder, Nat.mod_add_div]

/-- A column has no number twice. -/
theorem column_nodup {rows width : Nat} (positive : 0 < width) (c : Nat) :
    (column rows width c).Nodup := by
  apply List.nodup_range.map
  intro row row' same
  exact Nat.eq_of_mul_eq_mul_left positive (Nat.add_left_cancel same)

/-- Two columns have no number in common. -/
theorem column_disjoint {rows width c c' : Nat} (inside : c < width) (inside' : c' < width)
    (other : c ≠ c') : (column rows width c).Disjoint (column rows width c') := by
  intro i member member'
  have remainder := ((mem_column inside).mp member).2
  have remainder' := ((mem_column inside').mp member').2
  exact other (remainder.symm.trans remainder')

/-- All columns together are all the numbers, each once. -/
theorem columns_perm {width : Nat} (positive : 0 < width) (rows : Nat) :
    (List.range (rows * width)).Perm ((List.range width).flatMap (column rows width)) := by
  have once : ((List.range width).flatMap (column rows width)).Nodup := by
    refine List.nodup_flatMap.mpr ⟨fun c _ => column_nodup positive c, ?_⟩
    refine List.nodup_range.imp_of_mem ?_
    intro c c' member member' other
    exact column_disjoint (List.mem_range.mp member) (List.mem_range.mp member') other
  refine (List.perm_ext_iff_of_nodup List.nodup_range once).mpr ?_
  intro i
  rw [List.mem_range, List.mem_flatMap]
  constructor
  · intro below
    have inside := Nat.mod_lt i positive
    exact ⟨i % width, List.mem_range.mpr inside, (mem_column inside).mpr ⟨below, rfl⟩⟩
  · rintro ⟨c, member, found⟩
    exact ((mem_column (List.mem_range.mp member)).mp found).1

end Grid
