import Mathlib.Data.List.Infix

/-!
# First occurrences of a delimiter

A delimited stream is read piece by piece: each piece ends at the first occurrence of the
delimiter. `Delimited.Splits` says what such a piece is, `Delimited.Absent` that no occurrence
starts in a stretch already searched. A search may stop and go on after more of the stream has
arrived: `Absent.append` says that what was searched stays searched.
-/

namespace Delimited

variable {α : Type}

/-- No occurrence of the delimiter starts before the given position. -/
def Absent (delim stream : List α) (before : Nat) : Prop :=
  ∀ position < before, ¬ delim <+: stream.drop position

/-- The piece before the first occurrence of the delimiter, and what follows that occurrence. -/
structure Splits (delim stream piece rest : List α) : Prop where
  /-- The stream is the piece, the delimiter and the rest. -/
  eq : stream = piece ++ delim ++ rest
  /-- The delimiter does not occur earlier. -/
  first : Absent delim stream piece.length

/-- Nothing has been searched yet. -/
theorem absent_zero (delim stream : List α) : Absent delim stream 0 := by
  intro position below
  exact absurd below (Nat.not_lt_zero position)

/-- One more position without an occurrence extends the searched stretch. -/
theorem Absent.succ {delim stream : List α} {before : Nat} (absent : Absent delim stream before)
    (here : ¬ delim <+: stream.drop before) : Absent delim stream (before + 1) := by
  intro position below
  rcases Nat.lt_succ_iff_lt_or_eq.mp below with earlier | rfl
  · exact absent position earlier
  · exact here

/-- A stretch that was searched stays searched when more of the stream arrives. -/
theorem Absent.append {delim stream : List α} {before : Nat} (absent : Absent delim stream before)
    (inside : before + delim.length ≤ stream.length + 1) (more : List α) :
    Absent delim (stream ++ more) before := by
  intro position below occurs
  apply absent position below
  rw [List.drop_append_of_le_length (by omega)] at occurs
  refine List.prefix_of_prefix_length_le occurs (List.prefix_append _ more) ?_
  rw [List.length_drop]
  omega

/-- The first occurrence stays the first when more of the stream arrives. -/
theorem Splits.append {delim stream piece rest : List α} (splits : Splits delim stream piece rest)
    (more : List α) : Splits delim (stream ++ more) piece (rest ++ more) where
  eq := by rw [splits.eq]; simp
  first := by
    apply splits.first.append
    rw [splits.eq]
    simp only [List.length_append]
    omega

/-- The delimiter occurs at the end of the piece. -/
theorem Splits.occurs {delim stream piece rest : List α} (splits : Splits delim stream piece rest) :
    delim <+: stream.drop piece.length := by
  rw [splits.eq, List.append_assoc, List.drop_left]
  exact List.prefix_append delim rest

/-- The delimiter does not occur inside the piece. -/
theorem Splits.clean {delim stream piece rest : List α} (splits : Splits delim stream piece rest)
    (some : delim ≠ []) : ¬ delim <:+: piece := by
  rintro ⟨before, after, rfl⟩
  have positive := List.length_pos_iff.mpr some
  refine splits.first before.length (by simp only [List.length_append]; omega) ?_
  rw [splits.eq]
  simp

/-- An occurrence at the first unsearched position splits the stream there. -/
theorem Absent.splits {delim stream : List α} {before : Nat} (absent : Absent delim stream before)
    (occurs : delim <+: stream.drop before) (inside : before ≤ stream.length) :
    Splits delim stream (stream.take before) (stream.drop (before + delim.length)) where
  eq := by
    obtain ⟨rest, shape⟩ := occurs
    have tail : stream.drop (before + delim.length) = rest := by
      rw [← List.drop_drop, ← shape, List.drop_left]
    rw [tail, List.append_assoc, shape, List.take_append_drop]
  first := by rwa [List.length_take, Nat.min_eq_left inside]

/-- A stream splits in one way only. -/
theorem Splits.unique {delim stream piece piece' rest rest' : List α}
    (left : Splits delim stream piece rest) (right : Splits delim stream piece' rest') :
    piece = piece' ∧ rest = rest' := by
  have notShorter : ¬ piece.length < piece'.length := fun below =>
    right.first _ below left.occurs
  have notLonger : ¬ piece'.length < piece.length := fun below =>
    left.first _ below right.occurs
  have shapes := left.eq.symm.trans right.eq
  rw [List.append_assoc, List.append_assoc] at shapes
  obtain ⟨samePiece, tails⟩ := List.append_inj shapes (by omega)
  exact ⟨samePiece, List.append_cancel_left tails⟩

/-- For a delimiter of two different elements, a piece without the delimiter inside is read back
from in front of it: no occurrence can straddle the end of the piece. -/
theorem splits_pair {first second : α} (differ : first ≠ second) {piece : List α}
    (clean : ¬ [first, second] <:+: piece) (rest : List α) :
    Splits [first, second] (piece ++ [first, second] ++ rest) piece rest where
  eq := rfl
  first := by
    intro position below occurs
    rw [List.append_assoc, List.drop_append_of_le_length (by omega)] at occurs
    have size : (piece.drop position).length = piece.length - position := List.length_drop
    match shape : piece.drop position, occurs with
    | [], _ => simp [shape] at size; omega
    | [only], ⟨tail, same⟩ =>
      simp only [List.cons_append, List.nil_append, List.cons.injEq] at same
      exact differ same.2.1.symm
    | one :: two :: tail, occurs =>
      apply clean
      obtain ⟨rfl, rfl⟩ : first = one ∧ second = two := by simpa using occurs
      exact List.IsInfix.trans ⟨[], tail, by simp⟩ (shape ▸ (List.drop_suffix position piece).isInfix)

/-- The piece before the first occurrence of the delimiter and what follows that occurrence, if the
delimiter occurs. -/
def split [BEq α] (delim : List α) : List α → Option (List α × List α)
  | [] => if delim.isEmpty then some ([], []) else none
  | first :: stream =>
    if delim.isPrefixOf (first :: stream) then some ([], (first :: stream).drop delim.length)
    else (split delim stream).map fun (piece, rest) => (first :: piece, rest)

/-- One element further, the first occurrence is one element further if it is not here. -/
theorem splits_cons {delim stream piece rest : List α} {first : α}
    (here : ¬ delim <+: first :: stream) :
    Splits delim (first :: stream) (first :: piece) rest ↔ Splits delim stream piece rest := by
  constructor
  · intro splits
    refine ⟨List.tail_eq_of_cons_eq splits.eq, fun position below => ?_⟩
    exact splits.first (position + 1) (by rw [List.length_cons]; omega)
  · intro splits
    refine ⟨by rw [splits.eq]; rfl, fun position below => ?_⟩
    cases position with
    | zero => exact here
    | succ position => exact splits.first position (by rw [List.length_cons] at below; omega)

/-- The computed split is the split at the first occurrence. -/
theorem split_eq_some [BEq α] [LawfulBEq α] {delim : List α} (stream piece rest : List α) :
    split delim stream = some (piece, rest) ↔ Splits delim stream piece rest := by
  have start {stream : List α} (here : delim <+: stream) (piece rest : List α) :
      ([] = piece ∧ stream.drop delim.length = rest) ↔ Splits delim stream piece rest := by
    have splits := (absent_zero delim stream).splits here (Nat.zero_le _)
    rw [List.take_zero, Nat.zero_add] at splits
    constructor
    · rintro ⟨rfl, rfl⟩
      exact splits
    · exact fun other => splits.unique other
  induction stream generalizing piece with
  | nil =>
    rw [split]
    split
    · rename_i empty
      have none : delim = [] := List.isEmpty_iff.mp empty
      have here : delim <+: ([] : List α) := none ▸ List.nil_prefix
      rw [← start here, List.drop_nil]
      simp
    · rename_i some
      refine iff_of_false (by simp) fun splits => ?_
      have whole := List.append_eq_nil_iff.mp splits.eq.symm
      exact some (List.isEmpty_iff.mpr (List.append_eq_nil_iff.mp whole.1).2)
  | cons first stream ih =>
    rw [split]
    split
    · rename_i here
      rw [← start (List.isPrefixOf_iff_prefix.mp here)]
      simp
    · rename_i elsewhere
      have here : ¬ delim <+: first :: stream :=
        fun occurs => elsewhere (List.isPrefixOf_iff_prefix.mpr occurs)
      rw [Option.map_eq_some_iff]
      constructor
      · rintro ⟨⟨others, left⟩, found, same⟩
        obtain ⟨rfl, rfl⟩ := Prod.mk.inj same
        exact (splits_cons here).mpr ((ih others).mp found)
      · intro splits
        cases piece with
        | nil => exact absurd (by simpa using splits.occurs) here
        | cons byte others =>
          obtain rfl : first = byte := (List.cons.inj splits.eq).1
          exact ⟨(others, rest), (ih others).mpr ((splits_cons here).mp splits), rfl⟩

end Delimited
