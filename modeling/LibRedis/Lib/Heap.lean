import Mathlib.Algebra.Order.Group.Multiset
import Mathlib.Data.Multiset.Filter
import Mathlib.Data.Multiset.MapFold
import Mathlib.Tactic.Abel

/-!
# Heaps whose cells have owners

A heap of cells, programs over it, and what a program does to a part of the heap. A part is a
multiset of addresses with their cells: parts are put together by addition, so a program that runs on
a part runs beside any other, which it leaves. Reading, writing or releasing an address that has no
cell is a fault, so a program that runs neither releases a cell twice nor uses one that it has
released; what it has left is all that it has not released.
-/

namespace Heaps

variable {ε C α β : Type}

/-- The cells that are there, by address. No address is used twice. -/
structure Heap (C : Type) where
  /-- The cells. -/
  cells : List (Nat × C)
  /-- The next address. -/
  next : Nat
  /-- The addresses were used. -/
  used : ∀ cell ∈ cells, cell.1 < next
  /-- An address has one cell. -/
  once : (cells.map Prod.fst).Nodup

namespace Heap

/-- The cells as a part. -/
def contents (heap : Heap C) : Multiset (Nat × C) := heap.cells

/-- No cells. -/
def empty : Heap C where
  cells := []
  next := 0
  used := by simp
  once := by simp

/-- The cell at an address. -/
def find (heap : Heap C) (a : Nat) : Option C := heap.cells.lookup a

/-- One more cell. -/
def insert (heap : Heap C) (c : C) : Heap C where
  cells := (heap.next, c) :: heap.cells
  next := heap.next + 1
  used := by
    intro cell member
    rcases List.mem_cons.mp member with rfl | member
    · exact Nat.lt_succ_self _
    · exact Nat.lt_succ_of_lt (heap.used cell member)
  once := by
    refine List.nodup_cons.mpr ⟨fun member => ?_, heap.once⟩
    obtain ⟨cell, there, same⟩ := List.mem_map.mp member
    exact absurd (heap.used cell there) (by omega)

/-- A cell less. -/
def erase (heap : Heap C) (a : Nat) : Heap C where
  cells := heap.cells.filter fun cell => cell.1 ≠ a
  next := heap.next
  used cell member := heap.used cell (List.mem_of_mem_filter member)
  once := heap.once.sublist (List.filter_sublist.map _)

/-- Another content of a cell. -/
def update (heap : Heap C) (a : Nat) (c : C) : Heap C where
  cells := heap.cells.map fun cell => if cell.1 = a then (a, c) else cell
  next := heap.next
  used := by
    intro cell member
    obtain ⟨cell, there, rfl⟩ := List.mem_map.mp member
    split_ifs with same
    · exact same ▸ heap.used cell there
    · exact heap.used cell there
  once := by
    have same : (heap.cells.map fun cell => if cell.1 = a then (a, c) else cell).map Prod.fst =
        heap.cells.map Prod.fst := by
      rw [List.map_map]
      refine List.map_congr_left fun cell _ => ?_
      simp only [Function.comp_apply]
      split_ifs with same
      · exact same.symm
      · rfl
    rw [same]
    exact heap.once

/-- In a list of cells with an address each, a cell is found at its address. -/
theorem lookup_of_mem {cells : List (Nat × C)} (once : (cells.map Prod.fst).Nodup) {a : Nat} {c : C}
    (member : (a, c) ∈ cells) : cells.lookup a = some c := by
  induction cells with
  | nil => cases member
  | cons cell rest ih =>
    obtain ⟨absent, once⟩ := List.nodup_cons.mp once
    rcases List.mem_cons.mp member with same | later
    · rw [← same, List.lookup_cons_self]
    · have other : (a == cell.1) = false := by
        rw [beq_eq_false_iff_ne]
        intro same
        exact absent (List.mem_map.mpr ⟨(a, c), later, same⟩)
      rw [List.lookup_cons, other]
      exact ih once later

variable {heap : Heap C} {a : Nat} {c : C} {rest : Multiset (Nat × C)}

/-- The cell of a part is found. -/
theorem find_of_contents (holds : heap.contents = {(a, c)} + rest) : heap.find a = some c := by
  apply lookup_of_mem heap.once
  rw [← Multiset.mem_coe, show (heap.cells : Multiset (Nat × C)) = _ from holds]
  exact Multiset.mem_add.mpr (Or.inl (Multiset.mem_singleton_self _))

/-- No other part has the address. -/
theorem ne_of_contents (holds : heap.contents = {(a, c)} + rest) {cell : Nat × C}
    (member : cell ∈ rest) : cell.1 ≠ a := by
  have once : (heap.contents.map Prod.fst).Nodup := heap.once
  rw [holds, Multiset.map_add, Multiset.map_singleton] at once
  intro same
  refine Multiset.disjoint_left.mp (Multiset.nodup_add.mp once).2.2 (Multiset.mem_singleton_self a) ?_
  exact Multiset.mem_map.mpr ⟨cell, member, same⟩

/-- The other parts are what is left without the cell. -/
theorem contents_erase (holds : heap.contents = {(a, c)} + rest) :
    (heap.erase a).contents = rest := by
  have filtered : (heap.erase a).contents = heap.contents.filter fun cell => cell.1 ≠ a := rfl
  have first : Multiset.filter (fun cell : Nat × C => cell.1 ≠ a) {(a, c)} = 0 :=
    Multiset.filter_eq_nil.mpr (by simp)
  have others : Multiset.filter (fun cell : Nat × C => cell.1 ≠ a) rest = rest :=
    Multiset.filter_eq_self.mpr fun cell member => ne_of_contents holds member
  rw [filtered, holds, Multiset.filter_add, first, others, zero_add]

/-- They stay where the cell is written. -/
theorem contents_update (holds : heap.contents = {(a, c)} + rest) (c' : C) :
    (heap.update a c').contents = {(a, c')} + rest := by
  have mapped : (heap.update a c').contents =
      heap.contents.map fun cell => if cell.1 = a then (a, c') else cell := rfl
  rw [mapped, holds, Multiset.map_add, Multiset.map_singleton, if_pos rfl]
  have others : rest.map (fun cell => if cell.1 = a then (a, c') else cell) = rest := by
    refine (Multiset.map_congr rfl fun cell member => ?_).trans (Multiset.map_id rest)
    rw [if_neg (ne_of_contents holds member)]
    rfl
  rw [others]

/-- One more cell is one more part. -/
theorem contents_insert (heap : Heap C) (c : C) :
    (heap.insert c).contents = {(heap.next, c)} + heap.contents :=
  rfl

end Heap

/-- How a program ends when it does not return. -/
inductive Fault (ε : Type) where
  /-- An address without a cell of the kind was used. -/
  | dangling
  /-- The program has stopped. -/
  | stops (reason : ε)

/-- A program over a heap. -/
def Prog (ε C α : Type) : Type := Heap C → Except (Fault ε) (α × Heap C)

namespace Prog

instance : Monad (Prog ε C) where
  pure out heap := .ok (out, heap)
  bind prog next heap :=
    match prog heap with
    | .error fault => .error fault
    | .ok (out, heap) => next out heap

/-- `new`. -/
def alloc (c : C) : Prog ε C Nat := fun heap => .ok (heap.next, heap.insert c)

/-- A cell, if it is of a kind. -/
def read (a : Nat) (kind : C → Option α) : Prog ε C α := fun heap =>
  match (heap.find a).bind kind with
  | none => .error .dangling
  | some out => .ok (out, heap)

/-- A cell of a kind is written. -/
def write (a : Nat) (kind : C → Option α) (c : C) : Prog ε C Unit := fun heap =>
  match (heap.find a).bind kind with
  | none => .error .dangling
  | some _ => .ok ((), heap.update a c)

/-- `delete` of a cell of a kind. -/
def free (a : Nat) (kind : C → Option α) : Prog ε C Unit := fun heap =>
  match (heap.find a).bind kind with
  | none => .error .dangling
  | some _ => .ok ((), heap.erase a)

/-- A pointer to nothing was followed. -/
def dangling : Prog ε C α := fun _ => .error .dangling

/-- The number of cells. -/
def size : Prog ε C Nat := fun heap => .ok (heap.cells.length, heap)

/-- A step that does not look at the heap. -/
def lift (result : Except ε α) : Prog ε C α := fun heap =>
  match result with
  | .error reason => .error (.stops reason)
  | .ok out => .ok (out, heap)

/-- On a part of any heap a program returns, and it leaves the rest of the heap. -/
def Runs (prog : Prog ε C α) (part : Multiset (Nat × C)) (shows : α → Multiset (Nat × C) → Prop) :
    Prop :=
  ∀ (heap : Heap C) (rest : Multiset (Nat × C)), heap.contents = part + rest →
    ∃ out heap' left, prog heap = .ok (out, heap') ∧ heap'.contents = left + rest ∧ shows out left

variable {prog : Prog ε C α} {next : α → Prog ε C β} {part more : Multiset (Nat × C)}
  {shows middle : α → Multiset (Nat × C) → Prop} {ends : β → Multiset (Nat × C) → Prop}

/-- Nothing is done. -/
theorem runs_pure {out : α} (here : shows out part) : Runs (pure out : Prog ε C α) part shows :=
  fun heap _ holds => ⟨out, heap, part, rfl, holds, here⟩

/-- What is shown is what is known. -/
theorem Runs.imp (runs : Runs prog part middle)
    (follows : ∀ out left, middle out left → shows out left) : Runs prog part shows := by
  intro heap rest holds
  obtain ⟨out, heap', left, returns, holds', here⟩ := runs heap rest holds
  exact ⟨out, heap', left, returns, holds', follows out left here⟩

/-- A program runs beside another part, and leaves it. -/
theorem Runs.beside (runs : Runs prog part middle) (more : Multiset (Nat × C)) :
    Runs prog (part + more) fun out left => ∃ own, left = own + more ∧ middle out own := by
  intro heap rest holds
  rw [add_assoc] at holds
  obtain ⟨out, heap', left, returns, holds', here⟩ := runs heap _ holds
  rw [← add_assoc] at holds'
  exact ⟨out, heap', left + more, returns, holds', left, rfl, here⟩

/-- Programs one after the other. -/
theorem Runs.bind (first : Runs prog part middle)
    (second : ∀ out left, middle out left → Runs (next out) left ends) :
    Runs (prog >>= next) part ends := by
  intro heap rest holds
  obtain ⟨out, heap₁, left, returns, holds₁, here⟩ := first heap rest holds
  obtain ⟨out', heap₂, left', returns', holds₂, there⟩ := second out left here heap₁ rest holds₁
  refine ⟨out', heap₂, left', ?_, holds₂, there⟩
  simp only [Bind.bind, returns]
  exact returns'

/-- A program on a part, and then another on what it leaves and the other parts. -/
theorem Runs.andThen (first : Runs prog part middle)
    (second : ∀ out left, middle out left → Runs (next out) (left + more) ends) :
    Runs (prog >>= next) (part + more) ends := by
  refine (first.beside more).bind ?_
  rintro out _ ⟨own, rfl, here⟩
  exact second out own here

/-- A part may be written in another way. -/
theorem Runs.of_eq {part' : Multiset (Nat × C)} (same : part' = part) (runs : Runs prog part shows) :
    Runs prog part' shows :=
  same ▸ runs

/-- `new` makes a part. -/
theorem runs_alloc (c : C) :
    Runs (alloc c : Prog ε C Nat) 0 fun a left => left = {(a, c)} := by
  intro heap rest holds
  refine ⟨heap.next, heap.insert c, {(heap.next, c)}, rfl, ?_, rfl⟩
  rw [Heap.contents_insert, holds, zero_add]

variable {a : Nat} {c : C} {content : α}

/-- The cell of a part is read. -/
theorem runs_read (kind : C → Option α) (isKind : kind c = some content) :
    Runs (read a kind : Prog ε C α) {(a, c)} fun out left => out = content ∧ left = {(a, c)} := by
  intro heap rest holds
  refine ⟨content, heap, {(a, c)}, ?_, holds, rfl, rfl⟩
  simp only [read, Heap.find_of_contents holds, Option.bind_some, isKind]

/-- It is written. -/
theorem runs_write (kind : C → Option α) (isKind : kind c = some content) (c' : C) :
    Runs (write a kind c' : Prog ε C Unit) {(a, c)} fun _ left => left = {(a, c')} := by
  intro heap rest holds
  refine ⟨(), heap.update a c', {(a, c')}, ?_, heap.contents_update holds c', rfl⟩
  simp only [write, Heap.find_of_contents holds, Option.bind_some, isKind]

/-- It is released. -/
theorem runs_free (kind : C → Option α) (isKind : kind c = some content) :
    Runs (free a kind : Prog ε C Unit) {(a, c)} fun _ left => left = 0 := by
  intro heap rest holds
  refine ⟨(), heap.erase a, 0, ?_, ?_, rfl⟩
  · simp only [free, Heap.find_of_contents holds, Option.bind_some, isKind]
  · rw [zero_add, Heap.contents_erase holds]

/-- There are as many cells as in a part at least. -/
theorem runs_size : Runs (size : Prog ε C Nat) part fun n left =>
    left = part ∧ Multiset.card part ≤ n := by
  intro heap rest holds
  refine ⟨heap.cells.length, heap, part, rfl, holds, rfl, ?_⟩
  have count := congrArg Multiset.card holds
  rw [Multiset.card_add] at count
  have same : Multiset.card heap.contents = heap.cells.length := Multiset.coe_card _
  omega

/-- A step that does not look at the heap leaves it. -/
theorem runs_lift {result : Except ε α} {out : α} (returns : result = .ok out) :
    Runs (lift result : Prog ε C α) part fun out' left => out' = out ∧ left = part :=
  fun heap _ holds => ⟨out, heap, part, by simp only [lift, returns], holds, rfl, rfl⟩

section Follows

variable {γ δ : Type} {value : Except ε γ} {prog : Prog ε C α} {next : α → Prog ε C β}
  {values : γ → Except ε δ} {part more : Multiset (Nat × C)}
  {middle shows : γ → α → Multiset (Nat × C) → Prop} {ends : δ → β → Multiset (Nat × C) → Prop}

/-- A program on a part does what a computation without a heap does: it stops where that stops, and
where that returns it returns what shows the same. -/
structure Follows (value : Except ε γ) (prog : Prog ε C α) (part : Multiset (Nat × C))
    (shows : γ → α → Multiset (Nat × C) → Prop) : Prop where
  /-- The program returns. -/
  returns : ∀ out, value = .ok out → Runs prog part (shows out)
  /-- It stops, and no address without a cell is used. -/
  stops : ∀ reason, value = .error reason → ∀ (heap : Heap C) (rest : Multiset (Nat × C)),
    heap.contents = part + rest → prog heap = .error (.stops reason)

/-- The computation has returned. -/
theorem Runs.follows {out : γ} (runs : Runs prog part (shows out)) :
    Follows (.ok out) prog part shows where
  returns out' same := by
    cases same
    exact runs
  stops reason same := by cases same

/-- Both return. -/
theorem follows_pure {out : γ} {out' : α} (here : shows out out' part) :
    Follows (.ok out) (pure out' : Prog ε C α) part shows :=
  (runs_pure here).follows

/-- A computation that has stopped is followed by a program that stops. -/
theorem follows_of_stops {reason : ε} (stops : ∀ (heap : Heap C) (rest : Multiset (Nat × C)),
    heap.contents = part + rest → prog heap = .error (.stops reason)) :
    Follows (.error reason) prog part shows where
  returns out same := by cases same
  stops reason' same := by
    cases same
    exact stops

/-- Both stop. -/
theorem follows_stop (reason : ε) :
    Follows (.error reason) (lift (.error reason) : Prog ε C α) part shows :=
  follows_of_stops fun _ _ _ => rfl

/-- A step that does not look at the heap does what it is. -/
theorem follows_lift (result : Except ε α) :
    Follows result (lift result : Prog ε C α) part fun out out' left => out' = out ∧ left = part := by
  cases result with
  | error reason => exact follows_stop reason
  | ok out => exact (runs_lift rfl).follows

/-- A part may be written in another way. -/
theorem Follows.of_eq {part' : Multiset (Nat × C)} (same : part' = part)
    (follows : Follows value prog part shows) : Follows value prog part' shows :=
  same ▸ follows

/-- A step of the program alone. -/
theorem Runs.follow {alone : α → Multiset (Nat × C) → Prop} {value : Except ε δ}
    (first : Runs prog part alone)
    (second : ∀ out left, alone out left → Follows value (next out) left ends) :
    Follows value (prog >>= next) part ends where
  returns out same := first.bind fun out' left here => (second out' left here).returns out same
  stops reason same := by
    intro heap rest holds
    obtain ⟨out, heap', left, returns, holds', here⟩ := first heap rest holds
    simp only [Bind.bind, returns]
    exact (second out left here).stops reason same heap' rest holds'

/-- It may run beside another part. -/
theorem Runs.before {alone : α → Multiset (Nat × C) → Prop} {value : Except ε δ}
    (first : Runs prog part alone)
    (second : ∀ out left, alone out left → Follows value (next out) (left + more) ends) :
    Follows value (prog >>= next) (part + more) ends := by
  refine (first.beside more).follow ?_
  rintro out _ ⟨own, rfl, here⟩
  exact second out own here

/-- One step after the other. -/
theorem Follows.bind (first : Follows value prog part middle)
    (second : ∀ out out' left, middle out out' left → Follows (values out) (next out') left ends) :
    Follows (value >>= values) (prog >>= next) part ends := by
  cases value with
  | error reason =>
    refine follows_of_stops fun heap rest holds => ?_
    simp only [Bind.bind, first.stops reason rfl heap rest holds]
  | ok out => exact (first.returns out rfl).follow (second out)

/-- What comes behind it may be of the program alone. -/
theorem Follows.alone {ends : γ → β → Multiset (Nat × C) → Prop}
    (first : Follows value prog part middle)
    (second : ∀ out out' left, middle out out' left → Runs (next out') left (ends out)) :
    Follows value (prog >>= next) part ends := by
  cases value with
  | error reason =>
    refine follows_of_stops fun heap rest holds => ?_
    simp only [Bind.bind, first.stops reason rfl heap rest holds]
  | ok out => exact ((first.returns out rfl).bind (second out)).follows

/-- A program does so beside another part, and leaves it. -/
theorem Follows.beside (follows : Follows value prog part middle) (more : Multiset (Nat × C)) :
    Follows value prog (part + more) fun out out' left =>
      ∃ own, left = own + more ∧ middle out out' own where
  returns out same := (follows.returns out same).beside more
  stops reason same heap rest holds := by
    rw [add_assoc] at holds
    exact follows.stops reason same heap _ holds

/-- One step after the other, beside another part. -/
theorem Follows.andThen (first : Follows value prog part middle)
    (second : ∀ out out' left, middle out out' left →
      Follows (values out) (next out') (left + more) ends) :
    Follows (value >>= values) (prog >>= next) (part + more) ends := by
  refine (first.beside more).bind ?_
  rintro out out' _ ⟨own, rfl, here⟩
  exact second out out' own here

/-- A step of the computation alone, at the end. -/
theorem Follows.last {shows' : δ → α → Multiset (Nat × C) → Prop}
    (first : Follows value prog part middle)
    (final : ∀ out, ∃ out₂, values out = .ok out₂ ∧
      ∀ out' left, middle out out' left → shows' out₂ out' left) :
    Follows (value >>= values) prog part shows' := by
  cases value with
  | error reason => exact follows_of_stops (first.stops reason rfl)
  | ok out =>
    obtain ⟨out₂, same, here⟩ := final out
    show Follows (values out) prog part shows'
    rw [same]
    exact ((first.returns out rfl).imp here).follows

end Follows

end Prog

end Heaps
