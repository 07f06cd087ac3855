import Mathlib.Data.List.Basic

/-!
# Scanning a stream

What a reader makes of a stream that may end anywhere. A scan takes a value off the front, stops
behind something that is no value, or refuses the stream; it starves if the stream ends too early
and stalls at a length that it has no room for. Scans are put together with `Scan.bind`.
`Extends` says that what was decided on a stream stays decided when more of the stream arrives:
only a scan that starved can go on. `Finds` says what the part of the stream is that a scan takes,
stops behind or stalls at.
-/

/-- How a scan of a stream of these elements for such a value turns out. -/
inductive Scan (β α : Type) where
  /-- A value is taken, and this is left. -/
  | takes (value : α) (rest : List β)
  /-- Something is taken that is no value, and this is left. -/
  | stops (rest : List β)
  /-- What the stream begins with is refused. -/
  | refuses
  /-- The stream is too short. -/
  | starves
  /-- A length is announced that there is no room for. -/
  | stalls

namespace Scan

variable {β α γ : Type}

/-- One scan, then another on what the first one leaves. -/
def bind (first : Scan β α) (next : α → List β → Scan β γ) : Scan β γ :=
  match first with
  | .takes value rest => next value rest
  | .stops rest => .stops rest
  | .refuses => .refuses
  | .starves => .starves
  | .stalls => .stalls

@[simp] theorem bind_takes (value : α) (rest : List β) (next : α → List β → Scan β γ) :
    (Scan.takes value rest).bind next = next value rest := rfl

@[simp] theorem bind_refuses (next : α → List β → Scan β γ) :
    (Scan.refuses : Scan β α).bind next = .refuses := rfl

@[simp] theorem bind_starves (next : α → List β → Scan β γ) :
    (Scan.starves : Scan β α).bind next = .starves := rfl

@[simp] theorem bind_stalls (next : α → List β → Scan β γ) :
    (Scan.stalls : Scan β α).bind next = .stalls := rfl

/-- Two scans take a value only if both take one. -/
theorem bind_eq_takes {first : Scan β α} {next : α → List β → Scan β γ} {value : γ}
    {rest : List β} (taken : first.bind next = .takes value rest) :
    ∃ middle left, first = .takes middle left ∧ next middle left = .takes value rest := by
  cases first with
  | takes middle left => exact ⟨middle, left, rfl, taken⟩
  | stops | refuses | starves | stalls => cases taken

/-- Two scans stall if the first does or the second does behind it. -/
theorem bind_eq_stalls {first : Scan β α} {next : α → List β → Scan β γ} :
    first.bind next = .stalls ↔
      first = .stalls ∨ ∃ middle left, first = .takes middle left ∧ next middle left = .stalls := by
  cases first with
  | takes middle left =>
    constructor
    · exact fun stalls => Or.inr ⟨middle, left, rfl, stalls⟩
    · rintro (stalls | ⟨_, _, same, stalls⟩)
      · cases stalls
      · cases same
        exact stalls
  | stops | refuses | starves | stalls => simp [bind]

/-- So many values, one after the other. -/
def times (element : List β → Scan β α) : Nat → List β → Scan β (List α)
  | 0, stream => .takes [] stream
  | count + 1, stream =>
    (element stream).bind fun value rest =>
      (times element count rest).bind fun values rest => .takes (value :: values) rest

/-- A scan of a stream, and the scan of the stream with more behind it. -/
inductive Extends (more : List β) : Scan β α → Scan β α → Prop
  /-- What was taken is taken again. -/
  | takes (value : α) (rest : List β) : Extends more (.takes value rest) (.takes value (rest ++ more))
  /-- The scan stops at the same place. -/
  | stops (rest : List β) : Extends more (.stops rest) (.stops (rest ++ more))
  /-- What was refused is refused again. -/
  | refuses : Extends more .refuses .refuses
  /-- What was too short may go on. -/
  | starves (later : Scan β α) : Extends more .starves later
  /-- There is no more room than before. -/
  | stalls : Extends more .stalls .stalls

/-- Scans that are put together extend if each of them does. -/
theorem Extends.bind {more : List β} {first later : Scan β α}
    (firstExtends : Extends more first later) {next next' : α → List β → Scan β γ}
    (nextExtends : ∀ value rest, first = .takes value rest →
      Extends more (next value rest) (next' value (rest ++ more))) :
    Extends more (first.bind next) (later.bind next') := by
  cases firstExtends with
  | takes value rest => exact nextExtends value rest rfl
  | stops rest => exact .stops rest
  | refuses => exact .refuses
  | starves later => exact .starves _
  | stalls => exact .stalls

/-- So many values extend if each of them does. -/
theorem Extends.times {more : List β} {element later : List β → Scan β α}
    (extends_ : ∀ stream, Extends more (element stream) (later (stream ++ more))) (count : Nat)
    (stream : List β) :
    Extends more (Scan.times element count stream) (Scan.times later count (stream ++ more)) := by
  induction count generalizing stream with
  | zero => exact .takes [] stream
  | succ count ih =>
    refine (extends_ stream).bind fun value rest _ => ?_
    exact (ih rest).bind fun values rest _ => .takes _ rest

/-- What a scan finds at the front of a stream: a part that is a value it takes, a part that it
stops behind, or a part that it stalls at. -/
inductive Finds (value : α → List β → Prop) (stop stall : List β → Prop) (stream : List β) :
    Scan β α → Prop
  /-- The part that is taken. -/
  | takes {found : α} {part rest : List β} (eq : stream = part ++ rest) (holds : value found part) :
      Finds value stop stall stream (.takes found rest)
  /-- The part that it stops behind. -/
  | stops {part rest : List β} (eq : stream = part ++ rest) (holds : stop part) :
      Finds value stop stall stream (.stops rest)
  /-- Nothing is said about a stream that is refused. -/
  | refuses : Finds value stop stall stream .refuses
  /-- Nor about one that is too short. -/
  | starves : Finds value stop stall stream .starves
  /-- The part that it stalls at. -/
  | stalls {part rest : List β} (eq : stream = part ++ rest) (holds : stall part) :
      Finds value stop stall stream .stalls

/-- A scan finds what is asked, if more is found. -/
theorem Finds.mono {value value' : α → List β → Prop} {stop stop' stall stall' : List β → Prop}
    {stream : List β} {scan : Scan β α} (finds : Finds value stop stall stream scan)
    (values : ∀ found part, value found part → value' found part)
    (stops : ∀ part, stop part → stop' part) (stalls : ∀ part, stall part → stall' part) :
    Finds value' stop' stall' stream scan := by
  cases finds with
  | takes eq holds => exact .takes eq (values _ _ holds)
  | stops eq holds => exact .stops eq (stops _ holds)
  | refuses => exact .refuses
  | starves => exact .starves
  | stalls eq holds => exact .stalls eq (stalls _ holds)

/-- Two scans find the parts that each of them finds, the second one behind the first. -/
theorem Finds.bind {value : α → List β → Prop} {value' : γ → List β → Prop}
    {stop stop' stall stall' : List β → Prop} {stream : List β} {first : Scan β α}
    {next : α → List β → Scan β γ} (finds : Finds value stop stall stream first)
    (stops : ∀ part, stop part → stop' part) (stalls : ∀ part, stall part → stall' part)
    (goes : ∀ found part rest, value found part →
      Finds (fun found' more => value' found' (part ++ more)) (fun more => stop' (part ++ more))
        (fun more => stall' (part ++ more)) rest (next found rest)) :
    Finds value' stop' stall' stream (first.bind next) := by
  cases finds with
  | @takes found part rest eq holds =>
    have behind := goes found part rest holds
    rw [bind_takes]
    generalize next found rest = result at behind
    cases behind with
    | takes eq' holds' => exact .takes (by rw [eq, eq', List.append_assoc]) holds'
    | stops eq' holds' => exact .stops (by rw [eq, eq', List.append_assoc]) holds'
    | refuses => exact .refuses
    | starves => exact .starves
    | stalls eq' holds' => exact .stalls (by rw [eq, eq', List.append_assoc]) holds'
  | stops eq holds => exact .stops eq (stops _ holds)
  | refuses => exact .refuses
  | starves => exact .starves
  | stalls eq holds => exact .stalls eq (stalls _ holds)

end Scan
