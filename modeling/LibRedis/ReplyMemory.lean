import LibRedis.Lib.Heap
import LibRedis.RedisProtocol

/-!
# Outputs in memory

A `RedisOutput` owns what it points to: a string, a number, a vector of strings or a vector of
outputs. The setters release what was there and allocate what they are given, and every function here
leaves as many cells as the outputs that it leaves own.
-/

namespace LibRedis

open Heaps

namespace Memory

/-- A pointer; none is NULL. -/
abbrev Pointer := Option Nat

/-- The members of a `RedisOutput`. -/
structure OutputFields where
  /-- `reply_type`. -/
  replyType : ReplyType
  /-- `ptr`. -/
  ptr : Pointer

/-- The members of a `RedisCommand`. -/
structure CommandFields where
  /-- `in.command()`. -/
  command : Command
  /-- `in.args()`. -/
  args : List Bytes
  /-- `out`. -/
  out : OutputFields

/-- What `new` makes. -/
inductive Cell where
  | string (bytes : Bytes)
  | int64 (value : Int)
  | mbulks (elements : List Pointer)
  | smbulks (elements : List Pointer)
  | output (fields : OutputFields)
  | command (fields : CommandFields)

namespace Cell

/-- A `std::string`. -/
def asString : Cell → Option Bytes
  | .string bytes => some bytes
  | _ => none

/-- An `int64_t`. -/
def asInt64 : Cell → Option Int
  | .int64 value => some value
  | _ => none

/-- An `mbulk_t`. -/
def asMbulks : Cell → Option (List Pointer)
  | .mbulks elements => some elements
  | _ => none

/-- An `smbulk_t`. -/
def asSmbulks : Cell → Option (List Pointer)
  | .smbulks elements => some elements
  | _ => none

/-- A `RedisOutput`. -/
def asOutput : Cell → Option OutputFields
  | .output fields => some fields
  | _ => none

/-- A `RedisCommand`. -/
def asCommand : Cell → Option CommandFields
  | .command fields => some fields
  | _ => none

end Cell

/-- A program over these cells. -/
abbrev Mem (α : Type) := Prog Abort Cell α

/-- A part of the memory. -/
abbrev Part := Multiset (Nat × Cell)

/-- `delete` of a string. -/
def deleteString : Pointer → Mem Unit
  | none => pure ()
  | some a => Prog.free a Cell.asString

/-- `delete` of a number. -/
def deleteInt64 : Pointer → Mem Unit
  | none => pure ()
  | some a => Prog.free a Cell.asInt64

/-- `clear_mbulks`, with what becomes of the vector. -/
def clearMbulks : List Pointer → Mem (List Pointer)
  | [] => pure []
  | str :: rest => do
    deleteString str
    clearMbulks rest

/-- `delete_mbulks`. -/
def deleteMbulks : Pointer → Mem Unit
  | none => pure ()
  | some a => do
    let mbulks ← clearMbulks (← Prog.read a Cell.asMbulks)
    Prog.write a Cell.asMbulks (.mbulks mbulks)
    Prog.free a Cell.asMbulks

section Outputs

variable (clear : OutputFields → Mem OutputFields)

/-- `delete` of an output: the destructor clears it. -/
def deleteOutputBy : Pointer → Mem Unit
  | none => pure ()
  | some a => do
    let fields ← clear (← Prog.read a Cell.asOutput)
    Prog.write a Cell.asOutput (.output fields)
    Prog.free a Cell.asOutput

/-- `clear_smbulks`, with what becomes of the vector. -/
def clearSmbulksBy : List Pointer → Mem (List Pointer)
  | [] => pure []
  | output :: rest => do
    deleteOutputBy clear output
    clearSmbulksBy rest

/-- `delete_smbulks`. -/
def deleteSmbulksBy : Pointer → Mem Unit
  | none => pure ()
  | some a => do
    let smbulks ← clearSmbulksBy clear (← Prog.read a Cell.asSmbulks)
    Prog.write a Cell.asSmbulks (.smbulks smbulks)
    Prog.free a Cell.asSmbulks

end Outputs

/-- `RedisOutput::clear`, which clears the outputs of a vector in turn, to some depth. -/
def clearWithin : Nat → OutputFields → Mem OutputFields
  | 0, _ => Prog.lift (.error .diverges)
  | depth + 1, output =>
    match output.replyType with
    | .status | .error | .bulk => do
      deleteString output.ptr
      return { output with ptr := none }
    | .integer => do
      deleteInt64 output.ptr
      return { output with ptr := none }
    | .multiBulk => do
      deleteMbulks output.ptr
      return { output with ptr := none }
    | .specialMultiBulk => do
      deleteSmbulksBy (clearWithin depth) output.ptr
      return { output with ptr := none }
    | .depends | .none => return { output with ptr := none }

/-- `RedisOutput::clear`: no tree is deeper than the memory is large. -/
def clear (output : OutputFields) : Mem OutputFields := do
  clearWithin ((← Prog.size) + 1) output

/-- `delete` of an output. -/
def deleteOutput (output : Pointer) : Mem Unit := deleteOutputBy clear output

/-- `clear_smbulks`. -/
def clearSmbulks (smbulks : List Pointer) : Mem (List Pointer) := clearSmbulksBy clear smbulks

/-- `set_status`. -/
def setStatus (output : OutputFields) (s : Bytes) : Mem OutputFields := do
  let _ ← clear output
  let ptr ← Prog.alloc (.string s)
  return ⟨.status, some ptr⟩

/-- `set_error`. -/
def setError (output : OutputFields) (e : Bytes) : Mem OutputFields := do
  let _ ← clear output
  let ptr ← Prog.alloc (.string e)
  return ⟨.error, some ptr⟩

/-- `set_i`. -/
def setI (output : OutputFields) (i : Int) : Mem OutputFields := do
  let _ ← clear output
  let ptr ← Prog.alloc (.int64 i)
  return ⟨.integer, some ptr⟩

/-- `set_bulk`. -/
def setBulk (output : OutputFields) (b : Bytes) : Mem OutputFields := do
  let _ ← clear output
  let ptr ← Prog.alloc (.string b)
  return ⟨.bulk, some ptr⟩

/-- `set_nil_bulk`. -/
def setNilBulk (output : OutputFields) : Mem OutputFields := do
  let output ← clear output
  return { output with replyType := .bulk }

/-- `set_mbulks`: the elements go over, and the vector that was given is empty behind it. -/
def setMbulks (output : OutputFields) (mb : List Pointer) : Mem OutputFields := do
  let _ ← clear output
  let ptr ← Prog.alloc (.mbulks mb)
  return ⟨.multiBulk, some ptr⟩

/-- `set_nil_mbulks`. -/
def setNilMbulks (output : OutputFields) : Mem OutputFields := do
  let output ← clear output
  return { output with replyType := .multiBulk }

/-- `set_smbulks`: the elements go over, and the vector that was given is empty behind it. -/
def setSmbulks (output : OutputFields) (smbulks : List Pointer) : Mem OutputFields := do
  let _ ← clear output
  let ptr ← Prog.alloc (.smbulks smbulks)
  return ⟨.specialMultiBulk, some ptr⟩

/-- `set_nil_smbulks`. -/
def setNilSmbulks (output : OutputFields) : Mem OutputFields := do
  let output ← clear output
  return { output with replyType := .specialMultiBulk }

/-- A pointer to a string, or NULL for none, and the cells that it owns. -/
inductive StringAt : Option Bytes → Pointer → Part → Prop
  | null : StringAt none none 0
  | string (a : Nat) (bytes : Bytes) : StringAt (some bytes) (some a) {(a, .string bytes)}

/-- The strings of a vector. -/
inductive StringsAt : List (Option Bytes) → List Pointer → Part → Prop
  | nil : StringsAt [] [] 0
  | cons {string : Option Bytes} {ptr : Pointer} {own : Part} {strings : List (Option Bytes)}
      {ptrs : List Pointer} {others : Part} (head : StringAt string ptr own)
      (tail : StringsAt strings ptrs others) :
      StringsAt (string :: strings) (ptr :: ptrs) (own + others)

mutual

/-- The members of an output, and the cells that it owns. -/
inductive OutputAt : RedisOutput → OutputFields → Part → Prop
  | none : OutputAt .none ⟨.none, none⟩ 0
  | status (a : Nat) (text : Bytes) :
      OutputAt (.status text) ⟨.status, some a⟩ {(a, .string text)}
  | error (a : Nat) (text : Bytes) : OutputAt (.error text) ⟨.error, some a⟩ {(a, .string text)}
  | i (a : Nat) (value : Int) : OutputAt (.i value) ⟨.integer, some a⟩ {(a, .int64 value)}
  | bulk (a : Nat) (bytes : Bytes) : OutputAt (.bulk bytes) ⟨.bulk, some a⟩ {(a, .string bytes)}
  | nilBulk : OutputAt .nilBulk ⟨.bulk, none⟩ 0
  | mbulks (a : Nat) {elements : List (Option Bytes)} {ptrs : List Pointer} {part : Part}
      (all : StringsAt elements ptrs part) :
      OutputAt (.mbulks elements) ⟨.multiBulk, some a⟩ ({(a, .mbulks ptrs)} + part)
  | nilMbulks : OutputAt .nilMbulks ⟨.multiBulk, none⟩ 0
  | smbulks (a : Nat) {elements : List RedisOutput} {ptrs : List Pointer} {part : Part}
      (all : OutputsAt elements ptrs part) :
      OutputAt (.smbulks elements) ⟨.specialMultiBulk, some a⟩ ({(a, .smbulks ptrs)} + part)
  | nilSmbulks : OutputAt .nilSmbulks ⟨.specialMultiBulk, none⟩ 0

/-- The outputs of a vector. -/
inductive OutputsAt : List RedisOutput → List Pointer → Part → Prop
  | nil : OutputsAt [] [] 0
  | cons (a : Nat) {output : RedisOutput} {fields : OutputFields} {own : Part}
      {outputs : List RedisOutput} {ptrs : List Pointer} {others : Part}
      (head : OutputAt output fields own) (tail : OutputsAt outputs ptrs others) :
      OutputsAt (output :: outputs) (some a :: ptrs) ({(a, .output fields)} + own + others)

end

open Prog

/-- Nothing is left. -/
def Gone {α : Type} (_ : α) (left : Part) : Prop := left = 0

/-- A string is released. -/
theorem deleteString_runs {string : Option Bytes} {ptr : Pointer} {part : Part}
    (here : StringAt string ptr part) : Runs (deleteString ptr) part Gone := by
  cases here with
  | null => exact runs_pure rfl
  | string a bytes => exact runs_free Cell.asString rfl

/-- So are those of a vector. -/
theorem clearMbulks_runs {strings : List (Option Bytes)} {ptrs : List Pointer} {part : Part}
    (here : StringsAt strings ptrs part) :
    Runs (clearMbulks ptrs) part fun out left => out = [] ∧ left = 0 := by
  induction here with
  | nil => exact runs_pure ⟨rfl, rfl⟩
  | cons head tail ih =>
    refine (deleteString_runs head).andThen fun _ left gone => ?_
    exact ih.of_eq (by rw [show left = 0 from gone, zero_add])

/-- And the vector. -/
theorem deleteMbulks_runs (a : Nat) {strings : List (Option Bytes)} {ptrs : List Pointer}
    {part : Part} (here : StringsAt strings ptrs part) :
    Runs (deleteMbulks (some a)) ({(a, .mbulks ptrs)} + part) Gone := by
  refine (runs_read Cell.asMbulks rfl).andThen ?_
  rintro _ _ ⟨rfl, rfl⟩
  rw [add_comm]
  refine (clearMbulks_runs here).andThen ?_
  rintro _ _ ⟨rfl, rfl⟩
  rw [zero_add]
  refine (runs_write Cell.asMbulks rfl _).bind ?_
  rintro _ _ rfl
  exact runs_free Cell.asMbulks rfl

section Outputs

variable {clears : OutputFields → Mem OutputFields}

/-- An output is released if what it owns is. -/
theorem deleteOutputBy_runs (a : Nat) {fields : OutputFields} {part : Part}
    (here : Runs (clears fields) part Gone) :
    Runs (deleteOutputBy clears (some a)) ({(a, .output fields)} + part) Gone := by
  refine (runs_read Cell.asOutput rfl).andThen ?_
  rintro _ _ ⟨rfl, rfl⟩
  rw [add_comm]
  refine here.andThen fun fields' left gone => ?_
  rw [show left = 0 from gone, zero_add]
  refine (runs_write Cell.asOutput rfl _).bind ?_
  rintro _ _ rfl
  exact runs_free Cell.asOutput rfl

/-- So are the outputs of a vector. -/
theorem clearSmbulksBy_runs {outputs : List RedisOutput} {ptrs : List Pointer} {part : Part}
    (here : OutputsAt outputs ptrs part)
    (each : ∀ output fields own, OutputAt output fields own → own ≤ part →
      Runs (clears fields) own Gone) :
    Runs (clearSmbulksBy clears ptrs) part fun out left => out = [] ∧ left = 0 := by
  induction outputs generalizing ptrs part with
  | nil =>
    cases here
    exact runs_pure ⟨rfl, rfl⟩
  | cons output outputs ih =>
    cases here with
    | @cons a _ fields own _ ptrs others head tail =>
      have inside : own ≤ {(a, Cell.output fields)} + own + others := by
        rw [add_right_comm]
        exact Multiset.le_add_left _ _
      refine (deleteOutputBy_runs a (each output fields own head inside)).andThen
        fun _ left gone => ?_
      rw [show left = 0 from gone, zero_add]
      exact ih tail fun output fields own here within =>
        each output fields own here (within.trans (Multiset.le_add_left _ _))

/-- And the vector. -/
theorem deleteSmbulksBy_runs (a : Nat) {outputs : List RedisOutput} {ptrs : List Pointer}
    {part : Part} (here : OutputsAt outputs ptrs part)
    (each : ∀ output fields own, OutputAt output fields own → own ≤ part →
      Runs (clears fields) own Gone) :
    Runs (deleteSmbulksBy clears (some a)) ({(a, .smbulks ptrs)} + part) Gone := by
  refine (runs_read Cell.asSmbulks rfl).andThen ?_
  rintro _ _ ⟨rfl, rfl⟩
  rw [add_comm]
  refine (clearSmbulksBy_runs here each).andThen ?_
  rintro _ _ ⟨rfl, rfl⟩
  rw [zero_add]
  refine (runs_write Cell.asSmbulks rfl _).bind ?_
  rintro _ _ rfl
  exact runs_free Cell.asSmbulks rfl

end Outputs

/-- An output that is cleared owns nothing, and keeps its type. -/
def Cleared (output : OutputFields) (output' : OutputFields) (left : Part) : Prop :=
  output' = { output with ptr := none } ∧ left = 0

/-- An end of `clear`. -/
theorem cleared_runs {output : OutputFields} {release : Mem Unit} {part : Part}
    (runs : Runs release part Gone) :
    Runs (release >>= fun _ => pure { output with ptr := none }) part (Cleared output) :=
  runs.bind fun _ _ gone => runs_pure ⟨rfl, gone⟩

/-- An output is cleared within the number of cells that it owns. -/
theorem clearWithin_runs {depth : Nat} {value : RedisOutput} {output : OutputFields} {part : Part}
    (here : OutputAt value output part) (deep : Multiset.card part < depth) :
    Runs (clearWithin depth output) part (Cleared output) := by
  induction depth generalizing value output part with
  | zero => exact absurd deep (Nat.not_lt_zero _)
  | succ depth ih =>
    cases here with
    | none => exact runs_pure ⟨rfl, rfl⟩
    | status a text => exact cleared_runs (deleteString_runs (.string a text))
    | error a text => exact cleared_runs (deleteString_runs (.string a text))
    | i a value => exact cleared_runs (runs_free Cell.asInt64 rfl)
    | bulk a bytes => exact cleared_runs (deleteString_runs (.string a bytes))
    | nilBulk => exact cleared_runs (deleteString_runs .null)
    | mbulks a all => exact cleared_runs (deleteMbulks_runs a all)
    | nilMbulks => exact cleared_runs (runs_pure rfl)
    | @smbulks a elements ptrs own all =>
      rw [Multiset.card_add, Multiset.card_singleton] at deep
      refine cleared_runs (deleteSmbulksBy_runs a all fun value fields part here inside => ?_)
      have fewer := Multiset.card_le_card inside
      exact (ih here (by omega)).imp fun _ _ cleared => cleared.2
    | nilSmbulks => exact cleared_runs (runs_pure rfl)

variable {value : RedisOutput} {output : OutputFields} {part : Part}

/-- An output is cleared. -/
theorem clear_runs (here : OutputAt value output part) :
    Runs (clear output) part (Cleared output) := by
  refine runs_size.bind ?_
  rintro size _ ⟨rfl, enough⟩
  exact clearWithin_runs here (Nat.lt_succ_of_le enough)

/-- An output is released. -/
theorem deleteOutput_runs (a : Nat) (here : OutputAt value output part) :
    Runs (deleteOutput (some a)) ({(a, .output output)} + part) Gone :=
  deleteOutputBy_runs a ((clear_runs here).imp fun _ _ cleared => cleared.2)

/-- So are the outputs of a vector. -/
theorem clearSmbulks_runs {outputs : List RedisOutput} {ptrs : List Pointer}
    (here : OutputsAt outputs ptrs part) :
    Runs (clearSmbulks ptrs) part fun out left => out = [] ∧ left = 0 :=
  clearSmbulksBy_runs here fun _ _ _ here _ => (clear_runs here).imp fun _ _ cleared => cleared.2

/-- A setter releases what was there, and allocates one cell for what it is given. -/
theorem set_runs (here : OutputAt value output part) (c : Cell) (fields : Nat → OutputFields)
    (own : Part) {shows : OutputFields → Part → Prop}
    (made : ∀ a, shows (fields a) ({(a, c)} + own)) :
    Runs (clear output >>= fun _ => alloc c >>= fun a => pure (fields a)) (part + own) shows := by
  refine (clear_runs here).andThen ?_
  rintro _ _ ⟨-, rfl⟩
  refine (runs_alloc c).andThen ?_
  rintro a _ rfl
  exact runs_pure (made a)

/-- That may be all of it. -/
theorem setOnly_runs (here : OutputAt value output part) (c : Cell) (fields : Nat → OutputFields)
    {shows : OutputFields → Part → Prop} (made : ∀ a, shows (fields a) {(a, c)}) :
    Runs (clear output >>= fun _ => alloc c >>= fun a => pure (fields a)) part shows := by
  refine (set_runs here c fields 0 fun a => ?_).of_eq (add_zero part).symm
  rw [add_zero]
  exact made a

/-- A setter that allocates nothing leaves nothing. -/
theorem setNil_runs (here : OutputAt value output part) {type : ReplyType} {nil : RedisOutput}
    (made : OutputAt nil ⟨type, none⟩ 0) :
    Runs (clear output >>= fun output => pure { output with replyType := type }) part
      (OutputAt nil) := by
  refine (clear_runs here).bind ?_
  rintro _ _ ⟨rfl, rfl⟩
  exact runs_pure made

/-- `set_status`. -/
theorem setStatus_runs (here : OutputAt value output part) (s : Bytes) :
    Runs (setStatus output s) part (OutputAt (.status s)) :=
  setOnly_runs here (.string s) (fun a => ⟨.status, some a⟩) fun a => .status a s

/-- `set_error`. -/
theorem setError_runs (here : OutputAt value output part) (e : Bytes) :
    Runs (setError output e) part (OutputAt (.error e)) :=
  setOnly_runs here (.string e) (fun a => ⟨.error, some a⟩) fun a => .error a e

/-- `set_i`. -/
theorem setI_runs (here : OutputAt value output part) (i : Int) :
    Runs (setI output i) part (OutputAt (.i i)) :=
  setOnly_runs here (.int64 i) (fun a => ⟨.integer, some a⟩) fun a => .i a i

/-- `set_bulk`. -/
theorem setBulk_runs (here : OutputAt value output part) (b : Bytes) :
    Runs (setBulk output b) part (OutputAt (.bulk b)) :=
  setOnly_runs here (.string b) (fun a => ⟨.bulk, some a⟩) fun a => .bulk a b

/-- `set_nil_bulk`. -/
theorem setNilBulk_runs (here : OutputAt value output part) :
    Runs (setNilBulk output) part (OutputAt .nilBulk) :=
  setNil_runs here .nilBulk

/-- `set_mbulks`. -/
theorem setMbulks_runs (here : OutputAt value output part) {elements : List (Option Bytes)}
    {ptrs : List Pointer} {own : Part} (all : StringsAt elements ptrs own) :
    Runs (setMbulks output ptrs) (part + own) (OutputAt (.mbulks elements)) :=
  set_runs here (.mbulks ptrs) (fun a => ⟨.multiBulk, some a⟩) own fun a => .mbulks a all

/-- `set_nil_mbulks`. -/
theorem setNilMbulks_runs (here : OutputAt value output part) :
    Runs (setNilMbulks output) part (OutputAt .nilMbulks) :=
  setNil_runs here .nilMbulks

/-- `set_smbulks`. -/
theorem setSmbulks_runs (here : OutputAt value output part) {elements : List RedisOutput}
    {ptrs : List Pointer} {own : Part} (all : OutputsAt elements ptrs own) :
    Runs (setSmbulks output ptrs) (part + own) (OutputAt (.smbulks elements)) :=
  set_runs here (.smbulks ptrs) (fun a => ⟨.specialMultiBulk, some a⟩) own fun a => .smbulks a all

/-- `set_nil_smbulks`. -/
theorem setNilSmbulks_runs (here : OutputAt value output part) :
    Runs (setNilSmbulks output) part (OutputAt .nilSmbulks) :=
  setNil_runs here .nilSmbulks

end Memory

end LibRedis
