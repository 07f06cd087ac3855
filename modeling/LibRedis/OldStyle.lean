import LibRedis.RedisMethods
import Mathlib.Tactic.Ring

/-!
# The old style interface

Eleven overloads of `RedisBase2` are kept for old callers. Each makes one call of the interface
below it and says how it went by a truth value or by the numbers -1, 0 and 1. An overload reports
what the call has returned unless it is `keys` and the call fails, or a number does not fit, or
`hgetall` meets a null pointer.
-/

namespace LibRedis

open Decimal (ascii)

/-- `string_map_t`. Its iterators go through it in the order of the keys. -/
abbrev StringMap := Std.ExtTreeMap Bytes Bytes

/-- `convert` of bulks to strings, which clears the target and leaves out the null pointers. -/
def convert (mbulks : Mbulk) : List Bytes := mbulks.reduceOption

/-- `static_cast<int>`. -/
def castInt (value : Int) : Int := Int.bmod value (2 ^ 32)

/-- `RedisBase2` with the `last_error` that keeps a text. -/
class KeepsError (κ : Type) extends RedisBase2 κ where
  keepError : κ → Bytes → κ

instance {π : Type} [Peer π] [Doubles] : KeepsError (Redis2 π) where
  keepError := Redis2.lastError

namespace OldStyle

variable {κ : Type} [KeepsError κ]

/-- What an overload makes of what the call below it returns. -/
def adapt {α β ρ : Type} (below : Answer κ α) (result : Option α → Except Abort (ρ × β)) :
    Except Abort (ρ × β × κ) := do
  let (out, client) ← below
  let (returned, container) ← result out
  return (returned, container, client)

/-- The results of `get` and `hget`. -/
def bulkResult (value : Bytes) : Option (Option Bytes) → Except Abort (Int × Bytes)
  | some (some bytes) => .ok (1, bytes)
  | some none => .ok (0, value)
  | none => .ok (-1, value)

/-- The results of `expire`, `expireat` and `hdel`. -/
def numberResult : Option Int → Except Abort (Int × Unit)
  | some value => .ok (castInt value, ())
  | none => .ok (-1, ())

/-- The results of `hset` and `hmset`. -/
def boolResult {α : Type} (out : Option α) : Except Abort (Bool × Unit) := .ok (out.isSome, ())

/-- The check that the container is there. -/
def checkPointer {β : Type} (client : κ) (container : Option β)
    (rest : β → Except Abort (Bool × Option β × κ)) : Except Abort (Bool × Option β × κ) :=
  match container with
  | none => .ok (false, none, KeepsError.keepError client (ascii "EINVAL"))
  | some held => rest held

/-- Loop of `hgetall`, which adds one field and its value after the other. -/
def addEach {β : Type} (add : β → Bytes → Bytes → β) : Mbulk → β → Except Abort β
  | some field :: some value :: rest, held => addEach add rest (add held field value)
  | _ :: _ :: _, _ => .error .assertion
  | _, held => .ok held

/-- The results of `hgetall`. -/
def addResult {β : Type} (add : β → Bytes → Bytes → β) (held : β) :
    Option Mbulk → Except Abort (Bool × Option β)
  | some mb => do return (true, some (← addEach add mb held))
  | none => .ok (false, some held)

/-- `get`: 1, or 0 if the value is nil, or -1. -/
def get (client : κ) (key value : Bytes) : Except Abort (Int × Bytes × κ) :=
  adapt (RedisBase2.call client key .get) (bulkResult value)

/-- `expire`: 1, or 0 if there is no such key, or -1. -/
def expire (client : κ) (key : Bytes) (seconds : Int64) : Except Abort (Int × Unit × κ) :=
  adapt (RedisBase2.call client key (.expire seconds)) numberResult

/-- `expireat`. -/
def expireat (client : κ) (key : Bytes) (absSeconds : Int64) : Except Abort (Int × Unit × κ) :=
  adapt (RedisBase2.call client key (.expireat absSeconds)) numberResult

/-- `keys`. It returns true whatever the call below it returns. -/
def keys (client : κ) (pattern : Bytes) (container : Option (List Bytes)) :
    Except Abort (Bool × Option (List Bytes) × κ) :=
  checkPointer client container fun held =>
    adapt (RedisBase2.keys client pattern) fun out => .ok (true, some ((out.map convert).getD held))

/-- `hget`: 1, or 0 if the value is nil, or -1. -/
def hget (client : κ) (key field value : Bytes) : Except Abort (Int × Bytes × κ) :=
  adapt (RedisBase2.call client key (.hget field)) (bulkResult value)

/-- `hset`. -/
def hset (client : κ) (key field value : Bytes) : Except Abort (Bool × Unit × κ) :=
  adapt (RedisBase2.call client key (.hset field value)) boolResult

/-- `hdel`: 1, or 0 if there is no such field, or -1. -/
def hdel (client : κ) (key field : Bytes) : Except Abort (Int × Unit × κ) :=
  adapt (RedisBase2.call client key (.hdel field)) numberResult

/-- `hgetall` into a vector of pairs, which it appends to. -/
def hgetallPairs (client : κ) (key : Bytes) (container : Option (List (Bytes × Bytes))) :
    Except Abort (Bool × Option (List (Bytes × Bytes)) × κ) :=
  checkPointer client container fun held => adapt (RedisBase2.call client key .hgetall)
    (addResult (fun pairs field value => pairs ++ [(field, value)]) held)

/-- `hgetall` into a map. A field that is there keeps its value. -/
def hgetallMap (client : κ) (key : Bytes) (container : Option StringMap) :
    Except Abort (Bool × Option StringMap × κ) :=
  checkPointer client container fun held => adapt (RedisBase2.call client key .hgetall)
    (addResult (fun map field value => map.insertIfNew field value) held)

/-- `hmset` from a vector of pairs. -/
def hmsetPairs (client : κ) (key : Bytes) (fieldsAndValues : List (Bytes × Bytes)) :
    Except Abort (Bool × Unit × κ) :=
  let fields := fieldsAndValues.map Prod.fst
  let values := fieldsAndValues.map Prod.snd
  adapt (RedisBase2.call client key (.hmset fields values)) boolResult

/-- `hmset` from a map. -/
def hmsetMap (client : κ) (key : Bytes) (fieldsAndValues : StringMap) :
    Except Abort (Bool × Unit × κ) :=
  hmsetPairs client key fieldsAndValues.toList

end OldStyle

/-- The old style overloads, by the outputs of the call below, the output of the caller, and what is
returned. A container of the caller is none if its pointer is null. -/
inductive OldCall : Type → Type → Type → Type
  | get : OldCall (Option Bytes) Bytes Int
  | expire (seconds : Int64) : OldCall Int Unit Int
  | expireat (absSeconds : Int64) : OldCall Int Unit Int
  | keys : OldCall Mbulk (Option (List Bytes)) Bool
  | hget (field : Bytes) : OldCall (Option Bytes) Bytes Int
  | hset (field value : Bytes) : OldCall Int Unit Bool
  | hdel (field : Bytes) : OldCall Int Unit Int
  /-- `hgetall` into a vector of pairs. -/
  | hgetallPairs : OldCall Mbulk (Option (List (Bytes × Bytes))) Bool
  /-- `hgetall` into a map. -/
  | hgetallMap : OldCall Mbulk (Option StringMap) Bool
  /-- `hmset` from a vector of pairs. -/
  | hmsetPairs (fieldsAndValues : List (Bytes × Bytes)) : OldCall Unit Unit Bool
  /-- `hmset` from a map. -/
  | hmsetMap (fieldsAndValues : StringMap) : OldCall Unit Unit Bool

namespace OldCall

/-- The call below an overload. -/
def below {κ α β ρ : Type} [KeepsError κ] (client : κ) (key : Bytes) : OldCall α β ρ → Answer κ α
  | .get => RedisBase2.call client key .get
  | .expire seconds => RedisBase2.call client key (.expire seconds)
  | .expireat absSeconds => RedisBase2.call client key (.expireat absSeconds)
  | .keys => RedisBase2.keys client key
  | .hget field => RedisBase2.call client key (.hget field)
  | .hset field value => RedisBase2.call client key (.hset field value)
  | .hdel field => RedisBase2.call client key (.hdel field)
  | .hgetallPairs => RedisBase2.call client key .hgetall
  | .hgetallMap => RedisBase2.call client key .hgetall
  | .hmsetPairs pairs =>
    RedisBase2.call client key (.hmset (pairs.map Prod.fst) (pairs.map Prod.snd))
  | .hmsetMap map =>
    RedisBase2.call client key (.hmset (map.toList.map Prod.fst) (map.toList.map Prod.snd))

/-- What an overload returns and leaves. -/
def perform {κ α β ρ : Type} [KeepsError κ] (client : κ) (key : Bytes) (container : β) :
    OldCall α β ρ → Except Abort (ρ × β × κ)
  | .get => OldStyle.get client key container
  | .expire seconds => OldStyle.expire client key seconds
  | .expireat absSeconds => OldStyle.expireat client key absSeconds
  | .keys => OldStyle.keys client key container
  | .hget field => OldStyle.hget client key field container
  | .hset field value => OldStyle.hset client key field value
  | .hdel field => OldStyle.hdel client key field
  | .hgetallPairs => OldStyle.hgetallPairs client key container
  | .hgetallMap => OldStyle.hgetallMap client key container
  | .hmsetPairs pairs => OldStyle.hmsetPairs client key pairs
  | .hmsetMap map => OldStyle.hmsetMap client key map

/-- Whether an overload reports a success by what it returns. -/
def success {α β ρ : Type} : OldCall α β ρ → ρ → Bool
  | .get, result | .hget _, result => 0 ≤ result
  | .expire _, result | .expireat _, result | .hdel _, result => 0 ≤ result
  | .keys, result | .hset _ _, result => result
  | .hgetallPairs, result | .hgetallMap, result => result
  | .hmsetPairs _, result | .hmsetMap _, result => result

/-- Whether an overload makes the call below it. -/
def isCalled {α β ρ : Type} : OldCall α β ρ → β → Bool
  | .keys, container => container.isSome
  | .hgetallPairs, container => container.isSome
  | .hgetallMap, container => container.isSome
  | _, _ => true

/-- When an overload can report the outcome of the call below it. -/
def Fits {α β ρ : Type} : OldCall α β ρ → β → Option α → Prop
  -- true is returned for failures as well
  | .keys, container, out => container.isSome → out.isSome
  -- the number is cut down to an `int`
  | .expire _, _, out | .expireat _, _, out | .hdel _, _, out =>
    ∀ value, out = some value → value % 2 ^ 32 < 2 ^ 31
  -- the pairs must be there
  | .hgetallPairs, container, out =>
    container.isSome → ∀ mb, out = some mb → none ∉ mb.take (mb.length / 2 * 2)
  | .hgetallMap, container, out =>
    container.isSome → ∀ mb, out = some mb → none ∉ mb.take (mb.length / 2 * 2)
  | _, _, _ => True

/-- An overload reports a success exactly if the call below it has returned true, and else leaves
the container of the caller. -/
def Reports {κ α β ρ : Type} [KeepsError κ] (call : OldCall α β ρ) (client : κ) (key : Bytes)
    (container : β) (out : Option α) : Prop :=
  ∃ result container' client',
    call.perform client key container = .ok (result, container', client') ∧
    (call.success result = true ↔ call.isCalled container = true ∧ out.isSome = true) ∧
    (call.success result = false → container' = container)

end OldCall

/-- An `int` is negative if the upper half of its values is reached. -/
theorem castInt_nonneg_iff (value : Int) : 0 ≤ castInt value ↔ value % 2 ^ 32 < 2 ^ 31 := by
  rw [castInt, Int.bmod_def]
  split_ifs <;> omega

namespace OldStyle

/-- What an overload makes of an outcome. -/
theorem adapt_eq {κ α β ρ : Type} {below : Answer κ α} {out : Option α} {client' : κ}
    (returns : below = .ok (out, client')) (result : Option α → Except Abort (ρ × β)) :
    adapt below result =
      (result out).map fun returned => (returned.1, returned.2, client') := by
  rw [adapt, returns]
  change (result out >>= fun returned => pure (returned.1, returned.2, client')) = _
  cases result out with
  | error abort => rfl
  | ok returned => rfl

/-- What an overload with a container makes of an outcome. -/
theorem checkPointer_adapt {κ α β : Type} [KeepsError κ] {client : κ} {below : Answer κ α}
    {out : Option α} {client' : κ} (returns : below = .ok (out, client')) (container : Option β)
    (result : β → Option α → Except Abort (Bool × Option β)) :
    (checkPointer client container fun held => adapt below (result held)) =
      checkPointer client container fun held => (result held out).map fun returned =>
        (returned.1, returned.2, client') := by
  cases container with
  | none => rfl
  | some held => exact adapt_eq returns (result held)

/-- The first pair of bulks, and those behind it. -/
theorem take_pairs (first second : Option Bytes) (rest : Mbulk) :
    (first :: second :: rest).take ((first :: second :: rest).length / 2 * 2) =
      first :: second :: rest.take (rest.length / 2 * 2) := by
  have length : (first :: second :: rest).length / 2 * 2 = rest.length / 2 * 2 + 1 + 1 := by
    rw [List.length_cons, List.length_cons]
    omega
  rw [length, List.take_succ_cons, List.take_succ_cons]

/-- The loop of `hgetall` comes to its end if no field and no value is a null pointer. -/
theorem addEach_returns_iff {β : Type} (add : β → Bytes → Bytes → β) (mb : Mbulk) (held : β) :
    (∃ held', addEach add mb held = .ok held') ↔ none ∉ mb.take (mb.length / 2 * 2) := by
  induction mb, held using addEach.induct add with
  | case1 field value rest held ih =>
    rw [addEach, ih, take_pairs]
    simp
  | case2 first second rest held missing =>
    have stops : addEach add (first :: second :: rest) held = .error .assertion := by
      rw [addEach]
      exact missing
    rw [stops, take_pairs]
    constructor
    · rintro ⟨held', wrong⟩
      cases wrong
    · intro whole
      simp only [List.mem_cons, not_or] at whole
      obtain ⟨field, isField⟩ := Option.ne_none_iff_exists'.mp (Ne.symm whole.1)
      obtain ⟨value, isValue⟩ := Option.ne_none_iff_exists'.mp (Ne.symm whole.2.1)
      exact absurd isValue (missing field value isField)
  | case3 rest held few more =>
    have ends : addEach add rest held = .ok held := by
      rw [addEach]
      · exact few
      · exact more
    have short : rest.length / 2 * 2 = 0 := by
      cases rest with
      | nil => rfl
      | cons first rest =>
        cases rest with
        | nil => simp
        | cons second rest => exact absurd rfl (more first second rest)
    rw [ends, short, List.take_zero]
    constructor
    · intro _
      exact List.not_mem_nil
    · intro _
      exact ⟨held, rfl⟩

end OldStyle

namespace OldCall

variable {κ α β ρ : Type} [KeepsError κ]

/-- What it takes where an overload returns. -/
theorem reports_of_performs {call : OldCall α β ρ} {client : κ} {key : Bytes} {container : β}
    {out : Option α} {result : ρ} {container' : β} {client' : κ}
    (performs : call.perform client key container = .ok (result, container', client')) :
    call.Reports client key container out ↔
      (call.success result = true ↔ call.isCalled container = true ∧ out.isSome = true) ∧
        (call.success result = false → container' = container) := by
  constructor
  · rintro ⟨result₁, container₁, client₁, performs₁, reports⟩
    cases performs.symm.trans performs₁
    exact reports
  · intro reports
    exact ⟨result, container', client', performs, reports⟩

/-- `get` and `hget`. -/
theorem bulk_reports {call : OldCall (Option Bytes) Bytes Int} {client client' : κ}
    {key container : Bytes} {out : Option (Option Bytes)}
    (performs : call.perform client key container =
      (OldStyle.bulkResult container out).map fun returned => (returned.1, returned.2, client'))
    (success : ∀ result, call.success result = decide (0 ≤ result))
    (called : call.isCalled container = true) : call.Reports client key container out := by
  cases out with
  | none =>
    rw [reports_of_performs performs, success, called]
    simp
  | some outputs =>
    cases outputs with
    | none =>
      rw [reports_of_performs performs, success, called]
      simp
    | some bytes =>
      rw [reports_of_performs performs, success, called]
      simp

/-- `expire`, `expireat` and `hdel`. -/
theorem number_reports {call : OldCall Int Unit Int} {client client' : κ} {key : Bytes}
    {out : Option Int}
    (performs : call.perform client key () =
      (OldStyle.numberResult out).map fun returned => (returned.1, returned.2, client'))
    (success : ∀ result, call.success result = decide (0 ≤ result))
    (called : call.isCalled () = true) :
    call.Reports client key () out ↔ ∀ value, out = some value → value % 2 ^ 32 < 2 ^ 31 := by
  cases out with
  | none =>
    rw [reports_of_performs performs, success, called]
    simp
  | some value =>
    have cast := castInt_nonneg_iff value
    rw [reports_of_performs performs, success, called]
    simpa using cast

/-- `hset` and `hmset`. -/
theorem bool_reports {call : OldCall α Unit Bool} {client client' : κ} {key : Bytes}
    {out : Option α}
    (performs : call.perform client key () =
      (OldStyle.boolResult out).map fun returned => (returned.1, returned.2, client'))
    (success : ∀ result, call.success result = result)
    (called : call.isCalled () = true) : call.Reports client key () out := by
  rw [reports_of_performs performs, success, called]
  simp

/-- `hgetall`, whatever is done with a field and its value. -/
theorem hgetall_reports {call : OldCall Mbulk (Option β) Bool} {client client' : κ} {key : Bytes}
    {container : Option β} {out : Option Mbulk} (add : β → Bytes → Bytes → β)
    (performs : call.perform client key container = OldStyle.checkPointer client container
      fun held => (OldStyle.addResult add held out).map fun returned =>
        (returned.1, returned.2, client'))
    (success : ∀ result, call.success result = result)
    (called : call.isCalled container = container.isSome) :
    call.Reports client key container out ↔
      (container.isSome → ∀ mb, out = some mb → none ∉ mb.take (mb.length / 2 * 2)) := by
  cases container with
  | none =>
    rw [reports_of_performs performs, success, called]
    simp
  | some held =>
    cases out with
    | none =>
      rw [reports_of_performs performs, success, called]
      simp
    | some mb =>
      have ends := OldStyle.addEach_returns_iff add mb held
      cases adds : OldStyle.addEach add mb held with
      | error abort =>
        have performs : call.perform client key (some held) = .error abort := by
          rw [performs]
          change (OldStyle.addResult add held (some mb)).map _ = _
          rw [OldStyle.addResult, adds]
          rfl
        constructor
        · rintro ⟨result, container', client₁, performs₁, -⟩
          cases performs.symm.trans performs₁
        · intro fits
          obtain ⟨held', wrong⟩ := ends.mpr (fits rfl mb rfl)
          cases adds.symm.trans wrong
      | ok held' =>
        have performs : call.perform client key (some held) = .ok (true, some held', client') := by
          rw [performs]
          change (OldStyle.addResult add held (some mb)).map _ = _
          rw [OldStyle.addResult, adds]
          rfl
        have whole := ends.mp ⟨held', adds⟩
        rw [reports_of_performs performs, success, called]
        simpa using whole

/-- `keys`. -/
theorem keys_reports {client client' : κ} {key : Bytes} {container : Option (List Bytes)}
    {out : Option Mbulk} (returns : RedisBase2.keys client key = .ok (out, client')) :
    OldCall.keys.Reports client key container out ↔ (container.isSome → out.isSome) := by
  cases container with
  | none =>
    have performs : OldCall.keys.perform client key none =
        .ok (false, none, KeepsError.keepError client (ascii "EINVAL")) := rfl
    rw [reports_of_performs performs]
    simp [success, isCalled]
  | some held =>
    have performs : OldCall.keys.perform client key (some held) =
        .ok (true, some ((out.map convert).getD held), client') := by
      rw [perform, OldStyle.keys, OldStyle.checkPointer, OldStyle.adapt_eq returns]
      rfl
    rw [reports_of_performs performs]
    simp [success, isCalled]

/-- For every implementation, every overload, every argument and every outcome of the call below it:
the overload reports this outcome if and only if it fits. -/
theorem reports_iff {call : OldCall α β ρ} {client client' : κ} {key : Bytes} (container : β)
    {out : Option α} (returns : call.below client key = .ok (out, client')) :
    call.Reports client key container out ↔ call.Fits container out := by
  cases call with
  | get => exact iff_of_true (bulk_reports (OldStyle.adapt_eq returns _) (fun _ => rfl) rfl) trivial
  | expire seconds => exact number_reports (OldStyle.adapt_eq returns _) (fun _ => rfl) rfl
  | expireat absSeconds => exact number_reports (OldStyle.adapt_eq returns _) (fun _ => rfl) rfl
  | keys => exact keys_reports returns
  | hget field =>
    exact iff_of_true (bulk_reports (OldStyle.adapt_eq returns _) (fun _ => rfl) rfl) trivial
  | hset field value =>
    exact iff_of_true (bool_reports (OldStyle.adapt_eq returns _) (fun _ => rfl) rfl) trivial
  | hdel field => exact number_reports (OldStyle.adapt_eq returns _) (fun _ => rfl) rfl
  | hgetallPairs =>
    exact hgetall_reports (fun pairs field value => pairs ++ [(field, value)])
      (OldStyle.checkPointer_adapt returns container _) (fun _ => rfl) rfl
  | hgetallMap =>
    exact hgetall_reports (fun map field value => map.insertIfNew field value)
      (OldStyle.checkPointer_adapt returns container _) (fun _ => rfl) rfl
  | hmsetPairs pairs =>
    exact iff_of_true (bool_reports (OldStyle.adapt_eq returns _) (fun _ => rfl) rfl) trivial
  | hmsetMap map =>
    exact iff_of_true (bool_reports (OldStyle.adapt_eq returns _) (fun _ => rfl) rfl) trivial

/-- A client whose calls have these outcomes. -/
structure OutcomeClient where
  number : Option Int
  mbulks : Option Mbulk
  error : Bytes

instance : KeepsError OutcomeClient where
  call client _
    | .expire _ => .ok (client.number, client)
    | .expireat _ => .ok (client.number, client)
    | .hdel _ => .ok (client.number, client)
    | .hgetall => .ok (client.mbulks, client)
    | _ => .ok (none, client)
  keys client _ := .ok (client.mbulks, client)
  randomkey client := .ok (none, client)
  select client _ := .ok (false, client)
  flushall client := .ok (false, client)
  flushdb client := .ok (false, client)
  getHost _ := []
  getPort _ := []
  lastError client := client.error
  keepError client text := { client with error := text }

/-- A hash with one field is read into a map. -/
theorem reports_iff_hgetall : OldCall.hgetallMap.Reports
    (⟨none, some [some (ascii "f"), some (ascii "v")], []⟩ : OutcomeClient) (ascii "h") (some ∅)
    (some [some (ascii "f"), some (ascii "v")]) :=
  (reports_iff (some ∅) rfl).mpr (fun _ mb same => by
    cases same
    decide)

/-- `keys` reports a failure of the call below as a success, a number may turn negative, and
`hgetall` does not return if a value is nil. -/
theorem keys_not_reports :
    (OldCall.keys.below (⟨none, none, []⟩ : OutcomeClient) (ascii "*") =
        .ok (none, ⟨none, none, []⟩) ∧
      ¬ OldCall.keys.Reports (⟨none, none, []⟩ : OutcomeClient) (ascii "*") (some [ascii "old"])
        none) ∧
    ¬ (OldCall.hdel (ascii "f")).Reports (⟨some (2 ^ 31), none, []⟩ : OutcomeClient) (ascii "h") ()
      (some (2 ^ 31)) ∧
    ¬ OldCall.hgetallMap.Reports (⟨none, some [some (ascii "f"), none], []⟩ : OutcomeClient)
      (ascii "h") (some ∅) (some [some (ascii "f"), none]) := by
  refine ⟨⟨rfl, ?_⟩, ?_, ?_⟩
  · rintro ⟨result, container', client', performs, reports, -⟩
    cases performs
    simp [success, isCalled] at reports
  · rintro ⟨result, container', client', performs, reports, -⟩
    have negative : castInt (2 ^ 31) = -2 ^ 31 := by decide
    cases performs
    rw [negative] at reports
    simp [success, isCalled] at reports
  · rintro ⟨result, container', client', performs, -⟩
    cases performs

end OldCall

end LibRedis
