import LibRedis.KeyRouting
import LibRedis.Lib.Shards
import LibRedis.Lib.Simulation
import Mathlib.Data.List.AList

/-!
# A client for several servers as one map

Where every client is a server for a map, the client for all of them is one for one map: the client
at each place holds the shard of its host, the same in every group. Every call keeps that, and
returns what the map returns.
-/

namespace LibRedis

open Decimal (ascii)
open Shards (shard storeAll removeAll countLive Lists)

/-- What a method about a key does to the value that the key has, where it is one of those for a
map: its output, and the value behind it. -/
def KeyMethod.onValue {α : Type} : KeyMethod α → Option (Option Bytes → α × Option Bytes)
  | .set value => some fun _ => ((), some value)
  | .get => some fun current => (current, current)
  | .exists => some fun current => (if current.isSome then 1 else 0, current)
  | .del => some fun current => (if current.isSome then 1 else 0, none)
  | _ => none

/-- Clients that are servers for a map each: every call succeeds, with what the map answers. -/
structure KeyValue (κ : Type) [RedisBase2 κ] where
  /-- Whether a key matches a pattern. -/
  isMatch : Bytes → Bytes → Bool
  /-- A client holds a map. -/
  holds : κ → (Bytes → Option Bytes) → Prop
  /-- A method about a key. -/
  call {α : Type} {client : κ} {map : Bytes → Option Bytes} (held : holds client map) (key : Bytes)
    {m : KeyMethod α} {effect : Option Bytes → α × Option Bytes} (isMap : m.onValue = some effect) :
    ∃ client', RedisBase2.call client key m = .ok (some (effect (map key)).1, client') ∧
      holds client' (Function.update map key (effect (map key)).2)
  /-- `keys`. -/
  keys {client : κ} {map : Bytes → Option Bytes} (held : holds client map) (pattern : Bytes) :
    ∃ (found : List Bytes) (client' : κ),
      RedisBase2.keys client pattern = .ok (some (found.map some), client') ∧ holds client' map ∧
      Lists found fun key => (map key).isSome ∧ isMatch pattern key

/-- A call at the host of the key changes the shard as it changes the map. -/
theorem KeyValue.call_shard {κ : Type} [RedisBase2 κ] (laws : KeyValue κ) {part : Bytes → Nat}
    {map : Bytes → Option Bytes} {i : Nat} {client client' : κ} {key : Bytes} {α : Type}
    {m : KeyMethod α} {effect : Option Bytes → α × Option Bytes} (isMap : m.onValue = some effect)
    (host : i = part key) (held : laws.holds client (shard part map i)) {out : Option α}
    (calls : RedisBase2.call client key m = .ok (out, client')) :
    out = some (effect (map key)).1 ∧
      laws.holds client' (shard part (Function.update map key (effect (map key)).2) i) := by
  obtain ⟨client₁, calls₁, held₁⟩ := laws.call held key isMap
  rw [calls₁] at calls
  cases calls
  subst host
  rw [Shards.shard_self] at held₁ ⊢
  rw [Shards.shard_update_self]
  exact ⟨rfl, held₁⟩

/-- A call of the interface of a map. -/
inductive MapCall where
  | set (key value : Bytes)
  | mset (keys values : List Bytes)
  | get (key : Bytes)
  | mget (keys : List Bytes)
  | exists (key : Bytes)
  | del (key : Bytes)
  | delKeys (keys : List Bytes)
  | keys (pattern : Bytes)

/-- The calls in question: as many values as keys, and a key to delete. -/
def MapCall.Allowed : MapCall → Prop
  | .mset stored values => stored.length = values.length
  | .delKeys removed => removed ≠ []
  | _ => True

/-- The outputs of a call. -/
inductive MapResult where
  | done
  | value (value : Option Bytes)
  | values (values : Mbulk)
  | count (number : Int)

/-- What a call returns and leaves on one map. -/
def Returns (isMatch : Bytes → Bytes → Bool) (map : Bytes → Option Bytes) (call : MapCall)
    (result : MapResult) (map' : Bytes → Option Bytes) : Prop :=
  match call with
  | .set key value => result = .done ∧ map' = Function.update map key (some value)
  | .mset keys values => result = .done ∧ map' = storeAll map (keys.zip values)
  | .get key => result = .value (map key) ∧ map' = map
  | .mget keys => result = .values (keys.map map) ∧ map' = map
  | .exists key => result = .count (if (map key).isSome then 1 else 0) ∧ map' = map
  | .del key =>
    result = .count (if (map key).isSome then 1 else 0) ∧ map' = Function.update map key none
  | .delKeys keys => result = .count (countLive map keys) ∧ map' = removeAll map keys
  | .keys pattern => map' = map ∧ ∃ found : List Bytes, result = .values (found.map some) ∧
      Lists found fun key => (map key).isSome ∧ isMatch pattern key

namespace Redis2P

variable {κ : Type} [RedisBase2 κ]

/-- A call of the client for several servers. -/
def perform (p : Redis2P κ) (t : ThreadId) : MapCall → Except Abort (Option MapResult × Redis2P κ)
  | .set key value => (p.set t key value).map fun (out, p) => (out.map fun _ => .done, p)
  | .mset keys values => (p.mset t keys values).map fun (out, p) => (out.map fun _ => .done, p)
  | .get key => (p.get t key).map fun (out, p) => (out.map .value, p)
  | .mget keys => (p.mget t keys).map fun (out, p) => (out.map .values, p)
  | .exists key => (p.exists_ t key).map fun (out, p) => (out.map .count, p)
  | .del key => (p.del t key).map fun (out, p) => (out.map .count, p)
  | .delKeys keys => (p.delKeys keys).map fun (out, p) => (out.map .count, p)
  | .keys pattern => (p.keys t pattern).map fun (out, p) => (out.map .values, p)

/-- Calls one after the other, from any threads. -/
def performAll : List (ThreadId × MapCall) → Redis2P κ →
    Except Abort (List (Option MapResult) × Redis2P κ)
  | [], p => return ([], p)
  | (t, call) :: rest, p => do
    let (result, p) ← p.perform t call
    let (results, p) ← performAll rest p
    return (result :: results, p)

/-- Every client holds the shard of its host. -/
def Spread (laws : KeyValue κ) (p : Redis2P κ) (map : Bytes → Option Bytes) : Prop :=
  p.Clients fun i client => laws.holds client (shard p.getKeyHostIndex map (i % p.hostNum))

/-- The client for several servers is one for a map. -/
structure Serves (laws : KeyValue κ) (p : Redis2P κ) (map : Bytes → Option Bytes) : Prop where
  /-- It is as the constructor has made it. -/
  configured : p.Configured
  /-- The map is spread over the clients. -/
  spread : Spread laws p map

variable {laws : KeyValue κ}

/-- What holds of the clients of an object holds of those of another with the same hosts. -/
theorem Keeps.spread {p p' : Redis2P κ} (keeps : p.Keeps p') {map : Bytes → Option Bytes}
    (clients : p'.Clients fun i client =>
      laws.holds client (shard p.getKeyHostIndex map (i % p.hostNum))) : Spread laws p' map := by
  have same : p'.getKeyHostIndex = p.getKeyHostIndex := funext keeps.getKeyHostIndex
  unfold Spread
  rw [same, keeps.hostNum]
  exact clients

/-- The loop over all replicas of a key does to the map what the method does to the value. -/
theorem Serves.writeEach {p : Redis2P κ} {map : Bytes → Option Bytes} (serves : Serves laws p map)
    (seed : Nat) (key : Bytes) {α : Type} {m : KeyMethod α}
    {effect : Option Bytes → α × Option Bytes} (isMap : m.onValue = some effect)
    (last : Option α) :
    ∃ p', Redis2P.writeEach key m (p.replicas seed key) last p =
        .ok (some (effect (map key)).1, p') ∧
      p.Keeps p' ∧ Serves laws p' (Function.update map key (effect (map key)).2) := by
  obtain ⟨configured, spread⟩ := serves
  have succeeds : ∀ i client, laws.holds client (shard p.getKeyHostIndex map (i % p.hostNum)) →
      ∃ out client', RedisBase2.call client key m = .ok (some out, client') := by
    intro i client held
    obtain ⟨client', calls, -⟩ := laws.call held key isMap
    exact ⟨_, client', calls⟩
  obtain ⟨⟨out, p', returns⟩, -⟩ := configured.each_succeeds seed succeeds spread last
  let next := Function.update map key (effect (map key)).2
  have others : ∀ i client, i % p.hostNum ≠ p.getKeyHostIndex key →
      laws.holds client (shard p.getKeyHostIndex map (i % p.hostNum)) →
      laws.holds client (shard p.getKeyHostIndex next (i % p.hostNum)) := by
    intro i client other held
    rw [Shards.shard_update_other map _ (Ne.symm other)]
    exact held
  obtain ⟨keeps, clients, i, client, client', host, held, answers⟩ :=
    configured.writeEach_clients (fun i client out client' host held calls =>
      (laws.call_shard isMap host held calls).2) others spread returns
  obtain ⟨same, -⟩ := laws.call_shard isMap host held answers
  cases same
  exact ⟨p', returns, keeps, keeps.configured configured, keeps.spread clients⟩

/-- The loop for one replica answers what the method answers for the value, if that stays. -/
theorem Serves.readEach {p : Redis2P κ} {map : Bytes → Option Bytes} (serves : Serves laws p map)
    (seed : Nat) (key : Bytes) {α : Type} {m : KeyMethod α}
    {effect : Option Bytes → α × Option Bytes} (isMap : m.onValue = some effect)
    (reads : (effect (map key)).2 = map key) :
    ∃ p', Redis2P.readEach key m (p.replicas seed key) p = .ok (some (effect (map key)).1, p') ∧
      p.Keeps p' ∧ Serves laws p' map := by
  obtain ⟨configured, spread⟩ := serves
  have succeeds : ∀ i client, laws.holds client (shard p.getKeyHostIndex map (i % p.hostNum)) →
      ∃ out client', RedisBase2.call client key m = .ok (some out, client') := by
    intro i client held
    obtain ⟨client', calls, -⟩ := laws.call held key isMap
    exact ⟨_, client', calls⟩
  obtain ⟨-, out, p', returns⟩ := configured.each_succeeds seed succeeds spread none
  have leaves : ∀ i client out client', i % p.hostNum = p.getKeyHostIndex key →
      laws.holds client (shard p.getKeyHostIndex map (i % p.hostNum)) →
      RedisBase2.call client key m = .ok (out, client') →
      laws.holds client' (shard p.getKeyHostIndex map (i % p.hostNum)) := by
    intro i client out client' host held calls
    obtain ⟨-, held'⟩ := laws.call_shard isMap host held calls
    rw [reads, Function.update_eq_self] at held'
    exact held'
  obtain ⟨keeps, clients, answers⟩ := configured.readEach_clients leaves spread returns
  obtain ⟨i, client, client', host, held, answers⟩ := answers out rfl
  obtain ⟨same, -⟩ := laws.call_shard isMap host held answers
  cases same
  exact ⟨p', returns, keeps, keeps.configured configured, keeps.spread clients⟩

/-- `set`. -/
theorem Serves.set {p : Redis2P κ} {map : Bytes → Option Bytes} (serves : Serves laws p map)
    (t : ThreadId) (key value : Bytes) : ∃ p', p.set t key value = .ok (some (), p') ∧
      Serves laws p' (Function.update map key (some value)) := by
  obtain ⟨p', returns, -, serves'⟩ :=
    serves.writeEach t.seed key (rfl : (KeyMethod.set value).onValue = some _) none
  rw [← serves.configured.forEachGroupWrite_eq] at returns
  exact ⟨p', returns, serves'⟩

/-- `get`. -/
theorem Serves.get {p : Redis2P κ} {map : Bytes → Option Bytes} (serves : Serves laws p map)
    (t : ThreadId) (key : Bytes) : ∃ p', p.get t key = .ok (some (map key), p') ∧
      Serves laws p' map := by
  obtain ⟨p', returns, -, serves'⟩ :=
    serves.readEach t.seed key (rfl : KeyMethod.get.onValue = some _) rfl
  rw [← serves.configured.forEachGroupRead_eq] at returns
  exact ⟨p', returns, serves'⟩

/-- `exists`. -/
theorem Serves.exists_ {p : Redis2P κ} {map : Bytes → Option Bytes} (serves : Serves laws p map)
    (t : ThreadId) (key : Bytes) :
    ∃ p', p.exists_ t key = .ok (some (if (map key).isSome then 1 else 0), p') ∧
      Serves laws p' map := by
  obtain ⟨p', returns, -, serves'⟩ :=
    serves.readEach t.seed key (rfl : KeyMethod.exists.onValue = some _) rfl
  rw [← serves.configured.forEachGroupRead_eq] at returns
  exact ⟨p', returns, serves'⟩

/-- `del`. -/
theorem Serves.del {p : Redis2P κ} {map : Bytes → Option Bytes} (serves : Serves laws p map)
    (t : ThreadId) (key : Bytes) :
    ∃ p', p.del t key = .ok (some (if (map key).isSome then 1 else 0), p') ∧
      Serves laws p' (Function.update map key none) := by
  obtain ⟨p', returns, -, serves'⟩ :=
    serves.writeEach t.seed key (rfl : KeyMethod.del.onValue = some _) none
  rw [← serves.configured.forEachGroupWrite_eq] at returns
  exact ⟨p', returns, serves'⟩

/-- The loop of `mset` stores one pair after the other. -/
theorem Serves.msetEach (t : ThreadId) (pairs : List (Bytes × Bytes)) {p : Redis2P κ}
    {map : Bytes → Option Bytes} (serves : Serves laws p map) :
    ∃ p', Redis2P.msetEach t pairs p = .ok (some (), p') ∧
      Serves laws p' (storeAll map pairs) := by
  induction pairs generalizing p map with
  | nil => exact ⟨p, rfl, serves⟩
  | cons pair rest ih =>
    obtain ⟨key, value⟩ := pair
    obtain ⟨p₁, sets, serves₁⟩ := serves.set t key value
    obtain ⟨p', goesOn, serves'⟩ := ih serves₁
    refine ⟨p', ?_, serves'⟩
    rw [Redis2P.msetEach, sets]
    exact goesOn

/-- The loop of `mget` puts the values together, position by position. -/
theorem Serves.mgetEach (t : ThreadId) (keys : List Bytes) (values : Mbulk) {p : Redis2P κ}
    {map : Bytes → Option Bytes} (serves : Serves laws p map) :
    ∃ p', Redis2P.mgetEach t keys values p = .ok (some (values ++ keys.map map), p') ∧
      Serves laws p' map := by
  induction keys generalizing p values with
  | nil =>
    refine ⟨p, ?_, serves⟩
    rw [List.map_nil, List.append_nil]
    rfl
  | cons key rest ih =>
    obtain ⟨p₁, gets, serves₁⟩ := serves.get t key
    obtain ⟨p', goesOn, serves'⟩ := ih (values ++ [map key]) serves₁
    refine ⟨p', ?_, serves'⟩
    rw [Redis2P.mgetEach, gets, List.map_cons, List.append_cons]
    exact goesOn

/-- The loop of `del` counts each key that is still there once, not once for each replica. -/
theorem Serves.delEach {p₀ : Redis2P κ} (keys : List Bytes) (deleted total : Int) {p : Redis2P κ}
    (keeps : p₀.Keeps p) {map : Bytes → Option Bytes} (serves : Serves laws p map) :
    ∃ p', Redis2P.delEach (keys.zip (keys.map (p₀.replicas 0))) deleted total p =
        .ok (some (total + countLive map keys), p') ∧ Serves laws p' (removeAll map keys) := by
  induction keys generalizing p map deleted total with
  | nil =>
    refine ⟨p, ?_, ?_⟩
    · rw [countLive, List.toFinset_nil, Finset.filter_empty, Finset.card_empty]
      simp [Redis2P.delEach, pure, Except.pure]
    · rw [Shards.removeAll_nil]
      exact serves
  | cons key rest ih =>
    obtain ⟨p₁, deletes, keeps₁, serves₁⟩ :=
      serves.writeEach 0 key (rfl : KeyMethod.del.onValue = some _) (some deleted)
    obtain ⟨p', goesOn, serves'⟩ := ih (if (map key).isSome then 1 else 0)
      (total + if (map key).isSome then 1 else 0) (keeps.trans keeps₁) serves₁
    refine ⟨p', ?_, ?_⟩
    · rw [List.map_cons, List.zip_cons_cons, Redis2P.delEach, ← keeps.replicas, deletes]
      change Redis2P.delEach _ _ _ p₁ = _
      have sum : total + (if (map key).isSome then 1 else 0) +
          (countLive (Function.update map key none) rest : Int) =
          total + (countLive map (key :: rest) : Int) := by
        rw [Shards.countLive_cons]
        push_cast
        ring
      rw [goesOn, ← sum]
    · rw [Shards.removeAll_cons]
      exact serves'

/-- One client lists the keys of its shard. -/
theorem Serves.keysAt {p : Redis2P κ} {map : Bytes → Option Bytes} (serves : Serves laws p map)
    (pattern : Bytes) {i : Nat} (inside : i < p.redis2SpVector.length) :
    ∃ (found : List Bytes) (p' : Redis2P κ),
      p.atIndex i (fun client => RedisBase2.keys client pattern) =
        .ok (some (found.map some), p') ∧ p.Keeps p' ∧ Serves laws p' map ∧
      Lists found fun key => p.getKeyHostIndex key = i % p.hostNum ∧
        ((map key).isSome ∧ laws.isMatch pattern key) := by
  have here := List.getElem?_eq_getElem inside
  have held := serves.spread i _ here
  obtain ⟨found, client', calls, held', lists⟩ := laws.keys held pattern
  have returns := atIndex_succeeds (RedisBase2.keys · pattern) here calls
  obtain ⟨keeps, -⟩ := atIndex_returns returns
  refine ⟨found, _, returns, keeps, ⟨keeps.configured serves.configured, keeps.spread ?_⟩,
    lists.congr fun key => ?_⟩
  · exact Clients.set serves.spread rfl held' fun j client _ held => held
  · rw [Shards.isSome_shard, and_assoc]

/-- The loop of `keys` puts the lists of different hosts together. -/
theorem Serves.keysEach (pattern : Bytes) (indexes : List Nat) (found : Mbulk) {p : Redis2P κ}
    {map : Bytes → Option Bytes} (serves : Serves laws p map)
    (inside : ∀ i ∈ indexes, i < p.redis2SpVector.length)
    (hosts : (indexes.map (· % p.hostNum)).Nodup) :
    ∃ (more : List Bytes) (p' : Redis2P κ),
      Redis2P.keysEach pattern indexes found p = .ok (some (found ++ more.map some), p') ∧
      Serves laws p' map ∧
      Lists more fun key => p.getKeyHostIndex key ∈ indexes.map (· % p.hostNum) ∧
        ((map key).isSome ∧ laws.isMatch pattern key) := by
  induction indexes generalizing p found with
  | nil =>
    refine ⟨[], p, ?_, serves, ⟨List.nodup_nil, by simp⟩⟩
    rw [List.map_nil, List.append_nil]
    rfl
  | cons i rest ih =>
    obtain ⟨here, p₁, calls, keeps, serves₁, lists⟩ :=
      serves.keysAt pattern (inside i List.mem_cons_self)
    rw [List.map_cons] at hosts
    obtain ⟨first, hosts⟩ := List.nodup_cons.mp hosts
    have inside₁ : ∀ j ∈ rest, j < p₁.redis2SpVector.length := by
      intro j later
      rw [keeps.length]
      exact inside j (List.mem_cons_of_mem i later)
    obtain ⟨more, p', goesOn, serves', listsMore⟩ :=
      ih (found ++ here.map some) serves₁ inside₁ (by rwa [keeps.hostNum])
    refine ⟨here ++ more, p', ?_, serves', ?_⟩
    · rw [Redis2P.keysEach, calls, List.map_append, ← List.append_assoc]
      exact goesOn
    · rw [keeps.hostNum, funext keeps.getKeyHostIndex] at listsMore
      refine (lists.append listsMore ?_).congr fun key => ?_
      · rintro key ⟨host, -⟩ ⟨later, -⟩
        rw [host] at later
        exact first later
      · rw [List.map_cons, List.mem_cons, or_and_right]

/-- `keys`. -/
theorem Serves.keys {p : Redis2P κ} {map : Bytes → Option Bytes} (serves : Serves laws p map)
    (t : ThreadId) (pattern : Bytes) :
    ∃ (found : List Bytes) (p' : Redis2P κ),
      p.keys t pattern = .ok (some (found.map some), p') ∧ Serves laws p' map ∧
      Lists found fun key => (map key).isSome ∧ laws.isMatch pattern key := by
  obtain ⟨hosts, inside⟩ := serves.configured.groupClients_hosts t
  have once : ((p.groupClients t).map (· % p.hostNum)).Nodup := by
    rw [hosts]
    exact List.nodup_range
  obtain ⟨found, p', calls, serves', lists⟩ := serves.keysEach pattern _ [] inside once
  refine ⟨found, p', ?_, serves', lists.congr fun key => ?_⟩
  · unfold Redis2P.keys
    rw [serves.configured.getGroupClient_eq]
    exact calls
  · rw [hosts, List.mem_range]
    exact and_iff_right (serves.configured.getKeyHostIndex_lt key)

/-- Every call returns what the map returns, and leaves what it leaves. -/
theorem Serves.perform {p : Redis2P κ} {map : Bytes → Option Bytes} (serves : Serves laws p map)
    (t : ThreadId) {call : MapCall} (allowed : call.Allowed) :
    ∃ result p' map', p.perform t call = .ok (some result, p') ∧
      Returns laws.isMatch map call result map' ∧ Serves laws p' map' := by
  cases call with
  | set key value =>
    obtain ⟨p', returns, serves'⟩ := serves.set t key value
    refine ⟨.done, p', _, ?_, ⟨rfl, rfl⟩, serves'⟩
    rw [Redis2P.perform, returns]
    rfl
  | mset keys values =>
    obtain ⟨p', returns, serves'⟩ := serves.msetEach t (keys.zip values)
    refine ⟨.done, p', _, ?_, ⟨rfl, rfl⟩, serves'⟩
    have equal : keys.length = values.length := allowed
    rw [Redis2P.perform, mset, checkExpr, if_pos (by simpa using equal), returns]
    rfl
  | get key =>
    obtain ⟨p', returns, serves'⟩ := serves.get t key
    refine ⟨.value (map key), p', _, ?_, ⟨rfl, rfl⟩, serves'⟩
    rw [Redis2P.perform, returns]
    rfl
  | mget keys =>
    obtain ⟨p', returns, serves'⟩ := serves.mgetEach t keys []
    refine ⟨.values (keys.map map), p', _, ?_, ⟨rfl, rfl⟩, serves'⟩
    rw [Redis2P.perform, mget, returns]
    rfl
  | «exists» key =>
    obtain ⟨p', returns, serves'⟩ := serves.exists_ t key
    refine ⟨.count (if (map key).isSome then 1 else 0), p', _, ?_, ⟨rfl, rfl⟩, serves'⟩
    rw [Redis2P.perform, returns]
    rfl
  | del key =>
    obtain ⟨p', returns, serves'⟩ := serves.del t key
    refine ⟨.count (if (map key).isSome then 1 else 0), p', _, ?_, ⟨rfl, rfl⟩, serves'⟩
    rw [Redis2P.perform, returns]
    rfl
  | delKeys keys =>
    obtain ⟨p', returns, serves'⟩ := Serves.delEach keys 0 0 (.refl p) serves
    refine ⟨.count (countLive map keys), p', _, ?_, ⟨rfl, rfl⟩, serves'⟩
    rw [Redis2P.perform, delKeys, p.getKeysClient_eq allowed]
    rw [Int.zero_add] at returns
    change (Redis2P.delEach _ _ _ p).map _ = _
    rw [returns]
    rfl
  | keys pattern =>
    obtain ⟨found, p', returns, serves', lists⟩ := serves.keys t pattern
    refine ⟨.values (found.map some), p', map, ?_, ⟨rfl, found, rfl, lists⟩, serves'⟩
    rw [Redis2P.perform, returns]
    rfl

/-- A step of one map: a call with its result. -/
def MapStep (isMatch : Bytes → Bytes → Bool) (map : Bytes → Option Bytes)
    (label : MapCall × MapResult) (map' : Bytes → Option Bytes) : Prop :=
  Returns isMatch map label.1 label.2 map'

/-- The calls of a run return what the map returns, call by call. -/
theorem Serves.performAll (calls : List (ThreadId × MapCall)) {p : Redis2P κ}
    {map : Bytes → Option Bytes} (serves : Serves laws p map)
    (allowed : ∀ call ∈ calls, call.2.Allowed) :
    ∃ (results : List MapResult) (p' : Redis2P κ) (map' : Bytes → Option Bytes),
      Redis2P.performAll calls p = .ok (results.map some, p') ∧ results.length = calls.length ∧
      Simulation.Run (MapStep laws.isMatch) map ((calls.map Prod.snd).zip results) map' := by
  induction calls generalizing p map with
  | nil => exact ⟨[], p, map, rfl, rfl, .done map⟩
  | cons call rest ih =>
    obtain ⟨t, call⟩ := call
    obtain ⟨result, p₁, map₁, performs, returns, serves₁⟩ :=
      serves.perform t (allowed (t, call) List.mem_cons_self)
    obtain ⟨results, p', map', goesOn, length, run⟩ :=
      ih serves₁ fun call later => allowed call (List.mem_cons_of_mem _ later)
    refine ⟨result :: results, p', map', ?_, by simp [length], .step returns run⟩
    rw [Redis2P.performAll, performs]
    change (Redis2P.performAll rest p₁ >>= _) = _
    rw [goesOn]
    rfl

/-- Every run of calls returns what the same run on one map returns. -/
theorem performAll_returns (laws : KeyValue κ) {hostList portList : Bytes} {dbIndex : Int32}
    {timeoutMs : Int} {partitions : Int32} {hashFn : Bytes → UInt32}
    {newRedis2 : Nat → Bytes → Bytes → Int32 → Int → κ} {p : Redis2P κ}
    (accepted : new hostList portList dbIndex timeoutMs partitions hashFn newRedis2 = .ok p)
    (empty : ∀ i host port, laws.holds (newRedis2 i host port dbIndex timeoutMs) fun _ => none)
    (calls : List (ThreadId × MapCall)) (allowed : ∀ call ∈ calls, call.2.Allowed) :
    ∃ (results : List MapResult) (p' : Redis2P κ) (map' : Bytes → Option Bytes),
      performAll calls p = .ok (results.map some, p') ∧ results.length = calls.length ∧
      Simulation.Run (MapStep laws.isMatch) (fun _ => none) ((calls.map Prod.snd).zip results)
        map' := by
  obtain ⟨configured, made⟩ := new_configured accepted
  have spread : Spread laws p fun _ => none := by
    intro i client found
    obtain ⟨host, port, rfl⟩ := made i client found
    rw [Shards.shard_empty]
    exact empty i host port
  exact Serves.performAll calls ⟨configured, spread⟩ allowed

/-- A client that is a map itself. -/
structure MapClient where
  /-- The keys and their values. -/
  entries : AList fun _ : Bytes => Bytes

instance : RedisBase2 MapClient where
  call client key
    | .set value => .ok (some (), ⟨client.entries.insert key value⟩)
    | .get => .ok (some (client.entries.lookup key), client)
    | .exists => .ok (some (if (client.entries.lookup key).isSome then 1 else 0), client)
    | .del => .ok (some (if (client.entries.lookup key).isSome then 1 else 0),
        ⟨client.entries.erase key⟩)
    | _ => .ok (none, client)
  keys client pattern := .ok (some ((client.entries.keys.filter fun key =>
    pattern == ascii "*" || pattern == key).map some), client)
  randomkey client := .ok (none, client)
  select client _ := .ok (true, client)
  flushall _ := .ok (true, ⟨∅⟩)
  flushdb _ := .ok (true, ⟨∅⟩)
  getHost _ := []
  getPort _ := []
  lastError _ := []

/-- The map that the client is. -/
def MapClient.map (client : MapClient) (key : Bytes) : Option Bytes := client.entries.lookup key

/-- It keeps the promises. -/
def mapClientLaws : KeyValue MapClient where
  isMatch pattern key := pattern == ascii "*" || pattern == key
  holds client map := client.map = map
  call {α client map} held key m effect isMap := by
    subst held
    cases m with
    | set value =>
      cases isMap
      refine ⟨_, rfl, funext fun other => ?_⟩
      by_cases same : other = key
      · subst same
        rw [Function.update_self]
        exact AList.lookup_insert client.entries
      · rw [Function.update_of_ne same]
        exact AList.lookup_insert_ne same
    | get =>
      cases isMap
      exact ⟨client, rfl, (Function.update_eq_self key client.map).symm⟩
    | «exists» =>
      cases isMap
      exact ⟨client, rfl, (Function.update_eq_self key client.map).symm⟩
    | del =>
      cases isMap
      refine ⟨_, rfl, funext fun other => ?_⟩
      by_cases same : other = key
      · subst same
        rw [Function.update_self]
        exact AList.lookup_erase other client.entries
      · rw [Function.update_of_ne same]
        exact AList.lookup_erase_ne same
    | _ => cases isMap
  keys {client map} held pattern := by
    subst held
    refine ⟨_, client, rfl, rfl, ⟨client.entries.keys_nodup.filter _, fun key => ?_⟩⟩
    rw [List.mem_filter, MapClient.map, AList.lookup_isSome, AList.mem_keys]

/-- Two groups of two hosts, called by two threads. -/
theorem performAll_returns_four : ∃ p : Redis2P MapClient,
    new (ascii "a,b,c,d") (ascii "6379") 0 1000 2 (fun key => UInt32.ofNat key.length)
      (fun _ _ _ _ _ => ⟨∅⟩) = .ok p ∧
    ∃ (results : List MapResult) (p' : Redis2P MapClient) (map' : Bytes → Option Bytes),
      performAll [(⟨1, by decide⟩, .mset [ascii "k", ascii "kk"] [ascii "v", ascii "w"]),
        (⟨2, by decide⟩, .delKeys [ascii "k", ascii "k"])] p = .ok (results.map some, p') ∧
      Simulation.Run (MapStep mapClientLaws.isMatch) (fun _ => none)
        ([MapCall.mset [ascii "k", ascii "kk"] [ascii "v", ascii "w"],
          .delKeys [ascii "k", ascii "k"]].zip results) map' := by
  have isOk : (new (ascii "a,b,c,d") (ascii "6379") 0 1000 2 (fun key => UInt32.ofNat key.length)
      (fun _ _ _ _ _ => (⟨∅⟩ : MapClient))).isOk = true := by decide +kernel
  cases accepted : new (ascii "a,b,c,d") (ascii "6379") 0 1000 2
      (fun key => UInt32.ofNat key.length) (fun _ _ _ _ _ => (⟨∅⟩ : MapClient)) with
  | error text =>
    rw [accepted] at isOk
    cases isOk
  | ok p =>
    have empty : mapClientLaws.holds ⟨∅⟩ fun _ => none := rfl
    obtain ⟨results, p', map', performs, -, run⟩ := performAll_returns mapClientLaws accepted
      (fun _ _ _ => empty) [(⟨1, by decide⟩, .mset [ascii "k", ascii "kk"] [ascii "v", ascii "w"]),
        (⟨2, by decide⟩, .delKeys [ascii "k", ascii "k"])] (by simp [MapCall.Allowed])
    exact ⟨p, rfl, results, p', map', performs, run⟩

end Redis2P

end LibRedis
