import LibRedis.Lib.Candidates
import LibRedis.PartitionedMap

/-!
# One map over connections that fail

A call that writes may fail at some replicas of a key, behind the request as well as before it, and
then the map is known up to candidates. In every run, with whatever connections fail, what a call
returns is what one of the candidates has; where every call that writes returns true it is what one
map has.
-/

namespace LibRedis

open Shards (shard Lists storeAll removeAll countLive)
open Candidates (Within Attempt Tries TriesEach only makeEach)

/-- Clients that are servers for a map each, where calls may fail: one that fails has been applied or
not, and one that returns true has. -/
structure FallibleValue (κ : Type) [RedisBase2 κ] where
  /-- Whether a key matches a pattern. -/
  isMatch : Bytes → Bytes → Bool
  /-- The calls that are not too long. -/
  fits {α : Type} (key : Bytes) (m : KeyMethod α) : Prop
  /-- The patterns that are not too long. -/
  fitsPattern : Bytes → Prop
  /-- A client holds a map. -/
  holds : κ → (Bytes → Option Bytes) → Prop
  /-- A method about a key. -/
  call {α : Type} {client client' : κ} {map : Bytes → Option Bytes} (held : holds client map)
    {key : Bytes} {m : KeyMethod α} (short : fits key m) {effect : Option Bytes → α × Option Bytes}
    (isMap : m.onValue = some effect) {out : Option α}
    (calls : RedisBase2.call client key m = .ok (out, client')) :
    (out = none ∧ holds client' map) ∨
      (holds client' (Function.update map key (effect (map key)).2) ∧
        ∀ outputs, out = some outputs → outputs = (effect (map key)).1)
  /-- `keys`. -/
  keys {client client' : κ} {map : Bytes → Option Bytes} (held : holds client map)
    {pattern : Bytes} (short : fitsPattern pattern) {out : Option Mbulk}
    (calls : RedisBase2.keys client pattern = .ok (out, client')) :
    holds client' map ∧ ∀ values, out = some values → ∃ found : List Bytes,
      values = found.map some ∧ Lists found fun key => (map key).isSome ∧ isMatch pattern key

namespace Redis2P

section Loops

variable {κ : Type} [RedisBase2 κ]

/-- What calls make of the clients that they are for, or leave, `FOR_EACH_GROUP_WRITE` makes or
leaves, whether it succeeds or not. -/
theorem writeEach_any {α : Type} {key : Bytes} {m : KeyMethod α} {holds shows : Nat → κ → Prop}
    {indexes : List Nat} (once : indexes.Nodup)
    (makes : ∀ i ∈ indexes, ∀ client out client', holds i client →
      RedisBase2.call client key m = .ok (out, client') → shows i client')
    (weakens : ∀ i client, holds i client → shows i client) {last : Option α} {r r' : Redis2P κ}
    {out : Option α}
    (clients : r.Clients fun i client => if i ∈ indexes then holds i client else shows i client)
    (returns : writeEach key m indexes last r = .ok (out, r')) :
    r.Keeps r' ∧ r'.Clients shows := by
  induction indexes generalizing r last with
  | nil =>
    cases returns
    have shown : r'.Clients shows := by simpa using clients
    exact ⟨.refl r', shown⟩
  | cons i rest ih =>
    obtain ⟨absent, once⟩ := List.nodup_cons.mp once
    obtain ⟨⟨out₁, r₁⟩, calls, goesOn⟩ := bind_returns returns
    obtain ⟨keeps, client, client', found, acts, changes⟩ := atIndex_returns calls
    have before : holds i client := by simpa using clients i client found
    have after : shows i client' := makes i List.mem_cons_self client out₁ client' before acts
    have clients₁ : r₁.Clients fun j c => if j ∈ rest then holds j c else shows j c := by
      refine Clients.set clients changes ?_ ?_
      · simpa [absent] using after
      · intro j c other held
        simpa [other] using held
    cases out₁ with
    | none =>
      obtain ⟨r₂, reports, stops⟩ := bind_returns goesOn
      cases stops
      obtain ⟨keeps₂, same⟩ := setIndexError_returns reports
      refine ⟨keeps.trans keeps₂, fun j c there => ?_⟩
      have held : if j ∈ rest then holds j c else shows j c := clients₁ j c (same ▸ there)
      split_ifs at held
      · exact weakens j c held
      · exact held
    | some out₁ =>
      obtain ⟨keeps', shown⟩ :=
        ih once (fun j later => makes j (List.mem_cons_of_mem i later)) clients₁ goesOn
      exact ⟨keeps.trans keeps', shown⟩

/-- A client at a place holds the shard of its host of one of the maps. -/
def May (laws : FallibleValue κ) (part : Bytes → Nat) (hosts : Nat)
    (known : Bytes → Set (Option Bytes)) (i : Nat) (client : κ) : Prop :=
  ∃ map, Within known map ∧ laws.holds client (shard part map (i % hosts))

/-- A client for several servers for a map that is known up to candidates. -/
structure Knows (laws : FallibleValue κ) (p : Redis2P κ) (known : Bytes → Set (Option Bytes)) :
    Prop where
  /-- It is as the constructor has made it. -/
  configured : p.Configured
  /-- What the clients hold. -/
  clients : p.Clients (May laws p.getKeyHostIndex p.hostNum known)

variable {laws : FallibleValue κ} {part : Bytes → Nat} {hosts : Nat}
  {known : Bytes → Set (Option Bytes)} {p p' : Redis2P κ}

/-- A call at the host of its key makes an attempt at the shard, or none. -/
theorem May.call {i : Nat} {client client' : κ} (may : May laws part hosts known i client)
    {key : Bytes} (host : i % hosts = part key) {α : Type} {m : KeyMethod α}
    (short : laws.fits key m) {effect : Option Bytes → α × Option Bytes}
    (isMap : m.onValue = some effect) {out : Option α}
    (calls : RedisBase2.call client key m = .ok (out, client')) :
    (out = none ∧ May laws part hosts known i client') ∨
      ((∀ {tried : Option α} {after : Set (Option Bytes)}, Attempt effect (known key) tried after →
        May laws part hosts (Function.update known key after) i client') ∧
      ∀ outputs, out = some outputs → ∃ value ∈ known key, outputs = (effect value).1) := by
  obtain ⟨map, within, held⟩ := may
  rcases laws.call held short isMap calls with ⟨fails, held'⟩ | ⟨held', shows⟩
  · exact Or.inl ⟨fails, map, within, held'⟩
  · rw [host, Shards.shard_self] at held' shows
    rw [← Shards.shard_update_self, ← host] at held'
    exact Or.inr ⟨fun attempt => ⟨_, within.made attempt, held'⟩,
      fun outputs same => ⟨map key, within key, shows outputs same⟩⟩

/-- An attempt at a key leaves the shards of other hosts. -/
theorem May.other {i : Nat} {client : κ} (may : May laws part hosts known i client) {key : Bytes}
    (other : i % hosts ≠ part key) {α : Type} {effect : Option Bytes → α × Option Bytes}
    {out : Option α} {after : Set (Option Bytes)} (attempt : Attempt effect (known key) out after) :
    May laws part hosts (Function.update known key after) i client := by
  obtain ⟨map, within, held⟩ := may
  refine ⟨_, within.made attempt, ?_⟩
  rw [Shards.shard_update_other map _ (Ne.symm other)]
  exact held

/-- One that fails leaves every client what it may hold. -/
theorem May.failed {i : Nat} {client : κ} (may : May laws part hosts known i client) {key : Bytes}
    {α : Type} {effect : Option Bytes → α × Option Bytes} {after : Set (Option Bytes)}
    (attempt : Attempt effect (known key) none after) :
    May laws part hosts (Function.update known key after) i client := by
  obtain ⟨map, within, held⟩ := may
  exact ⟨map, within.kept attempt.failed, held⟩

/-- What holds of the clients of an object is known of one with the same hosts. -/
theorem Knows.kept (knows : Knows laws p known) (keeps : p.Keeps p')
    {known' : Bytes → Set (Option Bytes)}
    (clients : p'.Clients (May laws p.getKeyHostIndex p.hostNum known')) :
    Knows laws p' known' := by
  refine ⟨keeps.configured knows.configured, ?_⟩
  rw [funext keeps.getKeyHostIndex, keeps.hostNum]
  exact clients

/-- A text is no part of what is known. -/
theorem Knows.withError (knows : Knows laws p known) (text : Bytes) :
    Knows laws { p with error := text } known := by
  have keeps : p.Keeps { p with error := text } := ⟨rfl, rfl, rfl⟩
  exact knows.kept keeps knows.clients

/-- The loop over all replicas of a key is an attempt. -/
theorem Knows.writeEach (knows : Knows laws p known) {seed : Nat} {key : Bytes} {α : Type}
    {m : KeyMethod α} (short : laws.fits key m) {effect : Option Bytes → α × Option Bytes}
    (isMap : m.onValue = some effect) {last out : Option α}
    (returns : Redis2P.writeEach key m (p.replicas seed key) last p = .ok (out, p')) :
    p.Keeps p' ∧ ∃ known', Tries effect key known out known' ∧ Knows laws p' known' := by
  obtain ⟨configured, clients⟩ := knows
  cases out with
  | none =>
    let after := known key ∪ (fun value => (effect value).2) '' known key
    have attempt : Attempt effect (known key) none after := rfl
    have weakens : ∀ i client, May laws p.getKeyHostIndex p.hostNum known i client →
        May laws p.getKeyHostIndex p.hostNum (Function.update known key after) i client :=
      fun i client may => may.failed attempt
    have split : p.Clients fun i client => if i ∈ p.replicas seed key then
        May laws p.getKeyHostIndex p.hostNum known i client
        else May laws p.getKeyHostIndex p.hostNum (Function.update known key after) i client := by
      refine clients.imp fun i client inside may => ?_
      split_ifs
      · exact may
      · exact weakens i client may
    obtain ⟨keeps, shown⟩ := writeEach_any (configured.replicas_nodup seed key)
      (fun i member client out client' may calls => by
        have host := (configured.mem_replicas.mp member).2
        rcases may.call host short isMap calls with ⟨-, kept⟩ | ⟨made, -⟩
        · exact kept.failed attempt
        · exact made attempt) weakens split returns
    exact ⟨keeps, _, ⟨after, attempt, rfl⟩, Knows.kept ⟨configured, clients⟩ keeps shown⟩
  | some outputs =>
    let after := (fun value => (effect value).2) '' known key
    have made (shown : ∃ value ∈ known key, outputs = (effect value).1) :
        Attempt effect (known key) (some outputs) after := ⟨shown, rfl⟩
    obtain ⟨-, -, i, client, client', host, may, answers⟩ :=
      configured.writeEach_clients (fun _ _ _ _ _ _ _ => trivial) (fun _ _ _ _ => trivial)
        clients returns
    have shown : ∃ value ∈ known key, outputs = (effect value).1 := by
      rcases may.call host short isMap answers with ⟨wrong, -⟩ | ⟨-, shows⟩
      · cases wrong
      · exact shows outputs rfl
    obtain ⟨keeps, clients', -⟩ :=
      configured.writeEach_clients (fun i client out client' host may calls => by
        rcases may.call host short isMap calls with ⟨wrong, -⟩ | ⟨makes, -⟩
        · cases wrong
        · exact makes (made shown))
        (fun i client other may => may.other other (made shown)) clients returns
    exact ⟨keeps, _, ⟨after, made shown, rfl⟩, Knows.kept ⟨configured, clients⟩ keeps clients'⟩

/-- So is the loop for one replica, if the method changes nothing. -/
theorem Knows.readEach (knows : Knows laws p known) {seed : Nat} {key : Bytes} {α : Type}
    {m : KeyMethod α} (short : laws.fits key m) {effect : Option Bytes → α × Option Bytes}
    (isMap : m.onValue = some effect) (reads : ∀ value, (effect value).2 = value) {out : Option α}
    (returns : Redis2P.readEach key m (p.replicas seed key) p = .ok (out, p')) :
    ∃ known', Tries effect key known out known' ∧ Knows laws p' known' := by
  obtain ⟨configured, clients⟩ := knows
  have leaves : ∀ i client (out : Option α) client', i % p.hostNum = p.getKeyHostIndex key →
      May laws p.getKeyHostIndex p.hostNum known i client →
      RedisBase2.call client key m = .ok (out, client') →
      May laws p.getKeyHostIndex p.hostNum known i client' := by
    intro i client out client' host may calls
    rcases may.call host short isMap calls with ⟨-, kept⟩ | ⟨makes, -⟩
    · exact kept
    · have attempt : Attempt effect (known key) none
          (known key ∪ (fun value => (effect value).2) '' known key) := rfl
      have same := makes attempt
      rw [attempt.reads reads, Function.update_eq_self] at same
      exact same
  obtain ⟨keeps, clients', answers⟩ := configured.readEach_clients leaves clients returns
  have shows : ∀ outputs, out = some outputs → ∃ value ∈ known key, outputs = (effect value).1 := by
    intro outputs same
    obtain ⟨i, client, client', host, may, calls⟩ := answers outputs same
    rcases may.call host short isMap calls with ⟨wrong, -⟩ | ⟨-, shows⟩
    · cases wrong
    · exact shows outputs rfl
  obtain ⟨after, attempt⟩ := Candidates.exists_attempt effect (known key) shows
  have tries : Tries effect key known out (Function.update known key after) :=
    ⟨after, attempt, rfl⟩
  refine ⟨_, tries, ?_⟩
  rw [tries.reads reads]
  exact Knows.kept ⟨configured, clients⟩ keeps clients'

/-- What `set` does to a value. -/
def onSet (value : Bytes) (_ : Option Bytes) : Unit × Option Bytes := ((), some value)

/-- What `get` does. -/
def onGet (current : Option Bytes) : Option Bytes × Option Bytes := (current, current)

/-- What `exists` does. -/
def onExists (current : Option Bytes) : Int × Option Bytes :=
  (if current.isSome then 1 else 0, current)

/-- What `del` does. -/
def onDel (current : Option Bytes) : Int × Option Bytes := (if current.isSome then 1 else 0, none)

/-- Keys are listed as far as it is known which there are. -/
structure ListsKnown (isMatch : Bytes → Bytes → Bool) (known : Bytes → Set (Option Bytes))
    (pattern : Bytes) (found : List Bytes) : Prop where
  /-- No key is listed twice. -/
  nodup : found.Nodup
  /-- A key that is listed matches, and may be there. -/
  mayBe : ∀ key ∈ found, isMatch pattern key ∧ ∃ value, some value ∈ known key
  /-- One that matches, and must be there, is listed. -/
  all (key : Bytes) (matched : isMatch pattern key) (there : none ∉ known key) : key ∈ found

/-- What a call may return where a map is known up to candidates, and what is known behind it. -/
def MayReturn (isMatch : Bytes → Bytes → Bool) (known : Bytes → Set (Option Bytes)) (call : MapCall)
    (result : Option MapResult) (known' : Bytes → Set (Option Bytes)) : Prop :=
  match call with
  | .set key value => ∃ out, Tries (onSet value) key known out known' ∧
      result = out.map fun _ => .done
  | .mset keys values =>
    if keys.length = values.length then
      ∃ outs, TriesEach onSet (keys.zip values) known outs known' ∧ result = outs.map fun _ => .done
    else result = none ∧ known' = known
  | .get key => ∃ out, Tries onGet key known out known' ∧ result = out.map .value
  | .mget keys => ∃ outs, TriesEach (fun _ : Unit => onGet) (keys.map (·, ())) known outs known' ∧
      result = outs.map .values
  | .exists key => ∃ out, Tries onExists key known out known' ∧ result = out.map .count
  | .del key => ∃ out, Tries onDel key known out known' ∧ result = out.map .count
  | .delKeys keys =>
    if keys = [] then result = none ∧ known' = known
    else ∃ outs, TriesEach (fun _ : Unit => onDel) (keys.map (·, ())) known outs known' ∧
      result = outs.map fun outs => .count outs.sum
  | .keys pattern => known' = known ∧ ∀ listed, result = some listed →
      ∃ found, listed = .values (found.map some) ∧ ListsKnown isMatch known pattern found

/-- The calls that are not too long. -/
def Fits (laws : FallibleValue κ) : MapCall → Prop
  | .set key value => laws.fits key (.set value)
  | .mset keys values => ∀ pair ∈ keys.zip values, laws.fits pair.1 (.set pair.2)
  | .get key => laws.fits key .get
  | .mget keys => ∀ key ∈ keys, laws.fits key .get
  | .exists key => laws.fits key .exists
  | .del key => laws.fits key .del
  | .delKeys keys => ∀ key ∈ keys, laws.fits key .del
  | .keys pattern => laws.fitsPattern pattern

/-- `set`. -/
theorem Knows.set (knows : Knows laws p known) {t : ThreadId} {key value : Bytes}
    (short : laws.fits key (.set value)) {out : Option Unit}
    (returns : p.set t key value = .ok (out, p')) :
    ∃ known', Tries (onSet value) key known out known' ∧ Knows laws p' known' := by
  unfold Redis2P.set at returns
  rw [knows.configured.forEachGroupWrite_eq] at returns
  exact (knows.writeEach short rfl returns).2

/-- `get`. -/
theorem Knows.get (knows : Knows laws p known) {t : ThreadId} {key : Bytes}
    (short : laws.fits key .get) {out : Option (Option Bytes)}
    (returns : p.get t key = .ok (out, p')) :
    ∃ known', Tries onGet key known out known' ∧ Knows laws p' known' := by
  unfold Redis2P.get at returns
  rw [knows.configured.forEachGroupRead_eq] at returns
  exact knows.readEach short rfl (fun _ => rfl) returns

/-- `exists`. -/
theorem Knows.exists_ (knows : Knows laws p known) {t : ThreadId} {key : Bytes}
    (short : laws.fits key .exists) {out : Option Int}
    (returns : p.exists_ t key = .ok (out, p')) :
    ∃ known', Tries onExists key known out known' ∧ Knows laws p' known' := by
  unfold Redis2P.exists_ at returns
  rw [knows.configured.forEachGroupRead_eq] at returns
  exact knows.readEach short rfl (fun _ => rfl) returns

/-- `del`. -/
theorem Knows.del (knows : Knows laws p known) {t : ThreadId} {key : Bytes}
    (short : laws.fits key .del) {out : Option Int} (returns : p.del t key = .ok (out, p')) :
    ∃ known', Tries onDel key known out known' ∧ Knows laws p' known' := by
  unfold Redis2P.del at returns
  rw [knows.configured.forEachGroupWrite_eq] at returns
  exact (knows.writeEach short rfl returns).2

/-- The loop of `mset`. -/
theorem Knows.msetEach (knows : Knows laws p known) {t : ThreadId} {pairs : List (Bytes × Bytes)}
    (short : ∀ pair ∈ pairs, laws.fits pair.1 (.set pair.2)) {out : Option Unit}
    (returns : Redis2P.msetEach t pairs p = .ok (out, p')) :
    ∃ outs known', TriesEach onSet pairs known outs known' ∧ out = outs.map (fun _ => ()) ∧
      Knows laws p' known' := by
  induction pairs generalizing p known with
  | nil =>
    cases returns
    exact ⟨some [], known, ⟨rfl, rfl⟩, rfl, knows⟩
  | cons pair rest ih =>
    obtain ⟨⟨stored, p₁⟩, sets, goesOn⟩ := bind_returns returns
    obtain ⟨next, tries, knows₁⟩ := knows.set (short pair List.mem_cons_self) sets
    cases stored with
    | none =>
      cases goesOn
      exact ⟨none, next, ⟨none, next, tries, rfl, rfl⟩, rfl, knows₁⟩
    | some stored =>
      obtain ⟨more, known', each, rfl, knows'⟩ :=
        ih knows₁ (fun later member => short later (List.mem_cons_of_mem _ member)) goesOn
      refine ⟨more.map (stored :: ·), known', ⟨some stored, next, tries, more, each, rfl⟩, ?_, knows'⟩
      rw [Option.map_map]

/-- The loop of `mget`. -/
theorem Knows.mgetEach (knows : Knows laws p known) {t : ThreadId} {keys : List Bytes}
    (short : ∀ key ∈ keys, laws.fits key .get) {values : Mbulk} {out : Option Mbulk}
    (returns : Redis2P.mgetEach t keys values p = .ok (out, p')) :
    ∃ outs known', TriesEach (fun _ : Unit => onGet) (keys.map (·, ())) known outs known' ∧
      out = outs.map (values ++ ·) ∧ Knows laws p' known' := by
  induction keys generalizing p known values with
  | nil =>
    cases returns
    exact ⟨some [], known, ⟨rfl, rfl⟩, by simp, knows⟩
  | cons key rest ih =>
    obtain ⟨⟨value, p₁⟩, gets, goesOn⟩ := bind_returns returns
    obtain ⟨next, tries, knows₁⟩ := knows.get (short key List.mem_cons_self) gets
    cases value with
    | none =>
      cases goesOn
      exact ⟨none, next, ⟨none, next, tries, rfl, rfl⟩, rfl, knows₁⟩
    | some value =>
      obtain ⟨more, known', each, rfl, knows'⟩ :=
        ih knows₁ (fun later member => short later (List.mem_cons_of_mem _ member)) goesOn
      refine ⟨more.map (value :: ·), known', ⟨some value, next, tries, more, each, rfl⟩, ?_, knows'⟩
      rw [Option.map_map]
      congr 1
      funext outs
      simp

/-- The loop of `del` of several keys. -/
theorem Knows.delEach {p₀ : Redis2P κ} (keeps : p₀.Keeps p) (knows : Knows laws p known)
    {keys : List Bytes} (short : ∀ key ∈ keys, laws.fits key .del) {deleted total : Int}
    {out : Option Int}
    (returns : Redis2P.delEach (keys.zip (keys.map (p₀.replicas 0))) deleted total p =
      .ok (out, p')) :
    ∃ outs known', TriesEach (fun _ : Unit => onDel) (keys.map (·, ())) known outs known' ∧
      out = outs.map (total + ·.sum) ∧ Knows laws p' known' := by
  induction keys generalizing p known deleted total with
  | nil =>
    cases returns
    exact ⟨some [], known, ⟨rfl, rfl⟩, by simp, knows⟩
  | cons key rest ih =>
    obtain ⟨⟨removed, p₁⟩, deletes, goesOn⟩ := bind_returns returns
    rw [← keeps.replicas] at deletes
    obtain ⟨keeps₁, next, tries, knows₁⟩ :=
      knows.writeEach (short key List.mem_cons_self) rfl deletes
    cases removed with
    | none =>
      cases goesOn
      exact ⟨none, next, ⟨none, next, tries, rfl, rfl⟩, rfl, knows₁⟩
    | some removed =>
      obtain ⟨more, known', each, rfl, knows'⟩ := ih (keeps.trans keeps₁) knows₁
        (fun later member => short later (List.mem_cons_of_mem _ member)) goesOn
      refine ⟨more.map (removed :: ·), known', ⟨some removed, next, tries, more, each, rfl⟩, ?_,
        knows'⟩
      rw [Option.map_map]
      congr 1
      funext outs
      simp [add_assoc]

/-- The keys that one group has listed, host by host. -/
theorem Knows.keysEach (knows : Knows laws p known) {pattern : Bytes}
    (short : laws.fitsPattern pattern) {indexes : List Nat} {before : List Bytes}
    {isHost : Nat → Prop} (apart : (indexes.map (· % p.hostNum)).Nodup)
    (new : ∀ i ∈ indexes, ¬ isHost (i % p.hostNum)) (nodup : before.Nodup)
    (listed : ∀ key ∈ before, isHost (p.getKeyHostIndex key) ∧ laws.isMatch pattern key ∧
      ∃ value, some value ∈ known key)
    (all : ∀ key, isHost (p.getKeyHostIndex key) → laws.isMatch pattern key → none ∉ known key →
      key ∈ before) {out : Option Mbulk}
    (returns : Redis2P.keysEach pattern indexes (before.map some) p = .ok (out, p')) :
    Knows laws p' known ∧ ∀ values, out = some values → ∃ found : List Bytes,
      values = found.map some ∧ found.Nodup ∧
      (∀ key ∈ found, laws.isMatch pattern key ∧ ∃ value, some value ∈ known key) ∧
      ∀ key, (isHost (p.getKeyHostIndex key) ∨
        ∃ i ∈ indexes, i % p.hostNum = p.getKeyHostIndex key) →
        laws.isMatch pattern key → none ∉ known key → key ∈ found := by
  induction indexes generalizing p before isHost with
  | nil =>
    cases returns
    refine ⟨knows, fun values same => ?_⟩
    cases same
    exact ⟨before, rfl, nodup, fun key member => (listed key member).2, fun key here =>
      all key (by simpa using here)⟩
  | cons i rest ih =>
    obtain ⟨⟨out₁, p₁⟩, calls, goesOn⟩ := bind_returns returns
    obtain ⟨keeps, client, client', found, acts, changes⟩ := atIndex_returns calls
    obtain ⟨map, within, held⟩ := knows.clients i client found
    obtain ⟨held', shows⟩ := laws.keys held short acts
    have clients₁ : p₁.Clients (May laws p.getKeyHostIndex p.hostNum known) :=
      knows.clients.set changes ⟨map, within, held'⟩ fun j c _ may => may
    have knows₁ : Knows laws p₁ known := knows.kept keeps clients₁
    cases out₁ with
    | none =>
      obtain ⟨p₂, reports, stops⟩ := bind_returns goesOn
      cases stops
      obtain ⟨keeps₂, same⟩ := setIndexError_returns reports
      refine ⟨knows.kept (keeps.trans keeps₂) fun j c there => clients₁ j c (same ▸ there), ?_⟩
      intro values wrong
      cases wrong
    | some mb =>
      obtain ⟨here, rfl, lists⟩ := shows mb rfl
      have mine : ∀ key ∈ here, i % p.hostNum = p.getKeyHostIndex key ∧
          laws.isMatch pattern key ∧ ∃ value, some value ∈ known key := by
        intro key member
        obtain ⟨there, matched⟩ := (lists.mem_iff key).mp member
        obtain ⟨host, some⟩ := Shards.isSome_shard.mp there
        obtain ⟨value, same⟩ := Option.isSome_iff_exists.mp some
        exact ⟨host.symm, matched, value, same ▸ within key⟩
      obtain ⟨firstApart, apart⟩ := List.nodup_cons.mp apart
      change Redis2P.keysEach pattern rest (before.map some ++ here.map some) p₁ = _ at goesOn
      rw [← List.map_append] at goesOn
      have hosts := keeps.hostNum
      have index := keeps.getKeyHostIndex
      obtain ⟨knows', answers⟩ := @ih p₁ knows₁ (before ++ here)
        (fun host => isHost host ∨ i % p.hostNum = host) (by rwa [hosts]) (by
          rintro j later (known | same)
          · rw [hosts] at known
            exact new j (List.mem_cons_of_mem i later) known
          · rw [hosts] at same
            exact firstApart (List.mem_map.mpr ⟨j, later, same.symm⟩))
        (List.nodup_append.mpr ⟨nodup, lists.nodup, by
          rintro key member _ later rfl
          have host := (mine key later).1
          exact new i List.mem_cons_self (host ▸ (listed key member).1)⟩)
        (by
          intro key member
          rw [index]
          rcases List.mem_append.mp member with member | member
          · exact ⟨Or.inl (listed key member).1, (listed key member).2⟩
          · exact ⟨Or.inr (mine key member).1, (mine key member).2⟩)
        (by
          intro key host matched there
          rw [index] at host
          rcases host with host | host
          · exact List.mem_append_left _ (all key host matched there)
          · refine List.mem_append_right _ ((lists.mem_iff key).mpr ⟨?_, matched⟩)
            refine Shards.isSome_shard.mpr ⟨host.symm, ?_⟩
            cases value : map key with
            | none => exact absurd (value ▸ within key) there
            | some value => rfl) goesOn
      refine ⟨knows', fun values same => ?_⟩
      obtain ⟨found, rfl, nodup, listed, all⟩ := answers values same
      refine ⟨found, rfl, nodup, listed, fun key host => ?_⟩
      apply all
      rw [hosts, index]
      rcases host with host | ⟨j, member, host⟩
      · exact Or.inl (Or.inl host)
      · rcases List.mem_cons.mp member with rfl | later
        · exact Or.inl (Or.inr host)
        · exact Or.inr ⟨j, later, host⟩

/-- `keys`. -/
theorem Knows.keys (knows : Knows laws p known) {t : ThreadId} {pattern : Bytes}
    (short : laws.fitsPattern pattern) {out : Option Mbulk}
    (returns : p.keys t pattern = .ok (out, p')) :
    Knows laws p' known ∧ ∀ values, out = some values →
      ∃ found, values = found.map some ∧ ListsKnown laws.isMatch known pattern found := by
  obtain ⟨hosts, inside⟩ := knows.configured.groupClients_hosts t
  unfold Redis2P.keys at returns
  rw [knows.configured.getGroupClient_eq] at returns
  have apart : ((p.groupClients t).map (· % p.hostNum)).Nodup := by
    rw [hosts]
    exact List.nodup_range
  have nothing : ∀ key, ¬ key ∈ ([] : List Bytes) := fun key => List.not_mem_nil
  obtain ⟨knows', answers⟩ := @Knows.keysEach _ _ _ _ p p' knows pattern short _ [] (fun _ => False)
    apart (fun _ _ => id) List.nodup_nil (fun key member => absurd member (nothing key))
    (fun _ wrong => wrong.elim) out returns
  refine ⟨knows', fun values same => ?_⟩
  obtain ⟨found, shows, nodup, listed, all⟩ := answers values same
  refine ⟨found, shows, nodup, listed, fun key matched there => all key (Or.inr ?_) matched there⟩
  have member : p.getKeyHostIndex key ∈ (p.groupClients t).map (· % p.hostNum) := by
    rw [hosts, List.mem_range]
    exact knows.configured.getKeyHostIndex_lt key
  exact List.mem_map.mp member

/-- Every call returns what one of the candidates has, and is an attempt at them. -/
theorem Knows.perform (knows : Knows laws p known) {t : ThreadId} {call : MapCall}
    (short : Fits laws call) {result : Option MapResult}
    (returns : p.perform t call = .ok (result, p')) :
    ∃ known', MayReturn laws.isMatch known call result known' ∧ Knows laws p' known' := by
  cases call with
  | set key value =>
    obtain ⟨⟨out, p₁⟩, sets, same⟩ := map_returns returns
    cases same
    obtain ⟨known', tries, knows'⟩ := knows.set short sets
    exact ⟨known', ⟨out, tries, rfl⟩, knows'⟩
  | mset keys values =>
    obtain ⟨⟨out, p₁⟩, sets, same⟩ := map_returns returns
    cases same
    unfold Redis2P.mset at sets
    rw [checkExpr] at sets
    by_cases equal : keys.length = values.length
    · rw [if_pos (by simpa using equal)] at sets
      obtain ⟨outs, known', each, rfl, knows'⟩ := knows.msetEach short sets
      refine ⟨known', ?_, knows'⟩
      rw [MayReturn, if_pos equal]
      exact ⟨outs, each, by rw [Option.map_map]; rfl⟩
    · rw [if_neg (by simpa using equal)] at sets
      cases sets
      refine ⟨known, ?_, knows.withError _⟩
      rw [MayReturn, if_neg equal]
      exact ⟨rfl, rfl⟩
  | get key =>
    obtain ⟨⟨out, p₁⟩, gets, same⟩ := map_returns returns
    cases same
    obtain ⟨known', tries, knows'⟩ := knows.get short gets
    exact ⟨known', ⟨out, tries, rfl⟩, knows'⟩
  | mget keys =>
    obtain ⟨⟨out, p₁⟩, gets, same⟩ := map_returns returns
    cases same
    obtain ⟨outs, known', each, rfl, knows'⟩ := knows.mgetEach short gets
    refine ⟨known', ⟨outs, each, ?_⟩, knows'⟩
    rw [Option.map_map]
    rfl
  | «exists» key =>
    obtain ⟨⟨out, p₁⟩, asks, same⟩ := map_returns returns
    cases same
    obtain ⟨known', tries, knows'⟩ := knows.exists_ short asks
    exact ⟨known', ⟨out, tries, rfl⟩, knows'⟩
  | del key =>
    obtain ⟨⟨out, p₁⟩, deletes, same⟩ := map_returns returns
    cases same
    obtain ⟨known', tries, knows'⟩ := knows.del short deletes
    exact ⟨known', ⟨out, tries, rfl⟩, knows'⟩
  | delKeys keys =>
    obtain ⟨⟨out, p₁⟩, deletes, same⟩ := map_returns returns
    cases same
    by_cases none : keys = []
    · subst none
      cases deletes
      refine ⟨known, ?_, knows.withError _⟩
      rw [MayReturn, if_pos rfl]
      exact ⟨rfl, rfl⟩
    · unfold Redis2P.delKeys at deletes
      rw [getKeysClient_eq p none] at deletes
      obtain ⟨outs, known', each, rfl, knows'⟩ := Knows.delEach (.refl p) knows short deletes
      refine ⟨known', ?_, knows'⟩
      rw [MayReturn, if_neg none]
      refine ⟨outs, each, ?_⟩
      rw [Option.map_map]
      simp [Function.comp_def]
  | keys pattern =>
    obtain ⟨⟨out, p₁⟩, asks, same⟩ := map_returns returns
    cases same
    obtain ⟨knows', answers⟩ := knows.keys short asks
    refine ⟨known, ⟨rfl, fun listed same => ?_⟩, knows'⟩
    obtain ⟨values, rfl, rfl⟩ := Option.map_eq_some_iff.mp same
    obtain ⟨found, rfl, lists⟩ := answers values rfl
    exact ⟨found, rfl, lists⟩

/-- A call with its result, by any thread. -/
def Performs (laws : FallibleValue κ) (p : Redis2P κ) (label : MapCall × Option MapResult)
    (p' : Redis2P κ) : Prop :=
  Fits laws label.1 ∧ ∃ t, p.perform t label.1 = .ok (label.2, p')

/-- Along every run the results are those of candidates. -/
theorem Knows.run (knows : Knows laws p known) {labels : List (MapCall × Option MapResult)}
    (run : Simulation.Run (Performs laws) p labels p') :
    ∃ known', Simulation.Run (fun known label known' =>
      MayReturn laws.isMatch known label.1 label.2 known') known labels known' ∧
      Knows laws p' known' := by
  refine Simulation.Forward.run ?_ run knows
  rintro p known ⟨call, result⟩ p' knows ⟨short, t, performs⟩
  exact knows.perform short performs

/-- Calls one after the other are a run. -/
theorem run_of_performAll {calls : List (ThreadId × MapCall)}
    (short : ∀ call ∈ calls, Fits laws call.2) {results : List (Option MapResult)}
    (returns : performAll calls p = .ok (results, p')) :
    Simulation.Run (Performs laws) p ((calls.map Prod.snd).zip results) p' := by
  induction calls generalizing p results with
  | nil =>
    cases returns
    exact .done _
  | cons call rest ih =>
    obtain ⟨⟨result, p₁⟩, performs, goesOn⟩ := bind_returns returns
    obtain ⟨⟨more, p₂⟩, behind, same⟩ := bind_returns goesOn
    cases same
    refine .step ⟨short call List.mem_cons_self, call.1, performs⟩ ?_
    exact ih (fun later member => short later (List.mem_cons_of_mem _ member)) behind

end Loops

section Certain

variable {isMatch : Bytes → Bytes → Bool} {map : Bytes → Option Bytes}

/-- Whether a call only reads. -/
def readsMap : MapCall → Bool
  | .get _ | .mget _ | .exists _ | .keys _ => true
  | .set _ _ | .mset _ _ | .del _ | .delKeys _ => false

/-- What a call returns and leaves on one map, where it may fail if it only reads. -/
def ReturnsOrFails (isMatch : Bytes → Bytes → Bool) (map : Bytes → Option Bytes)
    (label : MapCall × Option MapResult) (map' : Bytes → Option Bytes) : Prop :=
  match label.2 with
  | some result => Returns isMatch map label.1 result map'
  | none => readsMap label.1 = true ∧ map' = map

/-- Values are stored one after the other. -/
theorem makeEach_onSet (pairs : List (Bytes × Bytes)) (map : Bytes → Option Bytes) :
    (makeEach onSet pairs map).2 = storeAll map pairs := by
  induction pairs generalizing map with
  | nil => rfl
  | cons pair rest ih => exact ih _

/-- Values are looked up one after the other. -/
theorem makeEach_onGet (keys : List Bytes) (map : Bytes → Option Bytes) :
    (makeEach (fun _ : Unit => onGet) (keys.map (·, ())) map).1 = keys.map map := by
  induction keys generalizing map with
  | nil => rfl
  | cons key rest ih =>
    refine congrArg (map key :: ·) ((ih _).trans ?_)
    rw [Function.update_eq_self]

/-- Keys are removed one after the other, and counted where they are there. -/
theorem makeEach_onDel (keys : List Bytes) (map : Bytes → Option Bytes) :
    (makeEach (fun _ : Unit => onDel) (keys.map (·, ())) map).1.sum = countLive map keys ∧
      (makeEach (fun _ : Unit => onDel) (keys.map (·, ())) map).2 = removeAll map keys := by
  induction keys generalizing map with
  | nil => exact ⟨by simp [makeEach, countLive], (Shards.removeAll_nil map).symm⟩
  | cons key rest ih =>
    obtain ⟨count, removed⟩ := ih (Function.update map key none)
    refine ⟨?_, removed.trans (Shards.removeAll_cons map key rest).symm⟩
    rw [Shards.countLive_cons]
    change (if (map key).isSome then 1 else 0) + List.sum _ = _
    rw [count]
    push_cast
    rfl

/-- Where one map is known, a call that succeeds returns what this returns, and one map is known
behind it; one that only reads leaves it. -/
theorem certain {call : MapCall} {result : Option MapResult} {known' : Bytes → Set (Option Bytes)}
    (returns : MayReturn isMatch (only map) call result known')
    (succeeds : readsMap call = true ∨ result.isSome) :
    ∃ map', known' = only map' ∧ ReturnsOrFails isMatch map (call, result) map' := by
  have written (writes : readsMap call = false) (failed : result = none) : False := by
    rcases succeeds with reads | isSome
    · rw [writes] at reads
      cases reads
    · rw [failed] at isSome
      cases isSome
  cases call with
  | set key value =>
    obtain ⟨out, tries, rfl⟩ := returns
    cases out with
    | none => exact (written rfl rfl).elim
    | some out => exact ⟨_, tries.certain.2, rfl, rfl⟩
  | mset keys values =>
    rw [MayReturn] at returns
    split_ifs at returns
    · obtain ⟨outs, tries, rfl⟩ := returns
      cases outs with
      | none => exact (written rfl rfl).elim
      | some outs => exact ⟨_, tries.certain.2, rfl, makeEach_onSet _ _⟩
    · exact (written rfl returns.1).elim
  | get key =>
    obtain ⟨out, tries, rfl⟩ := returns
    refine ⟨map, tries.reads fun _ => rfl, ?_⟩
    cases out with
    | none => exact ⟨rfl, rfl⟩
    | some out => exact ⟨congrArg _ tries.certain.1, rfl⟩
  | mget keys =>
    obtain ⟨outs, tries, rfl⟩ := returns
    refine ⟨map, tries.reads fun _ _ => rfl, ?_⟩
    cases outs with
    | none => exact ⟨rfl, rfl⟩
    | some outs => exact ⟨congrArg _ (tries.certain.1.trans (makeEach_onGet keys map)), rfl⟩
  | «exists» key =>
    obtain ⟨out, tries, rfl⟩ := returns
    refine ⟨map, tries.reads fun _ => rfl, ?_⟩
    cases out with
    | none => exact ⟨rfl, rfl⟩
    | some out => exact ⟨congrArg _ tries.certain.1, rfl⟩
  | del key =>
    obtain ⟨out, tries, rfl⟩ := returns
    cases out with
    | none => exact (written rfl rfl).elim
    | some out => exact ⟨_, tries.certain.2, congrArg _ tries.certain.1, rfl⟩
  | delKeys keys =>
    rw [MayReturn] at returns
    split_ifs at returns
    · exact (written rfl returns.1).elim
    · obtain ⟨outs, tries, rfl⟩ := returns
      cases outs with
      | none => exact (written rfl rfl).elim
      | some outs =>
        obtain ⟨shows, same⟩ := tries.certain
        obtain ⟨count, removed⟩ := makeEach_onDel keys map
        refine ⟨_, same, ?_, removed⟩
        rw [shows]
        exact congrArg MapResult.count count
  | keys pattern =>
    obtain ⟨same, answers⟩ := returns
    refine ⟨map, same, ?_⟩
    cases result with
    | none => exact ⟨rfl, rfl⟩
    | some listed =>
      obtain ⟨found, rfl, lists⟩ := answers listed rfl
      refine ⟨rfl, found, rfl, lists.nodup, fun key => ⟨fun member => ?_, ?_⟩⟩
      · obtain ⟨matched, value, there⟩ := lists.mayBe key member
        have here : map key = some value := there.symm
        rw [here]
        exact ⟨rfl, matched⟩
      · rintro ⟨there, matched⟩
        refine lists.all key matched fun missing => ?_
        have absent : map key = none := Eq.symm missing
        rw [absent] at there
        cases there

/-- So where every call that writes succeeds, a run of candidates is one of one map. -/
theorem certain_run {labels : List (MapCall × Option MapResult)}
    {known' : Bytes → Set (Option Bytes)}
    (run : Simulation.Run (fun known label known' => MayReturn isMatch known label.1 label.2 known')
      (only map) labels known')
    (succeed : ∀ label ∈ labels, readsMap label.1 = true ∨ label.2.isSome) :
    ∃ map', Simulation.Run (ReturnsOrFails isMatch) map labels map' := by
  generalize same : only map = known at run
  induction run generalizing map with
  | done => exact ⟨map, .done map⟩
  | step head tail ih =>
    subst same
    obtain ⟨map₁, rfl, returns⟩ := certain head (succeed _ List.mem_cons_self)
    obtain ⟨map', behind⟩ :=
      ih (fun later member => succeed later (List.mem_cons_of_mem _ member)) rfl
    exact ⟨map', .step returns behind⟩

end Certain

end Redis2P

end LibRedis
