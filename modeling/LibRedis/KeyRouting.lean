import LibRedis.Lib.Grid
import LibRedis.Redis2P
import Mathlib.Data.List.Rotate

/-!
# Where calls go

A call about a key goes to the clients at the position of its host in every group. `Clients` says
something of every client by its place, and there is one lemma for each of the two loops: what a
call makes of the clients that it is for, the loop makes of all of them.
-/

namespace LibRedis

namespace KeyMethod

/-- Whether the client for several servers needs every group for a method. -/
def writes {α : Type} : KeyMethod α → Bool
  | .dump | .exists | .pttl | .sort _ | .ttl | .type => false
  | .get | .getbit _ | .getrange _ _ | .strlen => false
  | .hexists _ | .hget _ | .hgetall | .hkeys | .hlen | .hmget _ | .hvals => false
  | .lindex _ | .llen | .lrange _ _ => false
  | .scard | .sismember _ | .smembers | .srandmember => false
  | .zcard | .zcount _ _ | .zrange _ _ _ | .zrevrange _ _ _ | .zrangebyscore _ _ _ _
  | .zrevrangebyscore _ _ _ _ | .zrank _ | .zrevrank _ | .zscore _ => false
  | _ => true

/-- What a method checks before it calls anybody. -/
def checks {α : Type} : KeyMethod α → Bool
  | .hmset fields values => fields.length = values.length
  | .zaddMembers scores members => scores.length = members.length
  | _ => true

/-- The method of the clients that the method of this name calls. -/
def forwarded {α : Type} : KeyMethod α → KeyMethod α
  | .hsetnx field value => .hset field value
  | m => m

/-- The arguments of `hsetnx`. -/
def hsetnxArgs {α : Type} : KeyMethod α → Option (Bytes × Bytes)
  | .hsetnx field value => some (field, value)
  | _ => none

/-- Every method but `hsetnx` calls the method of its name. -/
theorem forwarded_eq {α : Type} {m : KeyMethod α} (other : m.hsetnxArgs = none) :
    m.forwarded = m := by
  cases m with
  | hsetnx field value => cases other
  | _ => rfl

end KeyMethod

namespace Redis2P

variable {κ : Type}

/-- What a constructor that has not thrown leaves: hosts in every group, and a client for each. -/
structure Configured (r : Redis2P κ) : Prop where
  /-- There is a group. -/
  groups : 0 < r.groups
  /-- A group has a host. -/
  hostNum : 0 < r.hostNum
  /-- Every group has as many. -/
  length : r.redis2SpVector.length = r.groups * r.hostNum

/-- The hosts and the ports match when the constructor goes on. -/
theorem length_parseHosts {hostList portList : Bytes} {hosts ports : List Bytes}
    (parses : parseHosts hostList portList = .ok (hosts, ports)) :
    hosts.length = ports.length ∧ hosts.length ≠ 0 := by
  have some : (hostList.splitOn 44).length ≠ 0 := by
    simp [List.length_eq_zero_iff, List.splitOn_ne_nil]
  simp only [parseHosts] at parses
  split at parses
  · cases parses
  · rename_i matched
    split at parses
    · rename_i single
      cases parses
      refine ⟨?_, some⟩
      simp only [List.length_append, List.length_replicate]
      omega
    · rename_i several
      cases parses
      refine ⟨?_, some⟩
      omega

/-- What `inner_init` accepts. -/
theorem countGroups_ok {hosts partitions groups : Nat}
    (counts : countGroups hosts partitions = .ok groups) :
    groups = hosts / partitions ∧ 0 < groups ∧ hosts % groups = 0 := by
  simp only [countGroups] at counts
  split at counts
  · cases counts
  · split at counts
    · cases counts
    · split at counts
      · cases counts
      · rename_i positive divides
        cases counts
        refine ⟨rfl, Nat.pos_of_ne_zero positive, not_not.mp divides⟩

/-- The object that the constructor makes, unless it throws. -/
theorem new_configured {hostList portList : Bytes} {dbIndex : Int32} {timeoutMs : Int}
    {partitions : Int32} {hashFn : Bytes → UInt32}
    {newRedis2 : Nat → Bytes → Bytes → Int32 → Int → κ} {r : Redis2P κ}
    (accepted : new hostList portList dbIndex timeoutMs partitions hashFn newRedis2 = .ok r) :
    r.Configured ∧ ∀ i (client : κ), r.redis2SpVector[i]? = some client →
      ∃ host port, client = newRedis2 i host port dbIndex timeoutMs := by
  obtain ⟨⟨hosts, ports⟩, parses, accepted⟩ := bind_returns accepted
  obtain ⟨groups, counts, accepted⟩ := bind_returns accepted
  obtain ⟨matched, some⟩ := length_parseHosts parses
  obtain ⟨quotient, positive, divides⟩ := countGroups_ok counts
  cases accepted
  have length (make : Nat → Bytes × Bytes → κ) :
      ((hosts.zip ports).mapIdx make).length = hosts.length := by
    simp [matched]
  have whole : hosts.length = groups * (hosts.length / groups) := by
    rw [Nat.mul_div_cancel' (Nat.dvd_of_mod_eq_zero divides)]
  constructor
  · refine ⟨positive, ?_, ?_⟩
    · rw [hostNum, length]
      exact Nat.div_pos (Nat.le_of_dvd (by omega) (Nat.dvd_of_mod_eq_zero divides)) positive
    · rw [hostNum, length]
      exact whole
  · intro i client found
    simp only [List.getElem?_mapIdx, Option.map_eq_some_iff] at found
    obtain ⟨⟨host, port⟩, -, rfl⟩ := found
    exact ⟨host, port, rfl⟩

/-- The clients that a call about a key is for. -/
def replicas (r : Redis2P κ) (seed : Nat) (key : Bytes) : List Nat :=
  (List.range r.groups).map fun i => r.getKeyHostIndex key + r.hostNum * ((seed + i) % r.groups)

/-- A client is found from its group and its host. -/
theorem Configured.place {r : Redis2P κ} (configured : r.Configured) {host group : Nat}
    (isHost : host < r.hostNum) (isGroup : group < r.groups) :
    host + r.hostNum * group < r.redis2SpVector.length ∧
      (host + r.hostNum * group) % r.hostNum = host ∧
      (host + r.hostNum * group) / r.hostNum = group := by
  refine ⟨?_, ?_, ?_⟩
  · rw [configured.length]
    calc
      host + r.hostNum * group < r.hostNum + r.hostNum * group := by omega
      _ = (group + 1) * r.hostNum := by ring
      _ ≤ r.groups * r.hostNum := Nat.mul_le_mul_right _ isGroup
  · rw [Nat.add_mul_mod_self_left, Nat.mod_eq_of_lt isHost]
  · rw [Nat.add_mul_div_left _ _ configured.hostNum, Nat.div_eq_of_lt isHost, Nat.zero_add]

/-- A key has a host. -/
theorem Configured.getKeyHostIndex_lt {r : Redis2P κ} (configured : r.Configured) (key : Bytes) :
    r.getKeyHostIndex key < r.hostNum :=
  Nat.mod_lt _ configured.hostNum

/-- The groups come one after the other, from that of the seed on. -/
theorem replicas_eq (r : Redis2P κ) (seed : Nat) (key : Bytes) :
    r.replicas seed key = ((List.range r.groups).rotate seed).map fun group =>
      r.getKeyHostIndex key + r.hostNum * group := by
  have turns : ((List.range r.groups).map fun i => (seed + i) % r.groups) =
      (List.range r.groups).rotate seed := by
    apply List.ext_getElem
    · simp
    · intro i _ _
      simp [List.getElem_rotate, Nat.add_comm]
  rw [← turns, List.map_map]
  rfl

/-- They are the clients at the place of the key's host in every group, in another order. -/
theorem replicas_perm (r : Redis2P κ) (seed : Nat) (key : Bytes) :
    (r.replicas seed key).Perm (Grid.column r.groups r.hostNum (r.getKeyHostIndex key)) := by
  rw [replicas_eq]
  exact (List.rotate_perm _ seed).map _

/-- A call is for the host of its key in every group. -/
theorem Configured.mem_replicas {r : Redis2P κ} (configured : r.Configured) {seed : Nat}
    {key : Bytes} {i : Nat} : i ∈ r.replicas seed key ↔
      i < r.redis2SpVector.length ∧ i % r.hostNum = r.getKeyHostIndex key := by
  rw [(replicas_perm r seed key).mem_iff, Grid.mem_column (configured.getKeyHostIndex_lt key),
    ← configured.length]

/-- It is for each of them once. -/
theorem Configured.replicas_nodup {r : Redis2P κ} (configured : r.Configured) (seed : Nat)
    (key : Bytes) : (r.replicas seed key).Nodup :=
  (replicas_perm r seed key).nodup_iff.mpr (Grid.column_nodup configured.hostNum _)

/-- There is one to call. -/
theorem Configured.replicas_ne_nil {r : Redis2P κ} (configured : r.Configured) (seed : Nat)
    (key : Bytes) : r.replicas seed key ≠ [] := by
  have := configured.groups
  simp only [replicas, ne_eq, List.map_eq_nil_iff, List.range_eq_nil]
  omega

/-- These are what `__get_key_client` chooses. -/
theorem Configured.getKeyClient_eq {r : Redis2P κ} (configured : r.Configured) (t : ThreadId)
    (key : Bytes) : r.getKeyClient t key true = (true, r.replicas t.seed key, r) := by
  have some := configured.replicas_ne_nil t.seed key
  change r.orUnavailable (r.replicas t.seed key) = _
  rw [orUnavailable, if_neg (by simpa using some)]

/-- These are what `__get_keys_client` chooses for each of some keys, from the first group on. -/
theorem getKeysClient_eq (r : Redis2P κ) {keys : List Bytes} (some : keys ≠ []) :
    r.getKeysClient keys true = .ok (true, keys.map (r.replicas 0), r) := by
  have chosen : (keys.map fun key => (List.range r.groups).map fun j =>
      r.getKeyHostIndex key + r.hostNum * j) = keys.map (r.replicas 0) := by
    apply List.map_congr_left
    intro key _
    apply List.map_congr_left
    intro j member
    rw [Nat.zero_add, Nat.mod_eq_of_lt (List.mem_range.mp member)]
  rw [getKeysClient, if_neg (by simp), chosen, orUnavailable, if_neg (by simpa using some)]

/-- The clients of one group. -/
def groupClients (r : Redis2P κ) (t : ThreadId) : List Nat :=
  (List.range r.hostNum).map fun i => (if 1 < r.groups then t.seed % r.groups * r.hostNum else 0) + i

/-- There is one of them for each host. -/
theorem Configured.groupClients_hosts {r : Redis2P κ} (configured : r.Configured) (t : ThreadId) :
    (r.groupClients t).map (· % r.hostNum) = List.range r.hostNum ∧
      ∀ i ∈ r.groupClients t, i < r.redis2SpVector.length := by
  have start : ∃ group < r.groups,
      (if 1 < r.groups then t.seed % r.groups * r.hostNum else 0) = group * r.hostNum := by
    split_ifs with several
    · exact ⟨_, Nat.mod_lt _ configured.groups, rfl⟩
    · exact ⟨0, configured.groups, (Nat.zero_mul _).symm⟩
  obtain ⟨group, isGroup, start⟩ := start
  unfold groupClients
  rw [start]
  constructor
  · rw [List.map_map]
    conv_rhs => rw [← List.map_id (List.range r.hostNum)]
    apply List.map_congr_left
    intro i member
    have isHost := List.mem_range.mp member
    change (group * r.hostNum + i) % r.hostNum = i
    rw [Nat.add_comm, Nat.add_mul_mod_self_right, Nat.mod_eq_of_lt isHost]
  · intro i member
    obtain ⟨host, isHost, rfl⟩ := List.mem_map.mp member
    rw [Nat.add_comm, Nat.mul_comm]
    exact (configured.place (List.mem_range.mp isHost) isGroup).1

/-- These are what `__get_group_client` chooses. -/
theorem Configured.getGroupClient_eq {r : Redis2P κ} (configured : r.Configured) (t : ThreadId) :
    r.getGroupClient t = (true, r.groupClients t, r) := by
  have some : r.groupClients t ≠ [] := by
    have := configured.hostNum
    simp only [groupClients, ne_eq, List.map_eq_nil_iff, List.range_eq_nil]
    omega
  change r.orUnavailable (r.groupClients t) = _
  rw [orUnavailable, if_neg (by simpa using some)]

/-- Calls change the clients and the error text only. -/
structure Keeps (r r' : Redis2P κ) : Prop where
  /-- The hash stays. -/
  hashFn : r'.hashFn = r.hashFn
  /-- The number of groups stays. -/
  groups : r'.groups = r.groups
  /-- There are as many clients. -/
  length : r'.redis2SpVector.length = r.redis2SpVector.length

/-- Nothing is changed where nothing is done. -/
@[simp] theorem Keeps.refl (r : Redis2P κ) : r.Keeps r := ⟨rfl, rfl, rfl⟩

/-- What two calls keep is kept. -/
theorem Keeps.trans {r r' r'' : Redis2P κ} (first : r.Keeps r') (second : r'.Keeps r'') :
    r.Keeps r'' where
  hashFn := second.hashFn.trans first.hashFn
  groups := second.groups.trans first.groups
  length := second.length.trans first.length

/-- What is kept from a common start is kept between the ends. -/
theorem Keeps.between {r r' q q' : Redis2P κ} (left : r.Keeps r') (across : r.Keeps q)
    (right : q.Keeps q') : r'.Keeps q' where
  hashFn := (right.hashFn.trans across.hashFn).trans left.hashFn.symm
  groups := (right.groups.trans across.groups).trans left.groups.symm
  length := (right.length.trans across.length).trans left.length.symm

/-- A group has as many hosts as before. -/
theorem Keeps.hostNum {r r' : Redis2P κ} (keeps : r.Keeps r') : r'.hostNum = r.hostNum := by
  rw [Redis2P.hostNum, Redis2P.hostNum, keeps.length, keeps.groups]

/-- A key has the same host. -/
theorem Keeps.getKeyHostIndex {r r' : Redis2P κ} (keeps : r.Keeps r') (key : Bytes) :
    r'.getKeyHostIndex key = r.getKeyHostIndex key := by
  rw [Redis2P.getKeyHostIndex, Redis2P.getKeyHostIndex, keeps.hostNum, keeps.hashFn]

/-- A call is for the same clients. -/
theorem Keeps.replicas {r r' : Redis2P κ} (keeps : r.Keeps r') (seed : Nat) (key : Bytes) :
    r'.replicas seed key = r.replicas seed key := by
  rw [Redis2P.replicas, Redis2P.replicas, keeps.getKeyHostIndex, keeps.hostNum, keeps.groups]

/-- The object stays as the constructor has made it. -/
theorem Keeps.configured {r r' : Redis2P κ} (keeps : r.Keeps r') (configured : r.Configured) :
    r'.Configured where
  groups := by rw [keeps.groups]; exact configured.groups
  hostNum := by rw [keeps.hostNum]; exact configured.hostNum
  length := by rw [keeps.length, keeps.groups, keeps.hostNum]; exact configured.length

/-- Something holds of every client and its place. -/
def Clients (r : Redis2P κ) (holds : Nat → κ → Prop) : Prop :=
  ∀ i client, r.redis2SpVector[i]? = some client → holds i client

/-- What follows for each client holds for all. -/
theorem Clients.imp {r : Redis2P κ} {holds shows : Nat → κ → Prop} (clients : r.Clients holds)
    (follows : ∀ i client, i < r.redis2SpVector.length → holds i client → shows i client) :
    r.Clients shows := by
  intro i client found
  have inside := (List.getElem?_eq_some_iff.mp found).1
  exact follows i client inside (clients i client found)

/-- A call of one client changes that client. -/
theorem atIndex_returns {β : Type} {r r' : Redis2P κ} {i : Nat} {act : κ → Except Abort (β × κ)}
    {out : β} (returns : r.atIndex i act = .ok (out, r')) :
    r.Keeps r' ∧ ∃ client client', r.redis2SpVector[i]? = some client ∧
      act client = .ok (out, client') ∧ r'.redis2SpVector = r.redis2SpVector.set i client' := by
  unfold atIndex at returns
  split at returns
  · cases returns
  · rename_i client found
    obtain ⟨⟨out', client'⟩, acts, same⟩ := bind_returns returns
    cases same
    exact ⟨⟨rfl, rfl, List.length_set⟩, client, client', found, acts, rfl⟩

/-- What holds of the other clients stays. -/
theorem Clients.set {r r' : Redis2P κ} {holds shows : Nat → κ → Prop} (clients : r.Clients holds)
    {i : Nat} {client' : κ} (changes : r'.redis2SpVector = r.redis2SpVector.set i client')
    (now : shows i client') (others : ∀ j client, j ≠ i → holds j client → shows j client) :
    r'.Clients shows := by
  intro j client found
  rw [changes, List.getElem?_set] at found
  by_cases here : i = j
  · subst here
    rw [if_pos rfl] at found
    split at found
    · cases found
      exact now
    · cases found
  · rw [if_neg here] at found
    exact others j client (Ne.symm here) (clients j client found)

/-- A client that is there can be called. -/
theorem atIndex_succeeds {β : Type} {r : Redis2P κ} {i : Nat} (act : κ → Except Abort (β × κ))
    {client client' : κ} {out : β} (found : r.redis2SpVector[i]? = some client)
    (acts : act client = .ok (out, client')) :
    r.atIndex i act = .ok (out, { r with redis2SpVector := r.redis2SpVector.set i client' }) := by
  unfold atIndex
  rw [found]
  simp only [acts]
  rfl

variable [RedisBase2 κ]

/-- Keeping a text changes no client. -/
theorem setIndexError_returns {r r' : Redis2P κ} {i : Nat} (returns : r.setIndexError i = .ok r') :
    r.Keeps r' ∧ r'.redis2SpVector = r.redis2SpVector := by
  unfold setIndexError at returns
  split at returns
  · cases returns
  · cases returns
    exact ⟨⟨rfl, rfl, rfl⟩, rfl⟩

/-- What a call makes of the clients that it is for, `FOR_EACH_GROUP_WRITE` makes of all of them. -/
theorem writeEach_clients {α : Type} {key : Bytes} {m : KeyMethod α} {holds shows : Nat → κ → Prop}
    {indexes : List Nat} (once : indexes.Nodup)
    (makes : ∀ i ∈ indexes, ∀ client out client', holds i client →
      RedisBase2.call client key m = .ok (some out, client') → shows i client')
    {last : Option α} {r r' : Redis2P κ} {out : α}
    (clients : r.Clients fun i client => if i ∈ indexes then holds i client else shows i client)
    (returns : writeEach key m indexes last r = .ok (some out, r')) :
    r.Keeps r' ∧ r'.Clients shows ∧ (last = some out ∧ indexes = [] ∨
      ∃ i ∈ indexes, ∃ client client', holds i client ∧
        RedisBase2.call client key m = .ok (some out, client')) := by
  induction indexes generalizing r last with
  | nil =>
    cases returns
    have shown : r'.Clients shows := by simpa using clients
    exact ⟨.refl r', shown, Or.inl ⟨rfl, rfl⟩⟩
  | cons i rest ih =>
    obtain ⟨absent, once⟩ := List.nodup_cons.mp once
    obtain ⟨⟨out₁, r₁⟩, calls, goesOn⟩ := bind_returns returns
    obtain ⟨keeps, client, client', found, acts, changes⟩ := atIndex_returns calls
    have before : holds i client := by simpa using clients i client found
    cases out₁ with
    | none =>
      obtain ⟨r₂, -, stops⟩ := bind_returns goesOn
      cases stops
    | some out₁ =>
      have after : shows i client' := makes i List.mem_cons_self client out₁ client' before acts
      have clients₁ : r₁.Clients fun j c => if j ∈ rest then holds j c else shows j c := by
        refine Clients.set clients changes ?_ ?_
        · simpa [absent] using after
        · intro j c other held
          simpa [other] using held
      have makes' : ∀ j ∈ rest, ∀ c out c', holds j c →
          RedisBase2.call c key m = .ok (some out, c') → shows j c' :=
        fun j later => makes j (List.mem_cons_of_mem i later)
      obtain ⟨keeps', shown, answers⟩ := ih once makes' clients₁ goesOn
      refine ⟨keeps.trans keeps', shown, Or.inr ?_⟩
      rcases answers with ⟨same, -⟩ | ⟨j, later, answers⟩
      · cases same
        exact ⟨i, List.mem_cons_self, client, client', before, acts⟩
      · exact ⟨j, List.mem_cons_of_mem i later, answers⟩

/-- What calls leave, whether they succeed or not, `FOR_EACH_GROUP_READ` leaves. -/
theorem readEach_clients {α : Type} {key : Bytes} {m : KeyMethod α} {holds : Nat → κ → Prop}
    {indexes : List Nat}
    (leaves : ∀ i ∈ indexes, ∀ client out client', holds i client →
      RedisBase2.call client key m = .ok (out, client') → holds i client')
    {r r' : Redis2P κ} {out : Option α} (clients : r.Clients holds)
    (returns : readEach key m indexes r = .ok (out, r')) :
    r.Keeps r' ∧ r'.Clients holds ∧ ∀ outputs, out = some outputs →
      ∃ i ∈ indexes, ∃ client client', holds i client ∧
        RedisBase2.call client key m = .ok (some outputs, client') := by
  induction indexes generalizing r with
  | nil =>
    cases returns
    exact ⟨.refl r', clients, nofun⟩
  | cons i rest ih =>
    obtain ⟨⟨out₁, r₁⟩, calls, goesOn⟩ := bind_returns returns
    obtain ⟨keeps, client, client', found, acts, changes⟩ := atIndex_returns calls
    have before : holds i client := clients i client found
    have clients₁ : r₁.Clients holds :=
      clients.set changes (leaves i List.mem_cons_self client out₁ client' before acts)
        fun j c _ held => held
    cases out₁ with
    | none =>
      obtain ⟨r₂, reports, goesOn⟩ := bind_returns goesOn
      obtain ⟨keeps₂, same⟩ := setIndexError_returns reports
      have clients₂ : r₂.Clients holds := fun j c found => clients₁ j c (same ▸ found)
      obtain ⟨keeps', left, answers⟩ :=
        ih (fun j later => leaves j (List.mem_cons_of_mem i later)) clients₂ goesOn
      refine ⟨(keeps.trans keeps₂).trans keeps', left, fun outputs same => ?_⟩
      obtain ⟨j, later, answers⟩ := answers outputs same
      exact ⟨j, List.mem_cons_of_mem i later, answers⟩
    | some out₁ =>
      cases goesOn
      refine ⟨keeps, clients₁, fun outputs same => ?_⟩
      cases same
      exact ⟨i, List.mem_cons_self, client, client', before, acts⟩

/-- `FOR_EACH_GROUP_WRITE` succeeds if each of its calls does. -/
theorem writeEach_succeeds {α : Type} {key : Bytes} {m : KeyMethod α} {holds : Nat → κ → Prop}
    (succeeds : ∀ i client, holds i client →
      ∃ out client', RedisBase2.call client key m = .ok (some out, client'))
    {indexes : List Nat} (once : indexes.Nodup) {last : Option α} {r : Redis2P κ}
    (inside : ∀ i ∈ indexes, i < r.redis2SpVector.length)
    (clients : r.Clients fun i client => i ∈ indexes → holds i client)
    (some : indexes = [] → last ≠ none) :
    ∃ out r', writeEach key m indexes last r = .ok (Option.some out, r') := by
  induction indexes generalizing r last with
  | nil =>
    obtain ⟨out, same⟩ := Option.ne_none_iff_exists'.mp (some rfl)
    exact ⟨out, r, by rw [same]; rfl⟩
  | cons i rest ih =>
    obtain ⟨absent, once⟩ := List.nodup_cons.mp once
    have here := List.getElem?_eq_getElem (inside i List.mem_cons_self)
    obtain ⟨out, client', answers⟩ := succeeds i _ (clients i _ here List.mem_cons_self)
    have calls := atIndex_succeeds (RedisBase2.call · key m) here answers
    let r₁ : Redis2P κ := { r with redis2SpVector := r.redis2SpVector.set i client' }
    have clients₁ : r₁.Clients fun j c => j ∈ rest → holds j c := by
      refine Clients.set clients rfl (fun here => absurd here absent) ?_
      intro j c _ held later
      exact held (List.mem_cons_of_mem i later)
    have inside₁ : ∀ j ∈ rest, j < r₁.redis2SpVector.length := by
      intro j later
      rw [List.length_set]
      exact inside j (List.mem_cons_of_mem i later)
    have goesOn : ∃ out' r', writeEach key m rest (Option.some out) r₁ = .ok (Option.some out', r') :=
      ih once inside₁ clients₁ nofun
    obtain ⟨out', r', rounds⟩ := goesOn
    refine ⟨out', r', ?_⟩
    rw [writeEach, calls]
    exact rounds

/-- The answer of the first client is that of `FOR_EACH_GROUP_READ`, if it has one. -/
theorem readEach_succeeds {α : Type} {key : Bytes} {m : KeyMethod α} {holds : Nat → κ → Prop}
    (succeeds : ∀ i client, holds i client →
      ∃ out client', RedisBase2.call client key m = .ok (some out, client'))
    {indexes : List Nat} {r : Redis2P κ} (inside : ∀ i ∈ indexes, i < r.redis2SpVector.length)
    (clients : r.Clients fun i client => i ∈ indexes → holds i client) (some : indexes ≠ []) :
    ∃ out r', readEach key m indexes r = .ok (Option.some out, r') := by
  cases indexes with
  | nil => exact absurd rfl some
  | cons i rest =>
    have here := List.getElem?_eq_getElem (inside i List.mem_cons_self)
    obtain ⟨out, client', answers⟩ := succeeds i _ (clients i _ here List.mem_cons_self)
    have calls := atIndex_succeeds (RedisBase2.call · key m) here answers
    refine ⟨out, { r with redis2SpVector := r.redis2SpVector.set i client' }, ?_⟩
    rw [readEach, calls]
    rfl

/-- `FOR_EACH_GROUP_WRITE` calls the clients of the key. -/
theorem Configured.forEachGroupWrite_eq {α : Type} {r : Redis2P κ} (configured : r.Configured)
    (t : ThreadId) (key : Bytes) (m : KeyMethod α) :
    r.forEachGroupWrite t key m = writeEach key m (r.replicas t.seed key) none r := by
  unfold forEachGroupWrite
  rw [configured.getKeyClient_eq]
  rfl

/-- `FOR_EACH_GROUP_READ` calls clients of the key. -/
theorem Configured.forEachGroupRead_eq {α : Type} {r : Redis2P κ} (configured : r.Configured)
    (t : ThreadId) (key : Bytes) (m : KeyMethod α) :
    r.forEachGroupRead t key m = readEach key m (r.replicas t.seed key) r := by
  unfold forEachGroupRead
  rw [configured.getKeyClient_eq]
  rfl

/-- What a call makes of the clients at the host of the key, the loop that needs all of them makes
of all. -/
theorem Configured.writeEach_clients {α : Type} {r r' : Redis2P κ} (configured : r.Configured)
    {seed : Nat} {key : Bytes} {m : KeyMethod α} {holds shows : Nat → κ → Prop}
    (makes : ∀ i client out client', i % r.hostNum = r.getKeyHostIndex key → holds i client →
      RedisBase2.call client key m = .ok (some out, client') → shows i client')
    (others : ∀ i client, i % r.hostNum ≠ r.getKeyHostIndex key → holds i client → shows i client)
    (clients : r.Clients holds) {last : Option α} {out : α}
    (returns : writeEach key m (r.replicas seed key) last r = .ok (some out, r')) :
    r.Keeps r' ∧ r'.Clients shows ∧ ∃ i client client', i % r.hostNum = r.getKeyHostIndex key ∧
      holds i client ∧ RedisBase2.call client key m = .ok (some out, client') := by
  have split : r.Clients fun i client =>
      if i ∈ r.replicas seed key then holds i client else shows i client := by
    refine Clients.imp clients fun i client inside held => ?_
    split_ifs with member
    · exact held
    · refine others i client (fun host => member ?_) held
      exact configured.mem_replicas.mpr ⟨inside, host⟩
  obtain ⟨keeps, shown, answers⟩ := Redis2P.writeEach_clients (configured.replicas_nodup seed key)
    (fun i member client out client' => makes i client out client'
      (configured.mem_replicas.mp member).2) split returns
  refine ⟨keeps, shown, ?_⟩
  rcases answers with ⟨-, none⟩ | ⟨i, member, client, client', held, answers⟩
  · exact absurd none (configured.replicas_ne_nil seed key)
  · exact ⟨i, client, client', (configured.mem_replicas.mp member).2, held, answers⟩

/-- What calls leave of the clients at the host of the key, the loop that needs one leaves. -/
theorem Configured.readEach_clients {α : Type} {r r' : Redis2P κ} (configured : r.Configured)
    {seed : Nat} {key : Bytes} {m : KeyMethod α} {holds : Nat → κ → Prop}
    (leaves : ∀ i client out client', i % r.hostNum = r.getKeyHostIndex key → holds i client →
      RedisBase2.call client key m = .ok (out, client') → holds i client')
    (clients : r.Clients holds) {out : Option α}
    (returns : readEach key m (r.replicas seed key) r = .ok (out, r')) :
    r.Keeps r' ∧ r'.Clients holds ∧ ∀ outputs, out = some outputs →
      ∃ i client client', i % r.hostNum = r.getKeyHostIndex key ∧ holds i client ∧
        RedisBase2.call client key m = .ok (some outputs, client') := by
  obtain ⟨keeps, left, answers⟩ := Redis2P.readEach_clients (fun i member client out client' =>
    leaves i client out client' (configured.mem_replicas.mp member).2) clients returns
  refine ⟨keeps, left, fun outputs same => ?_⟩
  obtain ⟨i, member, client, client', held, answers⟩ := answers outputs same
  exact ⟨i, client, client', (configured.mem_replicas.mp member).2, held, answers⟩

/-- Calls that succeed wherever they are made succeed when they are made of the clients of a key. -/
theorem Configured.each_succeeds {α : Type} {r : Redis2P κ} (configured : r.Configured)
    (seed : Nat) {key : Bytes} {m : KeyMethod α} {holds : Nat → κ → Prop}
    (succeeds : ∀ i client, holds i client →
      ∃ out client', RedisBase2.call client key m = .ok (some out, client'))
    (clients : r.Clients holds) (last : Option α) :
    (∃ out r', writeEach key m (r.replicas seed key) last r = .ok (some out, r')) ∧
      ∃ out r', readEach key m (r.replicas seed key) r = .ok (some out, r') := by
  have inside : ∀ i ∈ r.replicas seed key, i < r.redis2SpVector.length :=
    fun i member => (configured.mem_replicas.mp member).1
  have held : r.Clients fun i client => i ∈ r.replicas seed key → holds i client :=
    fun i client found _ => clients i client found
  have some := configured.replicas_ne_nil seed key
  exact ⟨writeEach_succeeds succeeds (configured.replicas_nodup seed key) inside held
    fun none => absurd none some, readEach_succeeds succeeds inside held some⟩

/-- Each method about a key makes its check, and forwards to every group or to the first that
answers. -/
theorem call_eq {α : Type} (r : Redis2P κ) (t : ThreadId) (key : Bytes) (m : KeyMethod α) :
    r.call t key m = r.checkExpr m.checks (if m.writes then r.forEachGroupWrite t key m.forwarded
      else r.forEachGroupRead t key m.forwarded) := by
  cases m <;> rfl

end Redis2P

end LibRedis
