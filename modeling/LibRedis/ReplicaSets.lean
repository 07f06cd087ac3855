import LibRedis.KeyRouting

/-!
# The replicas of a key

Three functions choose the clients of a key: `__get_key_client` for a call, in an order that
depends on the thread, `__get_keys_client` for a call about several keys, and `get_key_client` for
the user. All name the clients at the place of the key's host in every group, and these sets are a
partition of all clients.
-/

namespace LibRedis

open Decimal (ascii)

namespace Redis2P

variable {κ : Type}

/-- `get_index_client`: the clients at this place in every group. -/
def getIndexClient (r : Redis2P κ) (hostIndex : Nat) : Except Abort (Bool × List κ × Redis2P κ) :=
  match (List.range r.groups).mapM fun i => r.redis2SpVector[hostIndex + r.hostNum * i]? with
  | none => .error .outOfBounds
  | some clients => .ok (r.orUnavailable clients)

/-- `get_key_client`, which hands the clients of a key to the user. -/
def getKeyClientSp (r : Redis2P κ) (key : Bytes) : Except Abort (Bool × List κ × Redis2P κ) :=
  r.getIndexClient (r.getKeyHostIndex key)

/-- The clients with the key's host, from the first group on. -/
def replicaSet (r : Redis2P κ) (hostIndex : Nat) : List Nat :=
  Grid.column r.groups r.hostNum hostIndex

/-- What the three functions choose covers every replica of a key once. -/
structure CoversReplicas (r : Redis2P κ) : Prop where
  /-- A key has a host. -/
  host : ∀ key, r.getKeyHostIndex key < r.hostNum
  /-- Whatever the thread, `__get_key_client` chooses the replicas of the key, each once. -/
  chosen : ∀ (t : ThreadId) (key : Bytes), ∃ indexes,
    r.getKeyClient t key true = (true, indexes, r) ∧
      indexes.Perm (r.replicaSet (r.getKeyHostIndex key)) ∧ indexes.Nodup ∧
      ∀ i ∈ indexes, i < r.redis2SpVector.length
  /-- What it chooses for keys with different hosts has nothing in common. -/
  apart : ∀ (t t' : ThreadId) (key key' : Bytes), r.getKeyHostIndex key ≠ r.getKeyHostIndex key' →
    (r.getKeyClient t key true).2.1.Disjoint (r.getKeyClient t' key' true).2.1
  /-- `__get_keys_client` chooses them for each of some keys. -/
  rows : ∀ keys, keys ≠ [] → r.getKeysClient keys true =
    .ok (true, keys.map fun key => r.replicaSet (r.getKeyHostIndex key), r)
  /-- And `get_key_client` hands out these clients. -/
  clients : ∀ key, ∃ clients, r.getKeyClientSp key = .ok (true, clients, r) ∧
    clients.map some =
      (r.replicaSet (r.getKeyHostIndex key)).map fun i => r.redis2SpVector[i]?
  /-- The replicas of the hosts are a partition of all clients. -/
  partition : (List.range r.redis2SpVector.length).Perm
    ((List.range r.hostNum).flatMap r.replicaSet)

/-- Places that all have a client have their clients. -/
theorem mapM_getElem? {clients : List κ} {indexes : List Nat}
    (inside : ∀ i ∈ indexes, i < clients.length) :
    ∃ found, indexes.mapM (fun i => clients[i]?) = some found ∧
      found.map some = indexes.map fun i => clients[i]? := by
  induction indexes with
  | nil => exact ⟨[], rfl, rfl⟩
  | cons i rest ih =>
    obtain ⟨found, finds, same⟩ := ih fun j later => inside j (List.mem_cons_of_mem i later)
    have within : i < clients.length := inside i List.mem_cons_self
    have here : clients[i]? = some clients[i] := List.getElem?_eq_getElem within
    refine ⟨clients[i] :: found, ?_, ?_⟩
    · rw [List.mapM_cons, here, finds]
      rfl
    · rw [List.map_cons, List.map_cons, here, same]

/-- An object that the constructor has made chooses so. -/
theorem Configured.coversReplicas {r : Redis2P κ} (configured : r.Configured) :
    r.CoversReplicas := by
  have inside (key : Bytes) :
      ∀ i ∈ r.replicaSet (r.getKeyHostIndex key), i < r.redis2SpVector.length := by
    intro i member
    rw [configured.length]
    exact ((Grid.mem_column (configured.getKeyHostIndex_lt key)).mp member).1
  refine ⟨configured.getKeyHostIndex_lt, ?_, ?_, ?_, ?_, ?_⟩
  · intro t key
    have perm := replicas_perm r t.seed key
    refine ⟨_, configured.getKeyClient_eq t key, perm, configured.replicas_nodup _ _, ?_⟩
    intro i member
    exact inside key i (perm.mem_iff.mp member)
  · intro t t' key key' other
    rw [configured.getKeyClient_eq, configured.getKeyClient_eq]
    intro i member member'
    have here := (replicas_perm r t.seed key).mem_iff.mp member
    have there := (replicas_perm r t'.seed key').mem_iff.mp member'
    exact Grid.column_disjoint (configured.getKeyHostIndex_lt key)
      (configured.getKeyHostIndex_lt key') other here there
  · intro keys some
    have rows : keys.map (r.replicas 0) =
        keys.map fun key => r.replicaSet (r.getKeyHostIndex key) := by
      apply List.map_congr_left
      intro key _
      rw [replicas_eq, List.rotate_zero]
      rfl
    rw [getKeysClient_eq r some, rows]
  · intro key
    obtain ⟨clients, found, same⟩ := mapM_getElem? (inside key)
    refine ⟨clients, ?_, same⟩
    have some : clients ≠ [] := by
      intro none
      rw [none] at same
      have length := congrArg List.length same
      have groups := configured.groups
      simp [replicaSet] at length
      omega
    have reads : ((List.range r.groups).mapM fun i =>
        r.redis2SpVector[r.getKeyHostIndex key + r.hostNum * i]?) = Option.some clients := by
      rw [← found, replicaSet, Grid.column, List.mapM_map]
      rfl
    rw [getKeyClientSp, getIndexClient, reads]
    simp only [orUnavailable]
    rw [if_neg (by simpa using some)]
  · rw [configured.length]
    exact Grid.columns_perm configured.hostNum r.groups

/-- Every object that was constructed, whatever was called since, chooses the replicas of a key
once, and they are the same for every thread and every function. -/
theorem new_coversReplicas {hostList portList : Bytes} {dbIndex : Int32} {timeoutMs : Int}
    {partitions : Int32} {hashFn : Bytes → UInt32}
    {newRedis2 : Nat → Bytes → Bytes → Int32 → Int → κ} {made r : Redis2P κ}
    (accepted : new hostList portList dbIndex timeoutMs partitions hashFn newRedis2 = .ok made)
    (since : made.Keeps r) : r.CoversReplicas :=
  (since.configured (new_configured accepted).1).coversReplicas

/-- Four hosts in two groups. -/
theorem new_coversReplicas_four : ∃ r : Redis2P Nat,
    new (ascii "a,b,c,d") (ascii "6379") 0 50 2 (fun _ => 5) (fun i _ _ _ _ => i) = .ok r ∧
      r.CoversReplicas := by
  obtain ⟨r, accepted⟩ : ∃ r : Redis2P Nat, new (ascii "a,b,c,d") (ascii "6379") 0 50 2 (fun _ => 5)
      (fun i _ _ _ _ => i) = .ok r := ⟨_, rfl⟩
  exact ⟨r, accepted, new_coversReplicas accepted (Keeps.refl r)⟩

end Redis2P

end LibRedis
