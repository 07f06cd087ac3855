import LibRedis.ServerData

/-!
# Replicas

The groups of a client for several servers are meant to hold the same data. They do along every run
of operations that return true, if no SPOP finds two members or more to choose from: each server
makes a choice of its own.
-/

namespace LibRedis

open Decimal (ascii)
open Resp (Reply)
open RedisProtocol (commandText requestOf)

namespace Redis2P

section Loops

variable {κ : Type}

/-- A result without outputs. -/
def done : Bool × Redis2P κ → Option Unit × Redis2P κ
  | (ok, p) => (if ok then some () else none, p)

/-- The loop over all clients returns true if the operation has outputs. -/
theorem done_returns {result : Except Abort (Bool × Redis2P κ)} {p' : Redis2P κ} {out : Unit}
    (returns : result.map done = .ok (some out, p')) : result = .ok (true, p') := by
  obtain ⟨⟨ok, p⟩, same, ends⟩ := map_returns returns
  cases ok with
  | false => cases ends
  | true =>
    cases ends
    exact same

variable [RedisBase2 κ]

/-- Once a client has failed, the loop over all of them returns false. -/
theorem allEach_false {act : κ → Except Abort (Bool × κ)} {indexes : List Nat} {r r' : Redis2P κ}
    {ret : Bool} (returns : allEach act indexes false r = .ok (ret, r')) : ret = false := by
  induction indexes generalizing r with
  | nil =>
    cases returns
    rfl
  | cons i rest ih =>
    obtain ⟨⟨⟨ok, sp⟩, r₁⟩, -, goesOn⟩ := bind_returns returns
    cases ok with
    | false => exact ih goesOn
    | true => exact ih goesOn

/-- What a call that returns true makes of each client, the loop over all of them makes of all. -/
theorem allEach_clients {act : κ → Except Abort (Bool × κ)} {holds shows : Nat → κ → Prop}
    (makes : ∀ i client client', holds i client → act client = .ok (true, client') →
      shows i client') {indexes : List Nat} (once : indexes.Nodup) {ret : Bool} {r r' : Redis2P κ}
    (clients : r.Clients fun i client => if i ∈ indexes then holds i client else shows i client)
    (returns : allEach act indexes ret r = .ok (true, r')) : r.Keeps r' ∧ r'.Clients shows := by
  induction indexes generalizing r ret with
  | nil =>
    cases returns
    have shown : r'.Clients shows := by simpa using clients
    exact ⟨.refl r', shown⟩
  | cons i rest ih =>
    obtain ⟨absent, once⟩ := List.nodup_cons.mp once
    obtain ⟨⟨⟨ok, sp⟩, r₁⟩, calls, goesOn⟩ := bind_returns returns
    obtain ⟨keeps, client, client', found, acts, changes⟩ := atIndex_returns calls
    obtain ⟨⟨ok', client₁⟩, answers, same⟩ := bind_returns acts
    have made : ((ok', client₁), client₁) = ((ok, sp), client') := Except.ok.inj same
    obtain ⟨⟨rfl, rfl⟩, rfl⟩ := by simpa only [Prod.mk.injEq] using made
    cases ok' with
    | false =>
      have wrong := allEach_false goesOn
      cases wrong
    | true =>
      have before : holds i client := by simpa using clients i client found
      have after : shows i client₁ := makes i client client₁ before answers
      have clients₁ : r₁.Clients fun j c => if j ∈ rest then holds j c else shows j c := by
        refine Clients.set clients changes ?_ ?_
        · simpa [absent] using after
        · intro j c other held
          simpa [other] using held
      obtain ⟨keeps', shown⟩ := ih once clients₁ goesOn
      exact ⟨keeps.trans keeps', shown⟩

/-- What `keys` leaves of each client, the loop over one group leaves. -/
theorem keysEach_clients {pattern : Bytes} {holds : Nat → κ → Prop}
    (leaves : ∀ i client out client', holds i client →
      RedisBase2.keys client pattern = .ok (out, client') → holds i client') {indexes : List Nat}
    {found : Mbulk} {r r' : Redis2P κ} {out : Option Mbulk} (clients : r.Clients holds)
    (returns : keysEach pattern indexes found r = .ok (out, r')) :
    r.Keeps r' ∧ r'.Clients holds := by
  induction indexes generalizing r found with
  | nil =>
    cases returns
    exact ⟨.refl r', clients⟩
  | cons i rest ih =>
    obtain ⟨⟨out₁, r₁⟩, calls, goesOn⟩ := bind_returns returns
    obtain ⟨keeps, client, client', here, acts, changes⟩ := atIndex_returns calls
    have after := leaves i client out₁ client' (clients i client here) acts
    have clients₁ : r₁.Clients holds := clients.set changes after fun j c _ held => held
    cases out₁ with
    | none =>
      obtain ⟨r₂, reports, ends⟩ := bind_returns goesOn
      cases ends
      obtain ⟨keeps₂, same⟩ := setIndexError_returns reports
      exact ⟨keeps.trans keeps₂, fun j c found => clients₁ j c (same ▸ found)⟩
    | some mb =>
      obtain ⟨keeps', left⟩ := ih clients₁ goesOn
      exact ⟨keeps.trans keeps', left⟩

/-- The loops over two groups find the same, if the clients of each host do. -/
theorem keysEach_answers {pattern : Bytes} {holds : Nat → κ → Prop} {hosts : Nat}
    (leaves : ∀ i client out client', holds i client →
      RedisBase2.keys client pattern = .ok (out, client') → holds i client')
    (agree : ∀ i j client₁ client₂ out₁ out₂ client₁' client₂', i % hosts = j % hosts →
      holds i client₁ → holds j client₂ →
      RedisBase2.keys client₁ pattern = .ok (some out₁, client₁') →
      RedisBase2.keys client₂ pattern = .ok (some out₂, client₂') → out₁ = out₂)
    {indexes₁ indexes₂ : List Nat}
    (same : indexes₁.map (· % hosts) = indexes₂.map (· % hosts)) {found : Mbulk}
    {r₁ r₁' r₂ r₂' : Redis2P κ} {out₁ out₂ : Mbulk} (clients₁ : r₁.Clients holds)
    (clients₂ : r₂.Clients holds)
    (returns₁ : keysEach pattern indexes₁ found r₁ = .ok (some out₁, r₁'))
    (returns₂ : keysEach pattern indexes₂ found r₂ = .ok (some out₂, r₂')) : out₁ = out₂ := by
  induction indexes₁ generalizing indexes₂ r₁ r₂ found with
  | nil =>
    have none : indexes₂ = [] := by simpa using same.symm
    subst none
    cases returns₁
    cases returns₂
    rfl
  | cons i rest₁ ih =>
    cases indexes₂ with
    | nil => cases same
    | cons j rest₂ =>
      rw [List.map_cons, List.map_cons, List.cons.injEq] at same
      obtain ⟨⟨out, q₁⟩, calls₁, goesOn₁⟩ := bind_returns returns₁
      obtain ⟨⟨out', q₂⟩, calls₂, goesOn₂⟩ := bind_returns returns₂
      obtain ⟨-, c₁, c₁', here₁, acts₁, changes₁⟩ := atIndex_returns calls₁
      obtain ⟨-, c₂, c₂', here₂, acts₂, changes₂⟩ := atIndex_returns calls₂
      cases out with
      | none =>
        obtain ⟨q, -, ends⟩ := bind_returns goesOn₁
        cases ends
      | some mb =>
        cases out' with
        | none =>
          obtain ⟨q, -, ends⟩ := bind_returns goesOn₂
          cases ends
        | some mb' =>
          have before₁ := clients₁ i c₁ here₁
          have before₂ := clients₂ j c₂ here₂
          have agrees : mb = mb' :=
            agree i j c₁ c₂ mb mb' c₁' c₂' same.1 before₁ before₂ acts₁ acts₂
          subst agrees
          apply ih same.2 _ _ goesOn₁ goesOn₂
          · exact clients₁.set changes₁ (leaves i c₁ _ c₁' before₁ acts₁) fun k c _ held => held
          · exact clients₂.set changes₂ (leaves j c₂ _ c₂' before₂ acts₂) fun k c _ held => held

/-- What `randomkey` leaves of each client, the loop over one group leaves. -/
theorem randomkeyEach_clients {holds : Nat → κ → Prop}
    (leaves : ∀ i client out client', holds i client →
      RedisBase2.randomkey client = .ok (out, client') → holds i client') {indexes : List Nat}
    {r r' : Redis2P κ} {out : Option (Option Bytes)} (clients : r.Clients holds)
    (returns : randomkeyEach indexes r = .ok (out, r')) : r.Keeps r' ∧ r'.Clients holds := by
  induction indexes generalizing r with
  | nil =>
    cases returns
    exact ⟨.refl r', clients⟩
  | cons i rest ih =>
    obtain ⟨⟨out₁, r₁⟩, calls, goesOn⟩ := bind_returns returns
    obtain ⟨keeps, client, client', here, acts, changes⟩ := atIndex_returns calls
    have after := leaves i client out₁ client' (clients i client here) acts
    have clients₁ : r₁.Clients holds := clients.set changes after fun j c _ held => held
    cases out₁ with
    | none =>
      obtain ⟨r₂, reports, goesOn⟩ := bind_returns goesOn
      obtain ⟨keeps₂, same⟩ := setIndexError_returns reports
      have clients₂ : r₂.Clients holds := fun j c found => clients₁ j c (same ▸ found)
      obtain ⟨keeps', left⟩ := ih clients₂ goesOn
      exact ⟨(keeps.trans keeps₂).trans keeps', left⟩
    | some value =>
      cases goesOn
      exact ⟨keeps, clients₁⟩

/-- An operation of the client for several servers. -/
inductive Operation : Type → Type 1 where
  /-- A method about a key. -/
  | call {α : Type} (key : Bytes) (m : KeyMethod α) : Operation α
  /-- `del` of several keys. -/
  | delKeys (keys : List Bytes) : Operation Int
  | keys (pattern : Bytes) : Operation Mbulk
  | randomkey : Operation (Option Bytes)
  | mget (keys : List Bytes) : Operation Mbulk
  | mset (keys values : List Bytes) : Operation Unit
  | select (index : Int32) : Operation Unit
  | flushall : Operation Unit
  | flushdb : Operation Unit

/-- What a thread gets of an operation. -/
def operate {α : Type} (p : Redis2P κ) (t : ThreadId) : Operation α → Answer (Redis2P κ) α
  | .call key m => p.call t key m
  | .delKeys keys => p.delKeys keys
  | .keys pattern => p.keys t pattern
  | .randomkey => p.randomkey t
  | .mget keys => p.mget t keys
  | .mset keys values => p.mset t keys values
  | .select index => (p.select index).map done
  | .flushall => p.flushall.map done
  | .flushdb => p.flushdb.map done

end Loops

namespace Operation

/-- The key whose set an operation takes an arbitrary member of. -/
def popped {α : Type} : Operation α → Option Bytes
  | .call key .spop => some key
  | _ => none

/-- Whether an operation reads what it is asked for. -/
def reads {α : Type} : Operation α → Bool
  | .call _ m => !m.writes
  | .keys _ => true
  | .mget _ => true
  | _ => false

/-- Only `spop` forwards to SPOP. -/
theorem popped_of_spop {α : Type} {key : Bytes} {m : KeyMethod α}
    (pops : m.forwarded.name = .spop) : (call key m).popped = some key := by
  cases m <;> first | rfl | cases pops

/-- The commands that an operation sends. -/
def commands [Doubles] {α : Type} : Operation α → List RedisCommand
  | .call key m => [m.forwarded.command key]
  | .delKeys several => several.map fun key => KeyMethod.del.command key
  | .keys pattern => [⟨.keys, [pattern], .none⟩]
  | .randomkey => [.new .randomkey]
  | .mget several => several.map fun key => KeyMethod.get.command key
  | .mset several values =>
    (several.zip values).map fun (key, value) => (KeyMethod.set value).command key
  | .select index => [Redis2.selectCommand index]
  | .flushall => [.new .flushall]
  | .flushdb => [.new .flushdb]

/-- The length of each request is an `int`. -/
def Small [Doubles] {α : Type} (operation : Operation α) : Prop :=
  ∀ c ∈ operation.commands, (commandText c).length < 2 ^ 31

/-- Whether the data determine what an operation is answered. -/
def Determined [Doubles] {σ δ : Type} {server : Server σ} {α : Type} (operation : Operation α)
    (docs : Documented server δ) : Prop :=
  ∀ c ∈ operation.commands, docs.Determined (requestOf c)

end Operation

variable {σ δ : Type} {server : Server σ}

/-- No server has a choice: where a set is popped, each replica has one member of it at most. -/
def Settled (docs : Documented server δ) (p : Redis2P (Redis2 (Endpoint server))) {α : Type}
    (operation : Operation α) : Prop :=
  ∀ key, operation.popped = some key → p.Clients fun i client =>
    i % p.hostNum = p.getKeyHostIndex key →
      (docs.members (docs.data client.serverState) client.dbIndex key).length ≤ 1

/-- All groups hold equal data for every partition. -/
def EqualReplicas (docs : Documented server δ) (p : Redis2P (Redis2 (Endpoint server))) : Prop :=
  ∀ i j client client', p.redis2SpVector[i]? = some client → p.redis2SpVector[j]? = some client' →
    i % p.hostNum = j % p.hostNum →
      docs.data client.serverState = docs.data client'.serverState

/-- Every replica of a partition holds the data of the partition. -/
structure Replicated (docs : Documented server δ) (chosen : Int32) (data : Nat → δ)
    (p : Redis2P (Redis2 (Endpoint server))) : Prop where
  /-- The constructor has not thrown. -/
  configured : p.Configured
  /-- Each client is in the chosen database, of a server with the data. -/
  clients : p.Clients fun i client => Redis2.Holds docs chosen (data (i % p.hostNum)) client

variable {docs : Documented server δ} {chosen : Int32} {data : Nat → δ}
  {p p' : Redis2P (Redis2 (Endpoint server))}

/-- Then the replicas of a partition are equal. -/
theorem Replicated.equal (replicated : Replicated docs chosen data p) : EqualReplicas docs p := by
  intro i j client client' found found' same
  have first := (replicated.clients i client found).data
  have second := (replicated.clients j client' found').data
  rw [first, second, same]

/-- A call leaves the partitions where they are. -/
theorem Replicated.kept (configured : p.Configured) (keeps : p.Keeps p')
    (clients : p'.Clients fun i client => Redis2.Holds docs chosen (data (i % p.hostNum)) client) :
    Replicated docs chosen data p' := by
  refine ⟨keeps.configured configured, ?_⟩
  rw [keeps.hostNum]
  exact clients

/-- A client of the partition of a key, and what it holds. -/
theorem Replicated.someClient (replicated : Replicated docs chosen data p) {host : Nat}
    (isHost : host < p.hostNum) : ∃ client, p.redis2SpVector[host]? = some client ∧
      Redis2.Holds docs chosen (data host) client := by
  obtain ⟨inside, here, -⟩ := replicated.configured.place isHost replicated.configured.groups
  rw [Nat.mul_zero, Nat.add_zero] at inside here
  have found := List.getElem?_eq_getElem inside
  have holds : Redis2.Holds docs chosen (data (host % p.hostNum)) _ :=
    replicated.clients host _ found
  rw [here] at holds
  exact ⟨_, found, holds⟩

/-- A new object of servers with equal data has equal replicas. -/
theorem new_replicated (docs : Documented server δ) {hostList portList : Bytes} {dbIndex : Int32}
    {timeoutMs : Int} {partitions : Int32} {hashFn : Bytes → UInt32}
    {newOs : Nat → Os (Endpoint server)} (silent : ∀ i, (newOs i).incoming = [])
    (accepted : new hostList portList dbIndex timeoutMs partitions hashFn
      (fun i host port dbIndex timeoutMs => Redis2.new host port dbIndex timeoutMs (newOs i)) =
        .ok p) (equal : EqualReplicas docs p) :
    ∃ data, Replicated docs dbIndex data p := by
  obtain ⟨configured, made⟩ := new_configured accepted
  have tracks : p.Clients fun i client => client.Tracks docs.toDatabases dbIndex := by
    intro i client found
    obtain ⟨host, port, rfl⟩ := made i client found
    exact Redis2.new_tracks docs.toDatabases host port dbIndex timeoutMs (silent i)
  have first (host : Nat) (isHost : host < p.hostNum) : host < p.redis2SpVector.length ∧
      host % p.hostNum = host := by
    obtain ⟨inside, here, -⟩ := configured.place isHost configured.groups
    rw [Nat.mul_zero, Nat.add_zero] at inside here
    exact ⟨inside, here⟩
  let data (host : Nat) : δ := match p.redis2SpVector[host % p.hostNum]? with
    | some client => docs.data client.serverState
    | none => docs.data (newOs 0).peer.state
  refine ⟨data, configured, fun i client found => ⟨tracks i client found, ?_⟩⟩
  have isHost : i % p.hostNum < p.hostNum := Nat.mod_lt _ configured.hostNum
  obtain ⟨inside, here⟩ := first (i % p.hostNum) isHost
  have found' := List.getElem?_eq_getElem inside
  change _ = data (i % p.hostNum)
  simp only [data, here, found']
  exact equal i (i % p.hostNum) client _ found found' here.symm

section Runs

variable [Doubles]

/-- A loop that needs one client leaves the data of all, if it succeeds: a SORT that stores its
result succeeds nowhere. -/
theorem Replicated.readEach (replicated : Replicated docs chosen data p) {seed : Nat} {key : Bytes}
    {α : Type} {m : KeyMethod α} (small : (commandText (m.command key)).length < 2 ^ 31)
    (reads : m.name.readsOnly = true ∨ m.name = .sort) {out : α}
    (returns : Redis2P.readEach key m (p.replicas seed key) p = .ok (some out, p')) :
    p.Keeps p' ∧ Replicated docs chosen data p' ∧ ∃ client client',
      Redis2.Holds docs chosen (data (p.getKeyHostIndex key)) client ∧
        RedisBase2.call client key m = .ok (some out, client') := by
  have configured := replicated.configured
  by_cases stores : m.name = .sort ∧ storesResult 0 m.args = true
  · have clients : p.Clients fun i client => ∃ data', Redis2.Holds docs chosen data' client :=
      fun i client found => ⟨_, replicated.clients i client found⟩
    obtain ⟨-, -, answers⟩ := configured.readEach_clients (fun i client out client' _ held calls => by
      obtain ⟨data', holds⟩ := held
      exact (holds.call_stores small stores.1 stores.2 calls).2) clients returns
    obtain ⟨i, client, client', -, ⟨data', holds⟩, calls⟩ := answers out rfl
    have failed := (holds.call_stores small stores.1 stores.2 calls).1
    cases failed
  · have leaves : m.name.readsOnly = true ∨ (m.name = .sort ∧ storesResult 0 m.args = false) := by
      apply reads.imp_right
      intro sorts
      refine ⟨sorts, ?_⟩
      rw [← Bool.not_eq_true]
      exact fun storing => stores ⟨sorts, storing⟩
    obtain ⟨keeps, clients, answers⟩ := configured.readEach_clients
      (fun i client out client' _ holds calls => holds.call_reads small leaves calls)
      replicated.clients returns
    obtain ⟨i, client, client', host, holds, calls⟩ := answers out rfl
    rw [host] at holds
    exact ⟨keeps, .kept configured keeps clients, client, client', holds, calls⟩

/-- A loop that needs every client makes the same of the data of all replicas, if it succeeds. -/
theorem Replicated.writeEach (replicated : Replicated docs chosen data p) {seed : Nat}
    {key : Bytes} {α : Type} {m : KeyMethod α}
    (small : (commandText (m.command key)).length < 2 ^ 31)
    (alike : m.name.writesAlike = true ∨
      (m.name = .spop ∧ (docs.members (data (p.getKeyHostIndex key)) chosen key).length ≤ 1))
    {last : Option α} {out : α}
    (returns : Redis2P.writeEach key m (p.replicas seed key) last p = .ok (some out, p')) :
    p.Keeps p' ∧ ∃ data', Replicated docs chosen data' p' := by
  have configured := replicated.configured
  obtain ⟨after, makes⟩ := Redis2.call_alike docs chosen (data (p.getKeyHostIndex key)) small alike
  let data' := Function.update data (p.getKeyHostIndex key) after
  have here : ∀ i client out client', i % p.hostNum = p.getKeyHostIndex key →
      Redis2.Holds docs chosen (data (i % p.hostNum)) client →
      RedisBase2.call client key m = .ok (some out, client') →
      Redis2.Holds docs chosen (data' (i % p.hostNum)) client' := by
    intro i client out client' host holds calls
    have changed : data' (i % p.hostNum) = after := by
      rw [host]
      exact Function.update_self ..
    rw [host] at holds
    rw [changed]
    exact makes client client' out holds calls
  have others : ∀ i client, i % p.hostNum ≠ p.getKeyHostIndex key →
      Redis2.Holds docs chosen (data (i % p.hostNum)) client →
      Redis2.Holds docs chosen (data' (i % p.hostNum)) client := by
    intro i client other holds
    have same : data' (i % p.hostNum) = data (i % p.hostNum) := Function.update_of_ne other ..
    rw [same]
    exact holds
  obtain ⟨keeps, clients, -⟩ :=
    configured.writeEach_clients here others replicated.clients returns
  exact ⟨keeps, data', .kept configured keeps clients⟩

/-- A method about a key leaves the replicas equal, if it returns true and no server has a
choice. -/
theorem Replicated.call (replicated : Replicated docs chosen data p) {t : ThreadId} {key : Bytes}
    {α : Type} {m : KeyMethod α} (small : (Operation.call key m).Small)
    (settled : Settled docs p (.call key m)) {out : α}
    (returns : p.call t key m = .ok (some out, p')) :
    p.Keeps p' ∧ ∃ data', Replicated docs chosen data' p' := by
  have configured := replicated.configured
  have short := small _ List.mem_cons_self
  rw [call_eq, checkExpr] at returns
  split at returns
  · split at returns
    · rename_i writes
      rw [configured.forEachGroupWrite_eq] at returns
      apply replicated.writeEach short _ returns
      apply (KeyMethod.writesAlike_of_writes writes).imp_right
      intro pops
      refine ⟨pops, ?_⟩
      obtain ⟨client, found, holds⟩ := replicated.someClient (configured.getKeyHostIndex_lt key)
      have few := settled key (Operation.popped_of_spop pops) _ client found
        (Nat.mod_eq_of_lt (configured.getKeyHostIndex_lt key))
      rw [holds.data, holds.tracks.chosen] at few
      exact few
    · rename_i reads
      rw [configured.forEachGroupRead_eq] at returns
      have reads : m.writes = false := by simpa using reads
      have same : m.forwarded = m := KeyMethod.forwarded_of_reads reads
      rw [same] at returns short
      obtain ⟨keeps, left, -⟩ :=
        replicated.readEach short (KeyMethod.readsOnly_of_reads reads) returns
      exact ⟨keeps, data, left⟩
  · cases returns

/-- `del` of several keys deletes each of them from all its replicas. -/
theorem Replicated.delEach {keys : List Bytes} {first : Redis2P (Redis2 (Endpoint server))}
    (keeps : first.Keeps p) (replicated : Replicated docs chosen data p)
    (small : ∀ key ∈ keys, (commandText (KeyMethod.del.command key)).length < 2 ^ 31)
    {deleted totalDeleted out : Int}
    (returns : Redis2P.delEach (keys.zip (keys.map (first.replicas 0))) deleted totalDeleted p =
      .ok (some out, p')) : ∃ data', Replicated docs chosen data' p' := by
  induction keys generalizing p data deleted totalDeleted with
  | nil =>
    cases returns
    exact ⟨data, replicated⟩
  | cons key rest ih =>
    obtain ⟨⟨result, p₁⟩, deletes, goesOn⟩ := bind_returns returns
    cases result with
    | none => cases goesOn
    | some deleted' =>
      rw [← keeps.replicas] at deletes
      obtain ⟨keeps₁, data₁, replicated₁⟩ :=
        replicated.writeEach (small key List.mem_cons_self) (Or.inl rfl) deletes
      exact ih (keeps.trans keeps₁) replicated₁
        (fun key later => small key (List.mem_cons_of_mem _ later)) goesOn

/-- `del` of several keys leaves the replicas equal. -/
theorem Replicated.delKeys (replicated : Replicated docs chosen data p) {keys : List Bytes}
    (small : (Operation.delKeys keys).Small) {out : Int}
    (returns : p.delKeys keys = .ok (some out, p')) : ∃ data', Replicated docs chosen data' p' := by
  have short : ∀ key ∈ keys, (commandText (KeyMethod.del.command key)).length < 2 ^ 31 :=
    fun key member => small _ (List.mem_map_of_mem member)
  by_cases some : keys = []
  · subst some
    cases returns
  · unfold Redis2P.delKeys at returns
    rw [getKeysClient_eq p some] at returns
    exact replicated.delEach (.refl p) short returns

/-- Every client leaves its data when it is asked for keys. -/
theorem keys_leaves {hosts : Nat} {pattern : Bytes}
    (small : (Operation.keys pattern).Small) (i : Nat) (client : Redis2 (Endpoint server))
    (out : Option Mbulk) (client' : Redis2 (Endpoint server))
    (holds : Redis2.Holds docs chosen (data (i % hosts)) client)
    (returns : RedisBase2.keys client pattern = .ok (out, client')) :
    Redis2.Holds docs chosen (data (i % hosts)) client' :=
  holds.keys (small _ List.mem_cons_self) returns

/-- `keys` leaves the replicas equal. -/
theorem Replicated.keys (replicated : Replicated docs chosen data p) {t : ThreadId}
    {pattern : Bytes} (small : (Operation.keys pattern).Small) {out : Option Mbulk}
    (returns : p.keys t pattern = .ok (out, p')) : Replicated docs chosen data p' := by
  unfold Redis2P.keys at returns
  rw [replicated.configured.getGroupClient_eq] at returns
  obtain ⟨keeps, clients⟩ := keysEach_clients (keys_leaves small) replicated.clients returns
  exact .kept replicated.configured keeps clients

/-- `randomkey` leaves the replicas equal. -/
theorem Replicated.randomkey (replicated : Replicated docs chosen data p) {t : ThreadId}
    {out : Option (Option Bytes)} (returns : p.randomkey t = .ok (out, p')) :
    Replicated docs chosen data p' := by
  have leaves : ∀ i client out client', Redis2.Holds docs chosen (data (i % p.hostNum)) client →
      RedisBase2.randomkey client = .ok (out, client') →
      Redis2.Holds docs chosen (data (i % p.hostNum)) client' :=
    fun i client out client' holds returns => holds.randomkey returns
  unfold Redis2P.randomkey at returns
  rw [replicated.configured.getGroupClient_eq] at returns
  obtain ⟨keeps, clients⟩ := randomkeyEach_clients leaves replicated.clients returns
  exact .kept replicated.configured keeps clients

/-- `get` leaves the data of all. -/
theorem Replicated.get (replicated : Replicated docs chosen data p) {t : ThreadId} {key : Bytes}
    (small : (commandText (KeyMethod.get.command key)).length < 2 ^ 31) {out : Option Bytes}
    (returns : p.get t key = .ok (some out, p')) :
    p.Keeps p' ∧ Replicated docs chosen data p' ∧ ∃ client client',
      Redis2.Holds docs chosen (data (p.getKeyHostIndex key)) client ∧
        RedisBase2.call client key .get = .ok (some out, client') := by
  unfold Redis2P.get at returns
  rw [replicated.configured.forEachGroupRead_eq] at returns
  exact replicated.readEach small (Or.inl rfl) returns

/-- `mget` leaves the replicas equal. -/
theorem Replicated.mget (replicated : Replicated docs chosen data p) {t : ThreadId}
    {keys : List Bytes} (small : (Operation.mget keys).Small) {values out : Mbulk}
    (returns : mgetEach t keys values p = .ok (some out, p')) : Replicated docs chosen data p' := by
  induction keys generalizing p values with
  | nil =>
    cases returns
    exact replicated
  | cons key rest ih =>
    obtain ⟨⟨result, p₁⟩, gets, goesOn⟩ := bind_returns returns
    cases result with
    | none => cases goesOn
    | some value =>
      obtain ⟨-, replicated₁, -⟩ := replicated.get (small _ List.mem_cons_self) gets
      exact ih replicated₁ (fun c later => small c (List.mem_cons_of_mem _ later)) goesOn

/-- `mset` leaves the replicas equal. -/
theorem Replicated.mset (replicated : Replicated docs chosen data p) {t : ThreadId}
    {pairs : List (Bytes × Bytes)}
    (small : ∀ pair ∈ pairs,
      (commandText ((KeyMethod.set pair.2).command pair.1)).length < 2 ^ 31)
    (returns : msetEach t pairs p = .ok (some (), p')) :
    ∃ data', Replicated docs chosen data' p' := by
  induction pairs generalizing p data with
  | nil =>
    cases returns
    exact ⟨data, replicated⟩
  | cons pair rest ih =>
    obtain ⟨⟨result, p₁⟩, sets, goesOn⟩ := bind_returns returns
    cases result with
    | none => cases goesOn
    | some written =>
      unfold Redis2P.set at sets
      rw [replicated.configured.forEachGroupWrite_eq] at sets
      obtain ⟨-, data₁, replicated₁⟩ :=
        replicated.writeEach (small pair List.mem_cons_self) (Or.inl rfl) sets
      exact ih replicated₁ (fun pair later => small pair (List.mem_cons_of_mem _ later)) goesOn

/-- What a call of every client makes of the data of each partition, the loop over all clients makes
of them. -/
theorem Replicated.all (replicated : Replicated docs chosen data p)
    {act : Redis2 (Endpoint server) → Except Abort (Bool × Redis2 (Endpoint server))}
    {chosen' : Int32} {data' : Nat → δ}
    (makes : ∀ host client client', Redis2.Holds docs chosen (data host) client →
      act client = .ok (true, client') → Redis2.Holds docs chosen' (data' host) client')
    (returns : allEach act (List.range p.redis2SpVector.length) true p = .ok (true, p')) :
    Replicated docs chosen' data' p' := by
  have each : ∀ i client client', Redis2.Holds docs chosen (data (i % p.hostNum)) client →
      act client = .ok (true, client') →
      Redis2.Holds docs chosen' (data' (i % p.hostNum)) client' :=
    fun i client client' => makes (i % p.hostNum) client client'
  have split : p.Clients fun i client => if i ∈ List.range p.redis2SpVector.length then
      Redis2.Holds docs chosen (data (i % p.hostNum)) client
      else Redis2.Holds docs chosen' (data' (i % p.hostNum)) client := by
    refine Clients.imp replicated.clients fun i client inside holds => ?_
    rw [if_pos (List.mem_range.mpr inside)]
    exact holds
  obtain ⟨keeps, clients⟩ := allEach_clients each List.nodup_range split returns
  exact .kept replicated.configured keeps clients

/-- One step: an operation that returns true leaves the replicas equal, if no server has a
choice. -/
theorem Replicated.operate (replicated : Replicated docs chosen data p) {t : ThreadId} {α : Type}
    {operation : Operation α} (small : operation.Small) (settled : Settled docs p operation)
    {out : α} (returns : p.operate t operation = .ok (some out, p')) :
    ∃ chosen' data', Replicated docs chosen' data' p' := by
  cases operation with
  | call key m => exact ⟨chosen, (replicated.call small settled returns).2⟩
  | delKeys keys => exact ⟨chosen, replicated.delKeys small returns⟩
  | keys pattern => exact ⟨chosen, data, replicated.keys small returns⟩
  | randomkey => exact ⟨chosen, data, replicated.randomkey returns⟩
  | mget keys => exact ⟨chosen, data, replicated.mget small returns⟩
  | mset keys values =>
    change p.checkExpr _ _ = _ at returns
    rw [checkExpr] at returns
    split at returns
    · exact ⟨chosen, replicated.mset
        (fun pair member => small _ (List.mem_map_of_mem member)) returns⟩
    · cases returns
  | select index =>
    exact ⟨index, data, replicated.all
      (fun host client client' holds selects => holds.select selects) (done_returns returns)⟩
  | flushall =>
    choose data' makes using fun host => Redis2.flush_alike docs chosen (data host) (Or.inl rfl)
    exact ⟨chosen, data', replicated.all
      (fun host client client' holds flushes => makes host client client' holds flushes)
      (done_returns returns)⟩
  | flushdb =>
    choose data' makes using fun host => Redis2.flush_alike docs chosen (data host) (Or.inr rfl)
    exact ⟨chosen, data', replicated.all
      (fun host client client' holds flushes => makes host client client' holds flushes)
      (done_returns returns)⟩

section Answers

variable {p₁ p₁' p₂ p₂' : Redis2P (Redis2 (Endpoint server))}

/-- The loops that need one client have the same outputs, whichever replica answers. -/
theorem Replicated.readEach_answers (first : Replicated docs chosen data p₁)
    (second : Replicated docs chosen data p₂) (keeps : p₁.Keeps p₂) {seed₁ seed₂ : Nat}
    {key : Bytes} {α : Type} {m : KeyMethod α}
    (small : (commandText (m.command key)).length < 2 ^ 31)
    (reads : m.name.readsOnly = true ∨ m.name = .sort)
    (determined : docs.Determined (requestOf (m.command key))) {out₁ out₂ : α}
    (returns₁ : Redis2P.readEach key m (p₁.replicas seed₁ key) p₁ = .ok (some out₁, p₁'))
    (returns₂ : Redis2P.readEach key m (p₂.replicas seed₂ key) p₂ = .ok (some out₂, p₂')) :
    out₁ = out₂ := by
  obtain ⟨-, -, client₁, client₁', holds₁, calls₁⟩ := first.readEach small reads returns₁
  obtain ⟨-, -, client₂, client₂', holds₂, calls₂⟩ := second.readEach small reads returns₂
  rw [keeps.getKeyHostIndex] at holds₂
  exact Redis2.call_answers holds₁ holds₂ small determined calls₁ calls₂

/-- A method that reads has the same outputs, whichever thread asks. -/
theorem Replicated.call_answers (replicated : Replicated docs chosen data p) {t₁ t₂ : ThreadId}
    {key : Bytes} {α : Type} {m : KeyMethod α} (small : (Operation.call key m).Small)
    (reads : m.writes = false) (determined : (Operation.call key m).Determined docs)
    {out₁ out₂ : α} (returns₁ : p.call t₁ key m = .ok (some out₁, p₁'))
    (returns₂ : p.call t₂ key m = .ok (some out₂, p₂')) : out₁ = out₂ := by
  have short := small _ List.mem_cons_self
  have settles := determined _ List.mem_cons_self
  rw [KeyMethod.forwarded_of_reads reads] at short settles
  rw [call_eq, checkExpr, KeyMethod.forwarded_of_reads reads, reads] at returns₁ returns₂
  by_cases checked : m.checks = true
  · rw [if_pos checked] at returns₁ returns₂
    change p.forEachGroupRead t₁ key m = _ at returns₁
    change p.forEachGroupRead t₂ key m = _ at returns₂
    rw [replicated.configured.forEachGroupRead_eq] at returns₁ returns₂
    exact replicated.readEach_answers replicated (.refl p) short
      (KeyMethod.readsOnly_of_reads reads) settles returns₁ returns₂
  · rw [if_neg checked] at returns₁
    cases returns₁

/-- `mget` has the same outputs, whichever thread asks. -/
theorem Replicated.mget_answers (first : Replicated docs chosen data p₁)
    (second : Replicated docs chosen data p₂) (keeps : p₁.Keeps p₂) {t₁ t₂ : ThreadId}
    {keys : List Bytes} (small : (Operation.mget keys).Small)
    (determined : (Operation.mget keys).Determined docs) {values out₁ out₂ : Mbulk}
    (returns₁ : mgetEach t₁ keys values p₁ = .ok (some out₁, p₁'))
    (returns₂ : mgetEach t₂ keys values p₂ = .ok (some out₂, p₂')) : out₁ = out₂ := by
  induction keys generalizing p₁ p₂ values with
  | nil =>
    cases returns₁
    cases returns₂
    rfl
  | cons key rest ih =>
    obtain ⟨⟨result₁, q₁⟩, gets₁, goesOn₁⟩ := bind_returns returns₁
    obtain ⟨⟨result₂, q₂⟩, gets₂, goesOn₂⟩ := bind_returns returns₂
    cases result₁ with
    | none => cases goesOn₁
    | some value₁ =>
      cases result₂ with
      | none => cases goesOn₂
      | some value₂ =>
        have short := small _ List.mem_cons_self
        obtain ⟨keeps₁, next₁, client₁, client₁', holds₁, calls₁⟩ := first.get short gets₁
        obtain ⟨keeps₂, next₂, client₂, client₂', holds₂, calls₂⟩ := second.get short gets₂
        rw [keeps.getKeyHostIndex] at holds₂
        have agrees : value₁ = value₂ := Redis2.call_answers holds₁ holds₂ short
          (determined _ List.mem_cons_self) calls₁ calls₂
        subst agrees
        exact ih next₁ next₂ (keeps₁.between keeps keeps₂)
          (fun c later => small c (List.mem_cons_of_mem _ later))
          (fun c later => determined c (List.mem_cons_of_mem _ later)) goesOn₁ goesOn₂

/-- `keys` has the same outputs, whichever thread asks. -/
theorem Replicated.keys_answers (replicated : Replicated docs chosen data p) {t₁ t₂ : ThreadId}
    {pattern : Bytes} (small : (Operation.keys pattern).Small)
    (determined : (Operation.keys pattern).Determined docs) {out₁ out₂ : Mbulk}
    (returns₁ : p.keys t₁ pattern = .ok (some out₁, p₁'))
    (returns₂ : p.keys t₂ pattern = .ok (some out₂, p₂')) : out₁ = out₂ := by
  have configured := replicated.configured
  have hosts : (p.groupClients t₁).map (· % p.hostNum) = (p.groupClients t₂).map (· % p.hostNum) :=
    (configured.groupClients_hosts t₁).1.trans (configured.groupClients_hosts t₂).1.symm
  have agree : ∀ i j client₁ client₂ out₁ out₂ client₁' client₂', i % p.hostNum = j % p.hostNum →
      Redis2.Holds docs chosen (data (i % p.hostNum)) client₁ →
      Redis2.Holds docs chosen (data (j % p.hostNum)) client₂ →
      RedisBase2.keys client₁ pattern = .ok (some out₁, client₁') →
      RedisBase2.keys client₂ pattern = .ok (some out₂, client₂') → out₁ = out₂ := by
    intro i j client₁ client₂ out₁ out₂ client₁' client₂' same holds₁ holds₂ calls₁ calls₂
    rw [same] at holds₁
    exact Redis2.method_answers holds₁ holds₂ (small _ List.mem_cons_self) rfl
      (determined _ List.mem_cons_self) calls₁ calls₂
  unfold Redis2P.keys at returns₁ returns₂
  rw [configured.getGroupClient_eq] at returns₁ returns₂
  exact keysEach_answers (keys_leaves small) agree hosts replicated.clients replicated.clients
    returns₁ returns₂

/-- What is read is the same, whichever thread asks. -/
theorem Replicated.answers (replicated : Replicated docs chosen data p) {t₁ t₂ : ThreadId}
    {α : Type} {operation : Operation α} (reads : operation.reads = true)
    (small : operation.Small) (determined : operation.Determined docs) {out₁ out₂ : α}
    (returns₁ : p.operate t₁ operation = .ok (some out₁, p₁'))
    (returns₂ : p.operate t₂ operation = .ok (some out₂, p₂')) : out₁ = out₂ := by
  cases operation with
  | call key m =>
    have reads : m.writes = false := by simpa [Operation.reads] using reads
    exact replicated.call_answers small reads determined returns₁ returns₂
  | keys pattern => exact replicated.keys_answers small determined returns₁ returns₂
  | mget keys =>
    exact replicated.mget_answers replicated (.refl p) small determined returns₁ returns₂
  | delKeys keys => cases reads
  | randomkey => cases reads
  | mset keys values => cases reads
  | select index => cases reads
  | flushall => cases reads
  | flushdb => cases reads

end Answers

/-- An operation that returns true, and leaves no server a choice. -/
def Step (docs : Documented server δ) (p p' : Redis2P (Redis2 (Endpoint server))) : Prop :=
  ∃ (t : ThreadId) (α : Type) (operation : Operation α) (out : α), operation.Small ∧
    Settled docs p operation ∧ p.operate t operation = .ok (some out, p')

/-- In every run of operations that return true and leave no server a choice, all groups hold equal
data for every partition, and what is read is the same whichever thread asks. -/
theorem replicas_stay_equal (docs : Documented server δ) {hostList portList : Bytes}
    {dbIndex : Int32} {timeoutMs : Int} {partitions : Int32} {hashFn : Bytes → UInt32}
    {newOs : Nat → Os (Endpoint server)} (silent : ∀ i, (newOs i).incoming = [])
    (accepted : new hostList portList dbIndex timeoutMs partitions hashFn
      (fun i host port dbIndex timeoutMs => Redis2.new host port dbIndex timeoutMs (newOs i)) =
        .ok p) (equal : EqualReplicas docs p)
    (run : Relation.ReflTransGen (Step docs) p p') :
    EqualReplicas docs p' ∧ ∀ (α : Type) (operation : Operation α) (t₁ t₂ : ThreadId)
      (out₁ out₂ : α) (p₁ p₂ : Redis2P (Redis2 (Endpoint server))), operation.reads = true →
      operation.Small → operation.Determined docs →
      p'.operate t₁ operation = .ok (some out₁, p₁) →
      p'.operate t₂ operation = .ok (some out₂, p₂) → out₁ = out₂ := by
  have reached : ∃ chosen data, Replicated docs chosen data p' := by
    induction run with
    | refl => exact ⟨dbIndex, new_replicated docs silent accepted equal⟩
    | tail _ step ih =>
      obtain ⟨chosen, data, replicated⟩ := ih
      obtain ⟨t, α, operation, out, small, settled, returns⟩ := step
      exact replicated.operate small settled returns
  obtain ⟨chosen, data, replicated⟩ := reached
  exact ⟨replicated.equal, fun α operation t₁ t₂ out₁ out₂ p₁ p₂ reads small determined =>
    replicated.answers reads small determined⟩

end Runs

/-- What a server knows of a set that it pops the first member of, or the last. -/
structure PoppedSet where
  db : Int32
  executed : List (Int32 × List Bytes)
  members : List Bytes
  takesLast : Bool

/-- A server of one set, which picks the member to pop. -/
def poppedSet : Server PoppedSet where
  fresh state := { state with db := 0 }
  handle state args :=
    let ran := { state with executed := state.executed ++ [(state.db, args)] }
    if commandOf args = .select then
      if args.tail = [Decimal.intText 0] then (.status (ascii "OK"), { state with db := 0 })
      else (.error (ascii "ERR"), state)
    else if commandOf args = .sadd then
      let added := (args.drop 2).dedup.filter (· ∉ state.members)
      (.integer added.length, { ran with members := state.members ++ added })
    else if commandOf args = .spop then
      if state.takesLast then
        ((state.members.getLast?.map Reply.bulk).getD .nilBulk,
          { ran with members := state.members.dropLast })
      else ((state.members.head?.map Reply.bulk).getD .nilBulk,
        { ran with members := state.members.tail })
    else if commandOf args = .smembers then (.array (state.members.map Reply.bulk), ran)
    else (.error (ascii "ERR"), ran)

/-- A bulk or nil is well formed. -/
theorem wellFormed_popped (member : Option Bytes) :
    ((member.map Reply.bulk).getD .nilBulk).WellFormed := by
  cases member with
  | none => exact .nilBulk
  | some bytes => exact .bulk bytes

/-- It applies commands as documented, and its data are the members of the set. -/
def poppedSetDocs : Documented poppedSet (List Bytes) where
  db := PoppedSet.db
  executed := PoppedSet.executed
  wellFormed state args := by
    have error : (Reply.error (ascii "ERR")).WellFormed := .error (by decide)
    simp only [poppedSet]
    split_ifs
    · exact .status (by decide)
    · exact error
    · exact .integer _
    · exact wellFormed_popped _
    · exact wellFormed_popped _
    · refine .array fun r member => ?_
      obtain ⟨bytes, -, rfl⟩ := List.mem_map.mp member
      exact .bulk bytes
    · exact error
  fresh state := ⟨rfl, rfl⟩
  select state args named index asks := by
    simp only [poppedSet, if_pos named]
    split_ifs with zero
    · have same := Decimal.intText_injective (List.singleton_inj.mp (zero.symm.trans asks))
      have zero : (0 : Int32) = index := Int32.toInt_inj.mp same
      exact ⟨rfl, Or.inl ⟨rfl, zero⟩⟩
    · exact ⟨rfl, Or.inr ⟨⟨_, rfl⟩, rfl⟩⟩
  other state args named := by
    simp only [poppedSet, if_neg named]
    split_ifs <;> exact ⟨rfl, rfl⟩
  data := PoppedSet.members
  fresh_data state := rfl
  select_data state args named := by
    simp only [poppedSet, if_pos named]
    split_ifs <;> rfl
  reads_data state args reads := by
    have select : commandOf args ≠ .select := fun named => by rw [named] at reads; cases reads
    have sadd : commandOf args ≠ .sadd := fun named => by rw [named] at reads; cases reads
    have spop : commandOf args ≠ .spop := fun named => by rw [named] at reads; cases reads
    simp only [poppedSet, if_neg select, if_neg sadd, if_neg spop]
    split_ifs <;> rfl
  sort_data state args named shows := by
    simp [poppedSet, named]
  sort_stores state args named stores := by
    simp [poppedSet, named, IsArray]
  writes_data state state' args writes sameDb sameData := by
    have select : commandOf args ≠ .select := fun named => by rw [named] at writes; cases writes
    have spop : commandOf args ≠ .spop := fun named => by rw [named] at writes; cases writes
    simp only [poppedSet, if_neg select, if_neg spop, sameData]
    split_ifs <;> rfl
  members data _ _ := data
  spop_data state state' args named sameDb sameData settled := by
    have tails (members : List Bytes) (few : members.length ≤ 1) :
        members.tail = [] ∧ members.dropLast = [] := by
      match members, few with
      | [], _ => exact ⟨rfl, rfl⟩
      | [member], _ => exact ⟨rfl, rfl⟩
    have select : commandOf args ≠ .select := by rw [named]; decide
    have sadd : commandOf args ≠ .sadd := by rw [named]; decide
    have popped (s : PoppedSet) (few : s.members.length ≤ 1) :
        (poppedSet.handle s args).2.members = [] := by
      obtain ⟨first, last⟩ := tails s.members few
      simp only [poppedSet, if_neg select, if_neg sadd, if_pos named]
      split_ifs
      · exact last
      · exact first
    rw [popped state settled, popped state' (sameData ▸ settled)]
  rank state args named := by
    rcases named with named | named <;> simp [poppedSet, named, IsArray]
  Determined args := commandOf args = .smembers
  answers state state' args determined sameDb sameData := by
    simp only [poppedSet, determined]
    exact congrArg (fun members : List Bytes => Reply.array (members.map Reply.bulk)) sameData

/-- Two groups of one such server each, which pop from either end. -/
def twoReplicas (members : List Bytes) : Except Bytes (Redis2P (Redis2 (Endpoint poppedSet))) :=
  new (ascii "one,two") (ascii "6379") 0 1000 1 (fun _ => 0) fun i host port dbIndex timeoutMs =>
    Redis2.new host port dbIndex timeoutMs (.start ⟨[], 0, [], members, i == 1⟩ [])

/-- The replicas start with the same members. -/
theorem equalReplicas_twoReplicas {members : List Bytes}
    {p : Redis2P (Redis2 (Endpoint poppedSet))} (accepted : twoReplicas members = .ok p) :
    EqualReplicas poppedSetDocs p := by
  have starts := (new_configured accepted).2
  intro i j client client' found found' same
  obtain ⟨host, port, rfl⟩ := starts i client found
  obtain ⟨host', port', rfl⟩ := starts j client' found'
  rfl

/-- The members that each of the servers has. -/
def allMembers (p : Redis2P (Redis2 (Endpoint poppedSet))) : List (List Bytes) :=
  p.redis2SpVector.map fun client => client.serverState.members

/-- Two replicas with different members are not equal. -/
theorem not_equalReplicas {p : Redis2P (Redis2 (Endpoint poppedSet))} {first second : List Bytes}
    (members : allMembers p = [first, second]) (groups : p.groups = 2) (apart : first ≠ second) :
    ¬ EqualReplicas poppedSetDocs p := by
  obtain ⟨client, client', clients, rfl, rfl⟩ : ∃ client client',
      p.redis2SpVector = [client, client'] ∧ client.serverState.members = first ∧
        client'.serverState.members = second := by
    obtain ⟨client, rest, clients, here, more⟩ := List.map_eq_cons_iff.mp members
    obtain ⟨client', none, rfl, there, ends⟩ := List.map_eq_cons_iff.mp more
    rw [List.map_eq_nil_iff.mp ends] at clients
    exact ⟨client, client', clients, here, there⟩
  have hosts : p.hostNum = 1 := by
    simp [hostNum, clients, groups]
  intro equal
  apply apart
  apply equal 0 1 client client'
  · rw [clients]
    rfl
  · rw [clients]
    rfl
  · rw [hosts]

/-- What is seen of an operation that is performed. -/
theorem performed_of_view [Doubles] {members : List Bytes} {t : ThreadId} {α : Type}
    {operation : Operation α} {after : List (List Bytes)}
    (shows : ((twoReplicas members).toOption.bind fun p => (p.operate t operation).toOption).map
      (fun (out, p') => (out.isSome, allMembers p', p'.groups)) = some (true, after, 2)) :
    ∃ p p' out, twoReplicas members = .ok p ∧ p.operate t operation = .ok (some out, p') ∧
      allMembers p' = after ∧ p'.groups = 2 := by
  obtain ⟨⟨out, p'⟩, performs, seen⟩ := Option.map_eq_some_iff.mp shows
  obtain ⟨p, accepted, performs⟩ := Option.bind_eq_some_iff.mp performs
  obtain ⟨some, members', groups⟩ : out.isSome = true ∧ allMembers p' = after ∧ p'.groups = 2 := by
    simpa only [Prod.mk.injEq] using seen
  obtain ⟨outputs, rfl⟩ := Option.isSome_iff_exists.mp some
  exact ⟨p, p', outputs, returned_of_toOption accepted, returned_of_toOption performs, members',
    groups⟩

/-- The set has one member, which both servers pop. -/
theorem replicas_stay_equal_spop : ∃ (_ : Doubles) (p' : Redis2P (Redis2 (Endpoint poppedSet))),
    allMembers p' = [[], []] ∧ EqualReplicas poppedSetDocs p' := by
  let doubles : Doubles := ⟨fun _ => [], fun _ => none⟩
  let t : ThreadId := ⟨1, by decide⟩
  have shows : ((twoReplicas [ascii "a"]).toOption.bind fun p =>
      (p.operate t (.call (ascii "s") .spop)).toOption).map
        (fun (out, p') => (out.isSome, allMembers p', p'.groups)) = some (true, [[], []], 2) := by
    decide +kernel
  obtain ⟨p, p', out, accepted, returns, members, -⟩ := performed_of_view shows
  have small : (Operation.call (ascii "s") .spop).Small := by
    intro c member
    rw [List.mem_singleton.mp member]
    decide +kernel
  have settled : Settled poppedSetDocs p (.call (ascii "s") .spop) := by
    intro key pops i client found host
    obtain ⟨host, port, rfl⟩ := (new_configured accepted).2 i client found
    exact Nat.le_refl 1
  have equal := equalReplicas_twoReplicas accepted
  exact ⟨doubles, p', members, (replicas_stay_equal poppedSetDocs (fun i => rfl) accepted equal
    (.single ⟨t, _, _, out, small, settled, returns⟩)).1⟩

/-- SPOP of a set with two members returns true, and the replicas differ. -/
theorem spop_splits_replicas : ∃ (_ : Doubles) (t : ThreadId)
    (p p' : Redis2P (Redis2 (Endpoint poppedSet))) (out : Option Bytes),
    twoReplicas [ascii "a", ascii "b"] = .ok p ∧ EqualReplicas poppedSetDocs p ∧
      p.operate t (.call (ascii "s") .spop) = .ok (some out, p') ∧
      p'.groups = 2 ∧ ¬ EqualReplicas poppedSetDocs p' := by
  let doubles : Doubles := ⟨fun _ => [], fun _ => none⟩
  let t : ThreadId := ⟨1, by decide⟩
  have shows : ((twoReplicas [ascii "a", ascii "b"]).toOption.bind fun p =>
      (p.operate t (.call (ascii "s") .spop)).toOption).map
        (fun (out, p') => (out.isSome, allMembers p', p'.groups)) =
          some (true, [[ascii "b"], [ascii "a"]], 2) := by
    decide +kernel
  obtain ⟨p, p', out, accepted, returns, members, groups⟩ := performed_of_view shows
  exact ⟨doubles, t, p, p', out, accepted, equalReplicas_twoReplicas accepted, returns, groups,
    not_equalReplicas members groups (by decide)⟩

end Redis2P

end LibRedis
