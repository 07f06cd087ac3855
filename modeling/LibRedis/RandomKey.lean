import LibRedis.KeyRouting
import LibRedis.TableServer

/-!
# A random key

`randomkey` goes through the clients of one group and takes the first answer, and nil is an answer
as well. So it sees the first partition of the group only: it is right if that one holds a key, or
if none does.
-/

namespace LibRedis

open Decimal (ascii)
open Resp (Reply)
open RedisProtocol (requestOf)
open Redis2 (Holds)

/-- What a server promises about RANDOMKEY. -/
structure RandomKeys {σ δ : Type} {server : Server σ} (docs : Documented server δ) where
  /-- The keys of a database. -/
  keys : δ → Int32 → Set Bytes
  /-- The reply is nil exactly if there are none, and else one of them. -/
  randomkey (state : σ) (args : List Bytes) (named : commandOf args = .randomkey) :
    ((server.handle state args).1 = .nilBulk ∧ keys (docs.data state) (docs.db state) = ∅) ∨
    ∃ key ∈ keys (docs.data state) (docs.db state), (server.handle state args).1 = .bulk key

section Client

variable {σ δ : Type} {server : Server σ} {docs : Documented server δ}

/-- `randomkey` of one client returns nil exactly if its server has no keys, else one of them. -/
theorem Redis2.Holds.randomkey_out (laws : RandomKeys docs) {chosen : Int32} {data : δ}
    {r r' : Redis2 (Endpoint server)} (holds : Holds docs chosen data r) {out : Option Bytes}
    (returns : r.randomkey = .ok (some out, r')) :
    (out = none ∧ laws.keys data chosen = ∅) ∨ ∃ key ∈ laws.keys data chosen, out = some key := by
  have small : (RedisProtocol.commandText (.new .randomkey)).length < 2 ^ 31 := by decide +kernel
  have named : commandOf (requestOf (.new .randomkey)) = .randomkey := commandOf_requestOf rfl
  have type : (RedisCommand.new .randomkey).commandInfo.replyType = .bulk := rfl
  obtain ⟨-, ⟨wrong, -⟩ | ⟨state, kept, db, -, answers⟩⟩ := holds.method small rfl returns
  · cases wrong
  · have takes := (answers out rfl).2
    rw [type] at takes
    have replies := laws.randomkey state _ named
    rw [kept, db] at replies
    rcases replies with ⟨reply, none⟩ | ⟨key, member, reply⟩
    · rw [reply] at takes
      cases takes
      exact Or.inl ⟨rfl, none⟩
    · rw [reply] at takes
      cases takes
      exact Or.inr ⟨key, member, rfl⟩

end Client

namespace Redis2P

section Loop

variable {κ : Type}

/-- The first client of the group that a thread is directed to. -/
def groupStart (r : Redis2P κ) (t : ThreadId) : Nat :=
  if 1 < r.groups then t.seed % r.groups * r.hostNum else 0

/-- The clients of the group begin there. -/
theorem Configured.groupClients_cons {r : Redis2P κ} (configured : r.Configured) (t : ThreadId) :
    ∃ rest, r.groupClients t = r.groupStart t :: rest := by
  have some := configured.hostNum
  obtain ⟨more, hosts⟩ : ∃ more, r.hostNum = more + 1 := ⟨r.hostNum - 1, by omega⟩
  refine ⟨(List.range more).map fun i => r.groupStart t + (i + 1), ?_⟩
  rw [groupClients, hosts, List.range_succ_eq_map, List.map_cons, List.map_map, groupStart, hosts]
  rfl

/-- The first client of the group is in it. -/
theorem Configured.groupStart_mem {r : Redis2P κ} (configured : r.Configured) (t : ThreadId) :
    r.groupStart t ∈ r.groupClients t := by
  obtain ⟨rest, clients⟩ := configured.groupClients_cons t
  rw [clients]
  exact List.mem_cons_self

variable [RedisBase2 κ]

/-- Every client of the group would answer. -/
def GroupAnswers (r : Redis2P κ) (t : ThreadId) : Prop :=
  ∀ i ∈ r.groupClients t, ∃ client outputs client', r.redis2SpVector[i]? = some client ∧
    RedisBase2.randomkey client = .ok (some outputs, client')

/-- Whether they would can be computed. -/
theorem groupAnswers_iff (r : Redis2P κ) (t : ThreadId) : r.GroupAnswers t ↔
    ∀ i ∈ r.groupClients t, (((r.redis2SpVector[i]?).bind fun client =>
      (RedisBase2.randomkey client).toOption).bind Prod.fst).isSome = true := by
  apply forall₂_congr
  intro i _
  constructor
  · rintro ⟨client, outputs, client', found, answers⟩
    rw [found, Option.bind_some, answers]
    rfl
  · intro some
    obtain ⟨outputs, answers⟩ := Option.isSome_iff_exists.mp some
    obtain ⟨⟨out, client'⟩, returns, same⟩ := Option.bind_eq_some_iff.mp answers
    obtain ⟨client, found, returns⟩ := Option.bind_eq_some_iff.mp returns
    cases same
    exact ⟨client, outputs, client', found, returned_of_toOption returns⟩

instance (r : Redis2P κ) (t : ThreadId) : Decidable (r.GroupAnswers t) :=
  decidable_of_iff _ (groupAnswers_iff r t).symm

/-- `randomkey` returns true, with nil exactly if no partition of the group has a key, and else with
a key of the group. -/
def SeesKeySpace (r : Redis2P κ) (t : ThreadId) (keys : Nat → Set Bytes) : Prop :=
  ∃ out r', r.randomkey t = .ok (some out, r') ∧
    (out = none ↔ ∀ i ∈ r.groupClients t, keys i = ∅) ∧
    ∀ key, out = some key → ∃ i ∈ r.groupClients t, key ∈ keys i

/-- The first client that answers settles what `randomkey` returns. -/
theorem randomkey_first {r : Redis2P κ} (configured : r.Configured) {t : ThreadId}
    {client client' : κ} {outputs : Option Bytes}
    (found : r.redis2SpVector[r.groupStart t]? = some client)
    (answers : RedisBase2.randomkey client = .ok (some outputs, client')) :
    ∃ r', r.randomkey t = .ok (some outputs, r') := by
  obtain ⟨rest, clients⟩ := configured.groupClients_cons t
  refine ⟨{ r with redis2SpVector := r.redis2SpVector.set (r.groupStart t) client' }, ?_⟩
  unfold randomkey
  rw [configured.getGroupClient_eq, clients]
  change randomkeyEach (r.groupStart t :: rest) r = _
  rw [randomkeyEach, atIndex_succeeds RedisBase2.randomkey found answers]
  rfl

/-- If the first client of the group returns nil exactly if it has no key, and else one that it has,
`randomkey` sees the whole group in two cases. -/
theorem seesKeySpace_iff_first {r : Redis2P κ} (configured : r.Configured) {t : ThreadId}
    {keys : Nat → Set Bytes} {client client' : κ} {outputs : Option Bytes}
    (found : r.redis2SpVector[r.groupStart t]? = some client)
    (answers : RedisBase2.randomkey client = .ok (some outputs, client'))
    (honest : (outputs = none ∧ keys (r.groupStart t) = ∅) ∨
      ∃ key ∈ keys (r.groupStart t), outputs = some key) :
    r.SeesKeySpace t keys ↔
      (keys (r.groupStart t)).Nonempty ∨ ∀ i ∈ r.groupClients t, keys i = ∅ := by
  have first := configured.groupStart_mem t
  obtain ⟨r', returns⟩ := randomkey_first configured found answers
  rcases honest with ⟨rfl, empty⟩ | ⟨key, member, rfl⟩
  · -- the first partition has no key: nil is right exactly if the others have none
    constructor
    · rintro ⟨out, r'', returns', nil, -⟩
      cases returns.symm.trans returns'
      exact Or.inr (nil.mp rfl)
    · rintro (held | nothing)
      · rw [empty] at held
        exact absurd held Set.not_nonempty_empty
      · refine ⟨none, r', returns, ⟨fun _ => nothing, fun _ => rfl⟩, ?_⟩
        intro key wrong
        cases wrong
  · have held : (keys (r.groupStart t)).Nonempty := ⟨key, member⟩
    constructor
    · intro _
      exact Or.inl held
    · intro _
      refine ⟨some key, r', returns, ?_, ?_⟩
      · constructor
        · intro wrong
          cases wrong
        · intro nothing
          rw [nothing _ first] at held
          exact absurd held Set.not_nonempty_empty
      · intro key' same
        cases same
        exact ⟨r.groupStart t, first, member⟩

end Loop

variable {σ δ : Type} {server : Server σ}

/-- For every object that was constructed, whatever was called since, every thread and every
placement of the keys, with all servers of the group answering: `randomkey` sees the whole group if
and only if its first partition has a key, or no partition has. -/
theorem seesKeySpace_iff [Doubles] {docs : Documented server δ} (laws : RandomKeys docs)
    {hostList portList : Bytes} {dbIndex : Int32} {timeoutMs : Int} {partitions : Int32}
    {hashFn : Bytes → UInt32}
    {newRedis2 : Nat → Bytes → Bytes → Int32 → Int → Redis2 (Endpoint server)}
    {made r : Redis2P (Redis2 (Endpoint server))}
    (accepted : new hostList portList dbIndex timeoutMs partitions hashFn newRedis2 = .ok made)
    (since : made.Keeps r) {chosen : Int32} {data : Nat → δ}
    (placed : r.Clients fun i => Holds docs chosen (data i)) {t : ThreadId}
    (answering : r.GroupAnswers t) :
    r.SeesKeySpace t (fun i => laws.keys (data i) chosen) ↔
      (laws.keys (data (r.groupStart t)) chosen).Nonempty ∨
        ∀ i ∈ r.groupClients t, laws.keys (data i) chosen = ∅ := by
  have configured := since.configured (new_configured accepted).1
  have first := configured.groupStart_mem t
  obtain ⟨client, outputs, client', found, answers⟩ := answering _ first
  have honest := (placed _ client found).randomkey_out laws answers
  exact seesKeySpace_iff_first configured found answers honest

/-- A server that holds a list of keys and knows RANDOMKEY only. -/
def keyRules : TableRules (List Bytes) where
  answer keys args :=
    if commandOf args = .randomkey then (keys.head?.map Reply.bulk).getD .nilBulk
    else .error (ascii "ERR")
  next keys _ := keys
  wellFormed keys args := by
    split_ifs
    · cases keys with
      | nil => exact .nilBulk
      | cons key rest => exact .bulk key
    · exact .error (by decide)
  flat keys args named := by
    have other : commandOf args ≠ .randomkey := by
      rcases named with named | named | named <;> rw [named] <;> decide
    simp [other, IsArray]
  reads keys args named := rfl

/-- It keeps the promise. -/
def keyLaws : RandomKeys keyRules.docs where
  keys keys _ := {key | key ∈ keys}
  randomkey state args named := by
    have other : commandOf args ≠ .select := by
      rw [named]
      decide
    rw [keyRules.handle_other state other]
    obtain ⟨db, executed, keys⟩ := state
    cases keys with
    | nil =>
      left
      simp [keyRules, TableRules.docs, named]
    | cons key rest =>
      right
      refine ⟨key, List.mem_cons_self, ?_⟩
      simp [keyRules, named]

/-- Two partitions in one group, with these keys. -/
def twoPartitions (keys : Nat → List Bytes) :
    Except Bytes (Redis2P (Redis2 (Endpoint keyRules.server))) :=
  new (ascii "a,b") (ascii "6379") 0 1000 2 (fun _ => 0) fun i host port dbIndex timeoutMs =>
    Redis2.new host port dbIndex timeoutMs (.start ⟨[], 0, [], keys i⟩ [])

/-- The keys are placed so. -/
theorem twoPartitions_placed {keys : Nat → List Bytes}
    {made : Redis2P (Redis2 (Endpoint keyRules.server))}
    (accepted : twoPartitions keys = .ok made) :
    made.Clients fun i => Holds keyRules.docs 0 (keys i) := by
  intro i client found
  obtain ⟨host, port, rfl⟩ := (new_configured accepted).2 i client found
  exact ⟨Redis2.new_tracks keyRules.docs.toDatabases host port 0 1000 rfl, rfl⟩

/-- The first thread. -/
def firstThread : ThreadId := ⟨1, by decide⟩

/-- Two partitions in which every server answers, and what `randomkey` returns there. -/
theorem twoPartitions_of_view [Doubles] {keys : Nat → List Bytes} {out : Option Bytes}
    (shows : ((twoPartitions keys).toOption.bind fun made =>
      if made.GroupAnswers firstThread ∧ made.groupClients firstThread = [0, 1] then
        (made.randomkey firstThread).toOption
      else none).map Prod.fst = some (some out)) :
    ∃ made r', twoPartitions keys = .ok made ∧ made.GroupAnswers firstThread ∧
      made.groupClients firstThread = [0, 1] ∧
        made.randomkey firstThread = .ok (some out, r') := by
  obtain ⟨⟨out', r'⟩, performs, seen⟩ := Option.map_eq_some_iff.mp shows
  obtain ⟨made, accepted, performs⟩ := Option.bind_eq_some_iff.mp performs
  split_ifs at performs with answers
  cases seen
  exact ⟨made, r', returned_of_toOption accepted, answers.1, answers.2,
    returned_of_toOption performs⟩

/-- Only the first of two partitions holds a key: `randomkey` sees the group. -/
theorem seesKeySpace_iff_two : ∃ (_ : Doubles) (made : Redis2P (Redis2 (Endpoint keyRules.server))),
    twoPartitions (fun i => if i = 0 then [ascii "k"] else []) = .ok made ∧
      made.GroupAnswers firstThread ∧ made.groupClients firstThread = [0, 1] ∧
      made.SeesKeySpace firstThread
        (fun i => keyLaws.keys (if i = 0 then [ascii "k"] else []) 0) := by
  let doubles : Doubles := ⟨fun _ => [], fun _ => none⟩
  have shows : ((twoPartitions fun i => if i = 0 then [ascii "k"] else []).toOption.bind fun made =>
      if made.GroupAnswers firstThread ∧ made.groupClients firstThread = [0, 1] then
        (made.randomkey firstThread).toOption
      else none).map Prod.fst = some (some (some (ascii "k"))) := by decide +kernel
  obtain ⟨made, r', accepted, answers, group, -⟩ := twoPartitions_of_view shows
  have start : made.groupStart firstThread = 0 := by
    obtain ⟨rest, whole⟩ := (new_configured accepted).1.groupClients_cons firstThread
    exact (List.cons.inj (whole.symm.trans group)).1
  have sees := seesKeySpace_iff keyLaws accepted (Keeps.refl made) (twoPartitions_placed accepted)
    answers
  refine ⟨doubles, made, accepted, answers, group, sees.mpr (Or.inl ⟨ascii "k", ?_⟩)⟩
  rw [start]
  exact List.mem_cons_self

/-- Only the second of two partitions holds a key: `randomkey` reports nil. -/
theorem randomkey_misses : ∃ (_ : Doubles) (made : Redis2P (Redis2 (Endpoint keyRules.server))),
    twoPartitions (fun i => if i = 1 then [ascii "k"] else []) = .ok made ∧
      made.GroupAnswers firstThread ∧
      ¬ made.SeesKeySpace firstThread
        (fun i => keyLaws.keys (if i = 1 then [ascii "k"] else []) 0) := by
  let doubles : Doubles := ⟨fun _ => [], fun _ => none⟩
  have shows : ((twoPartitions fun i => if i = 1 then [ascii "k"] else []).toOption.bind fun made =>
      if made.GroupAnswers firstThread ∧ made.groupClients firstThread = [0, 1] then
        (made.randomkey firstThread).toOption
      else none).map Prod.fst = some (some none) := by decide +kernel
  obtain ⟨made, r', accepted, answers, group, returns⟩ := twoPartitions_of_view shows
  refine ⟨doubles, made, accepted, answers, ?_⟩
  rintro ⟨out, r'', returns', nil, -⟩
  cases returns.symm.trans returns'
  have second : (1 : Nat) ∈ made.groupClients firstThread := by
    rw [group]
    decide
  have nothing : ascii "k" ∈ (∅ : Set Bytes) := by
    rw [← nil.mp rfl 1 second]
    exact List.mem_cons_self
  exact nothing

end Redis2P

end LibRedis
