import LibRedis.KeyRouting

/-!
# Reads fail over, writes stop

A call of several replicas asks them one after the other, in the order of the thread. A read goes on
past those that fail and stops at the first that answers; a write goes on past those that answer and
stops at the first that fails. The two loops are compared with the replicas that answer in the state
before the call: a replica is asked once, so what it answers does not depend on the others.
-/

namespace LibRedis

open Decimal (ascii)

namespace Redis2P

variable {κ : Type}

/-- Calls change the clients and the error text only. -/
structure Since (made r : Redis2P κ) : Prop extends made.Keeps r where
  /-- The hosts stay. -/
  hosts : r.hosts = made.hosts
  /-- The ports stay. -/
  ports : r.ports = made.ports

/-- Nothing is changed where nothing is done. -/
theorem Since.refl (r : Redis2P κ) : r.Since r := ⟨Keeps.refl r, rfl, rfl⟩

/-- What two calls keep is kept. -/
theorem Since.trans {r r' r'' : Redis2P κ} (first : r.Since r') (second : r'.Since r'') :
    r.Since r'' where
  toKeeps := first.toKeeps.trans second.toKeeps
  hosts := second.hosts.trans first.hosts
  ports := second.ports.trans first.ports

variable [RedisBase2 κ] {α : Type}

/-- What a client does if it is called now: it answers with outputs, or it fails. -/
def Replies (r : Redis2P κ) (key : Bytes) (m : KeyMethod α) (i : Nat) (out : Option α)
    (client' : κ) : Prop :=
  ∃ client, r.redis2SpVector[i]? = some client ∧ RedisBase2.call client key m = .ok (out, client')

/-- A client answers. -/
def Answers (r : Redis2P κ) (key : Bytes) (m : KeyMethod α) (i : Nat) (outputs : α) : Prop :=
  ∃ client', r.Replies key m i (some outputs) client'

/-- A client fails. -/
def Fails (r : Redis2P κ) (key : Bytes) (m : KeyMethod α) (i : Nat) : Prop :=
  ∃ client', r.Replies key m i none client'

/-- These clients were called once, and no others. -/
structure Asked (r : Redis2P κ) (key : Bytes) (m : KeyMethod α) (asked : List Nat)
    (r' : Redis2P κ) : Prop where
  /-- Nothing but clients and the error text has changed. -/
  since : r.Since r'
  /-- Each of them is as one call leaves it. -/
  once : ∀ i ∈ asked, ∃ out client', r.Replies key m i out client' ∧
    r'.redis2SpVector[i]? = some client'
  /-- The others are as they were. -/
  others : ∀ i, i ∉ asked → r'.redis2SpVector[i]? = r.redis2SpVector[i]?

/-- A client does one thing. -/
theorem Replies.unique {r : Redis2P κ} {key : Bytes} {m : KeyMethod α} {i : Nat}
    {out out' : Option α} {client client' : κ} (replies : r.Replies key m i out client)
    (replies' : r.Replies key m i out' client') : out = out' ∧ client = client' := by
  obtain ⟨before, found, calls⟩ := replies
  obtain ⟨before', found', calls'⟩ := replies'
  obtain rfl := Option.some.inj (found.symm.trans found')
  exact Prod.mk.inj (Except.ok.inj (calls.symm.trans calls'))

/-- A client that answers does not fail. -/
theorem Answers.not_fails {r : Redis2P κ} {key : Bytes} {m : KeyMethod α} {i : Nat} {outputs : α}
    (answers : r.Answers key m i outputs) : ¬ r.Fails key m i := by
  obtain ⟨client, replies⟩ := answers
  rintro ⟨client', replies'⟩
  cases (replies.unique replies').1

/-- The object with one client and the error text as they are behind a call. -/
def withClient (r : Redis2P κ) (i : Nat) (client : κ) (text : Bytes) : Redis2P κ :=
  { r with redis2SpVector := r.redis2SpVector.set i client, error := text }

omit [RedisBase2 κ] in
/-- Nothing else has changed. -/
theorem since_withClient (r : Redis2P κ) (i : Nat) (client : κ) (text : Bytes) :
    r.Since (r.withClient i client text) := ⟨⟨rfl, rfl, List.length_set⟩, rfl, rfl⟩

/-- A call of one client. -/
theorem atIndex_replies {r r' : Redis2P κ} {key : Bytes} {m : KeyMethod α} {i : Nat}
    {out : Option α}
    (returns : r.atIndex i (fun client => RedisBase2.call client key m) = .ok (out, r')) :
    ∃ client', r.Replies key m i out client' ∧ r' = r.withClient i client' r.error := by
  unfold atIndex at returns
  split at returns
  · cases returns
  · rename_i client found
    obtain ⟨⟨out', client'⟩, acts, same⟩ := bind_returns returns
    cases same
    exact ⟨client', ⟨client, found, acts⟩, rfl⟩

/-- A client that does something now can be called. -/
theorem Replies.atIndex {r : Redis2P κ} {key : Bytes} {m : KeyMethod α} {i : Nat}
    {out : Option α} {client' : κ} (replies : r.Replies key m i out client') :
    r.atIndex i (fun client => RedisBase2.call client key m) =
      .ok (out, r.withClient i client' r.error) := by
  obtain ⟨client, found, calls⟩ := replies
  exact atIndex_succeeds _ found calls

/-- The client that was called is there. -/
theorem Replies.called {r : Redis2P κ} {key : Bytes} {m : KeyMethod α} {i : Nat}
    {out : Option α} {client' : κ} (replies : r.Replies key m i out client') (text : Bytes) :
    (r.withClient i client' text).redis2SpVector[i]? = some client' := by
  obtain ⟨client, found, -⟩ := replies
  have inside := (List.getElem?_eq_some_iff.mp found).1
  exact List.getElem?_set_self inside

/-- Another client does the same behind the call. -/
theorem replies_withClient {r : Redis2P κ} {key : Bytes} {m : KeyMethod α} {i j : Nat}
    (other : j ≠ i) {client : κ} {text : Bytes} {out : Option α} {client' : κ} :
    (r.withClient i client text).Replies key m j out client' ↔ r.Replies key m j out client' := by
  unfold Replies withClient
  rw [List.getElem?_set_ne other.symm]

/-- Another client answers behind the call if it did before. -/
theorem answers_withClient {r : Redis2P κ} {key : Bytes} {m : KeyMethod α} {i j : Nat}
    (other : j ≠ i) {client : κ} {text : Bytes} {outputs : α} :
    (r.withClient i client text).Answers key m j outputs ↔ r.Answers key m j outputs :=
  exists_congr fun _ => replies_withClient other

/-- Another client fails behind the call if it did before. -/
theorem fails_withClient {r : Redis2P κ} {key : Bytes} {m : KeyMethod α} {i j : Nat}
    (other : j ≠ i) {client : κ} {text : Bytes} :
    (r.withClient i client text).Fails key m j ↔ r.Fails key m j :=
  exists_congr fun _ => replies_withClient other

/-- No call is made of no client. -/
theorem Asked.nil (r : Redis2P κ) (key : Bytes) (m : KeyMethod α) (text : Bytes) :
    r.Asked key m [] { r with error := text } where
  since := ⟨⟨rfl, rfl, rfl⟩, rfl, rfl⟩
  once := by simp
  others _ _ := rfl

/-- A call of one client and calls of others are calls of all of them. -/
theorem Asked.cons {r r' : Redis2P κ} {key : Bytes} {m : KeyMethod α} {i : Nat} {out : Option α}
    {client' : κ} (replies : r.Replies key m i out client') {text : Bytes} {asked : List Nat}
    (absent : i ∉ asked) (rest : (r.withClient i client' text).Asked key m asked r') :
    r.Asked key m (i :: asked) r' := by
  refine ⟨(since_withClient r i client' text).trans rest.since, ?_, ?_⟩
  · intro j member
    rcases List.mem_cons.mp member with rfl | later
    · refine ⟨out, client', replies, ?_⟩
      rw [rest.others j absent]
      exact replies.called text
    · have other := ne_of_mem_of_not_mem later absent
      obtain ⟨out', client'', replies', after⟩ := rest.once j later
      exact ⟨out', client'', (replies_withClient other).mp replies', after⟩
  · intro j notAsked
    have other : j ≠ i := fun same => notAsked (List.mem_cons.mpr (Or.inl same))
    have later : j ∉ asked := fun member => notAsked (List.mem_cons_of_mem i member)
    rw [rest.others j later]
    exact List.getElem?_set_ne other.symm

/-- A call of one client alone. -/
theorem Asked.one {r : Redis2P κ} {key : Bytes} {m : KeyMethod α} {i : Nat} {out : Option α}
    {client' : κ} (replies : r.Replies key m i out client') (text : Bytes) :
    r.Asked key m [i] (r.withClient i client' text) := by
  have absent : i ∉ ([] : List Nat) := List.not_mem_nil
  exact Asked.cons replies absent (Asked.nil (r.withClient i client' text) key m text)

/-- The text that names a host and says why its client has failed. -/
def hostText (host port : Bytes) (client : κ) : Bytes :=
  ascii "[" ++ host ++ ascii ":" ++ port ++ ascii "] " ++ RedisBase2.lastError client

/-- A read asks the clients in this order until one answers. -/
structure ReadsFrom (r : Redis2P κ) (key : Bytes) (m : KeyMethod α) (order : List Nat)
    (out : Option α) (r' : Redis2P κ) : Prop where
  /-- It succeeds if and only if one of them answers. -/
  succeeds : out.isSome ↔ ∃ i ∈ order, ∃ outputs, r.Answers key m i outputs
  /-- The outputs are those of the first that answers, and nobody is asked behind it. -/
  first : ∀ outputs, out = some outputs → ∃ failing i later, order = failing ++ i :: later ∧
    (∀ j ∈ failing, r.Fails key m j) ∧ r.Answers key m i outputs ∧
      r.Asked key m (failing ++ [i]) r'
  /-- Where none answers, all are asked. -/
  all : out = none → (∀ i ∈ order, r.Fails key m i) ∧ r.Asked key m order r'

/-- A write asks the clients in this order until one fails. -/
structure WritesTo (r : Redis2P κ) (key : Bytes) (m : KeyMethod α) (order : List Nat)
    (out : Option α) (r' : Redis2P κ) : Prop where
  /-- It succeeds if and only if each of them answers. -/
  succeeds : out.isSome ↔ ∀ i ∈ order, ∃ outputs, r.Answers key m i outputs
  /-- Then all are asked. -/
  all : out.isSome → r.Asked key m order r'
  /-- Otherwise those before the first that fails have answered, nobody is asked behind it, and the
  error text names its host. -/
  first : out = none → ∃ applied i later, order = applied ++ i :: later ∧
    (∀ j ∈ applied, ∃ outputs, r.Answers key m j outputs) ∧ r.Fails key m i ∧
      r.Asked key m (applied ++ [i]) r' ∧ ∃ client', r'.redis2SpVector[i]? = some client' ∧
        r'.error = hostText (r.hosts.getD i []) (r.ports.getD i []) client'

omit [RedisBase2 κ] in
/-- Clients up to one of several are among these. -/
theorem mem_later {asked later behind : List Nat} {i j : Nat} (order : later = asked ++ i :: behind)
    (member : j ∈ asked ++ [i]) : j ∈ later := by
  rw [order]
  simp only [List.mem_append, List.mem_cons] at member ⊢
  tauto

/-- All fail before the call of one that fails, if the others fail behind it. -/
theorem fails_cons {r : Redis2P κ} {key : Bytes} {m : KeyMethod α} {i : Nat} {client' : κ}
    (replies : r.Replies key m i none client') {text : Bytes} {failing : List Nat}
    (absent : i ∉ failing) (failed : ∀ j ∈ failing, (r.withClient i client' text).Fails key m j) :
    ∀ j ∈ i :: failing, r.Fails key m j := by
  intro j member
  rcases List.mem_cons.mp member with rfl | member
  · exact ⟨client', replies⟩
  · have other := ne_of_mem_of_not_mem member absent
    exact (fails_withClient other).mp (failed j member)

/-- All answer before the call of one that answers, if the others answer behind it. -/
theorem answers_cons {r : Redis2P κ} {key : Bytes} {m : KeyMethod α} {i : Nat} {outputs : α}
    {client' : κ} (replies : r.Replies key m i (some outputs) client') {text : Bytes}
    {applied : List Nat} (absent : i ∉ applied)
    (answered : ∀ j ∈ applied, ∃ outputs, (r.withClient i client' text).Answers key m j outputs) :
    ∀ j ∈ i :: applied, ∃ outputs, r.Answers key m j outputs := by
  intro j member
  rcases List.mem_cons.mp member with rfl | member
  · exact ⟨outputs, client', replies⟩
  · have other := ne_of_mem_of_not_mem member absent
    obtain ⟨outputs', answers'⟩ := answered j member
    exact ⟨outputs', (answers_withClient other).mp answers'⟩

/-- A read of no client. -/
theorem ReadsFrom.nil (r : Redis2P κ) (key : Bytes) (m : KeyMethod α) :
    r.ReadsFrom key m [] none r where
  succeeds := by simp
  first := by simp
  all _ := ⟨by simp, Asked.nil r key m r.error⟩

/-- A read of a client that answers. -/
theorem ReadsFrom.answer {r : Redis2P κ} {key : Bytes} {m : KeyMethod α} {i : Nat} {outputs : α}
    {client' : κ} (replies : r.Replies key m i (some outputs) client') (later : List Nat) :
    r.ReadsFrom key m (i :: later) (some outputs) (r.withClient i client' r.error) := by
  have answers : r.Answers key m i outputs := ⟨client', replies⟩
  refine ⟨?_, ?_, ?_⟩
  · constructor
    · intro _
      exact ⟨i, List.mem_cons_self, outputs, answers⟩
    · intro _
      rfl
  · intro outputs' same
    cases same
    exact ⟨[], i, later, rfl, by simp, answers, Asked.one replies r.error⟩
  · intro same
    cases same

/-- A read goes on past a client that fails. -/
theorem ReadsFrom.cons {r r' : Redis2P κ} {key : Bytes} {m : KeyMethod α} {i : Nat} {client' : κ}
    (replies : r.Replies key m i none client') {text : Bytes} {later : List Nat}
    (absent : i ∉ later) {out : Option α}
    (rest : (r.withClient i client' text).ReadsFrom key m later out r') :
    r.ReadsFrom key m (i :: later) out r' := by
  have fails : r.Fails key m i := ⟨client', replies⟩
  refine ⟨?_, ?_, ?_⟩
  · rw [rest.succeeds]
    constructor
    · rintro ⟨j, member, outputs, answers⟩
      have other := ne_of_mem_of_not_mem member absent
      exact ⟨j, List.mem_cons_of_mem i member, outputs, (answers_withClient other).mp answers⟩
    · rintro ⟨j, member, outputs, answers⟩
      rcases List.mem_cons.mp member with rfl | member
      · exact absurd fails answers.not_fails
      · have other := ne_of_mem_of_not_mem member absent
        exact ⟨j, member, outputs, (answers_withClient other).mpr answers⟩
  · intro outputs same
    obtain ⟨failing, k, behind, order, failed, answers, asked⟩ := rest.first outputs same
    have notAsked : i ∉ failing ++ [k] := fun member => absent (mem_later order member)
    have notFailing : i ∉ failing := fun member => notAsked (List.mem_append_left [k] member)
    have other : k ≠ i := by
      rintro rfl
      exact notAsked (List.mem_append_right failing List.mem_cons_self)
    refine ⟨i :: failing, k, behind, ?_, fails_cons replies notFailing failed, ?_, ?_⟩
    · rw [order, List.cons_append]
    · exact (answers_withClient other).mp answers
    · exact Asked.cons replies notAsked asked
  · intro same
    obtain ⟨failed, asked⟩ := rest.all same
    exact ⟨fails_cons replies absent failed, Asked.cons replies absent asked⟩

/-- A write to no client, behind one that has answered. -/
theorem WritesTo.nil (r : Redis2P κ) (key : Bytes) (m : KeyMethod α) (outputs : α) :
    r.WritesTo key m [] (some outputs) r where
  succeeds := by simp
  all _ := Asked.nil r key m r.error
  first := by simp

/-- A write stops at a client that fails. -/
theorem WritesTo.fail {r : Redis2P κ} {key : Bytes} {m : KeyMethod α} {i : Nat} {client' : κ}
    (replies : r.Replies key m i none client') (later : List Nat) :
    r.WritesTo key m (i :: later) none (r.withClient i client'
      (hostText (r.hosts.getD i []) (r.ports.getD i []) client')) := by
  have fails : r.Fails key m i := ⟨client', replies⟩
  refine ⟨?_, ?_, ?_⟩
  · constructor
    · intro some
      cases some
    · intro all
      obtain ⟨outputs, answers⟩ := all i List.mem_cons_self
      exact absurd fails answers.not_fails
  · intro some
    cases some
  · intro _
    exact ⟨[], i, later, rfl, by simp, fails, Asked.one replies _, client', replies.called _, rfl⟩

/-- A write goes on past a client that answers. -/
theorem WritesTo.cons {r r' : Redis2P κ} {key : Bytes} {m : KeyMethod α} {i : Nat} {client' : κ}
    {outputs : α} (replies : r.Replies key m i (some outputs) client') {text : Bytes}
    {later : List Nat} (absent : i ∉ later) {out : Option α}
    (rest : (r.withClient i client' text).WritesTo key m later out r') :
    r.WritesTo key m (i :: later) out r' := by
  refine ⟨?_, ?_, ?_⟩
  · rw [rest.succeeds]
    constructor
    · exact answers_cons replies absent
    · intro all j member
      have other := ne_of_mem_of_not_mem member absent
      obtain ⟨outputs', answers'⟩ := all j (List.mem_cons_of_mem i member)
      exact ⟨outputs', (answers_withClient other).mpr answers'⟩
  · intro some
    exact Asked.cons replies absent (rest.all some)
  · intro none
    obtain ⟨applied, k, behind, order, answered, fails, asked, text⟩ := rest.first none
    have notAsked : i ∉ applied ++ [k] := fun member => absent (mem_later order member)
    have notApplied : i ∉ applied := fun member => notAsked (List.mem_append_left [k] member)
    have other : k ≠ i := by
      rintro rfl
      exact notAsked (List.mem_append_right applied List.mem_cons_self)
    refine ⟨i :: applied, k, behind, ?_, answers_cons replies notApplied answered, ?_, ?_, text⟩
    · rw [order, List.cons_append]
    · exact (fails_withClient other).mp fails
    · exact Asked.cons replies notAsked asked

/-- The text of a client that was called names its host. -/
theorem setIndexError_withClient {r : Redis2P κ} {key : Bytes} {m : KeyMethod α} {i : Nat}
    {out : Option α} {client' : κ} (replies : r.Replies key m i out client') (text : Bytes) :
    (r.withClient i client' text).setIndexError i = .ok (r.withClient i client'
      (hostText (r.hosts.getD i []) (r.ports.getD i []) client')) := by
  unfold setIndexError
  rw [replies.called text]
  rfl

/-- Loop of `FOR_EACH_GROUP_READ`. -/
theorem readEach_readsFrom {key : Bytes} {m : KeyMethod α} {order : List Nat} (once : order.Nodup)
    {r r' : Redis2P κ} {out : Option α} (returns : readEach key m order r = .ok (out, r')) :
    r.ReadsFrom key m order out r' := by
  induction order generalizing r with
  | nil =>
    cases returns
    exact ReadsFrom.nil r' key m
  | cons i later ih =>
    obtain ⟨absent, once⟩ := List.nodup_cons.mp once
    obtain ⟨⟨outᵢ, rᵢ⟩, calls, goesOn⟩ := bind_returns returns
    obtain ⟨client', replies, rfl⟩ := atIndex_replies calls
    cases outᵢ with
    | none =>
      obtain ⟨reported, reports, goesOn⟩ := bind_returns goesOn
      rw [setIndexError_withClient replies] at reports
      cases reports
      exact ReadsFrom.cons replies absent (ih once goesOn)
    | some outputs =>
      cases goesOn
      exact ReadsFrom.answer replies later

/-- Loop of `FOR_EACH_GROUP_WRITE`, behind a client that has answered if no other is left. -/
theorem writeEach_writesTo {key : Bytes} {m : KeyMethod α} {order : List Nat} (once : order.Nodup)
    {last : Option α} (some : order = [] → last.isSome) {r r' : Redis2P κ} {out : Option α}
    (returns : writeEach key m order last r = .ok (out, r')) :
    r.WritesTo key m order out r' := by
  induction order generalizing r last with
  | nil =>
    cases returns
    obtain ⟨outputs, rfl⟩ := Option.isSome_iff_exists.mp (some rfl)
    exact WritesTo.nil r' key m outputs
  | cons i later ih =>
    obtain ⟨absent, once⟩ := List.nodup_cons.mp once
    obtain ⟨⟨outᵢ, rᵢ⟩, calls, goesOn⟩ := bind_returns returns
    obtain ⟨client', replies, rfl⟩ := atIndex_replies calls
    cases outᵢ with
    | none =>
      obtain ⟨reported, reports, stops⟩ := bind_returns goesOn
      rw [setIndexError_withClient replies] at reports
      cases reports
      cases stops
      exact WritesTo.fail replies later
    | some outputs =>
      exact WritesTo.cons replies absent (ih once (fun _ => rfl) goesOn)

/-- Clients that come later return from their calls behind the call of another. -/
theorem each_withClient {r : Redis2P κ} {key : Bytes} {m : KeyMethod α} {i : Nat}
    {later : List Nat} (absent : i ∉ later)
    (each : ∀ j ∈ i :: later, ∃ out client', r.Replies key m j out client') (client : κ)
    (text : Bytes) : ∀ j ∈ later, ∃ out client',
      (r.withClient i client text).Replies key m j out client' := by
  intro j member
  have other := ne_of_mem_of_not_mem member absent
  obtain ⟨out, client', replies⟩ := each j (List.mem_cons_of_mem i member)
  exact ⟨out, client', (replies_withClient other).mpr replies⟩

/-- The loop of a read comes to an end if the calls do. -/
theorem readEach_returns {key : Bytes} {m : KeyMethod α} {order : List Nat} (once : order.Nodup)
    {r : Redis2P κ} (each : ∀ i ∈ order, ∃ out client', r.Replies key m i out client') :
    ∃ out r', readEach key m order r = .ok (out, r') := by
  induction order generalizing r with
  | nil => exact ⟨none, r, rfl⟩
  | cons i later ih =>
    obtain ⟨absent, once⟩ := List.nodup_cons.mp once
    obtain ⟨out, client', replies⟩ := each i List.mem_cons_self
    have rest := each_withClient absent each client'
    rw [readEach, replies.atIndex]
    cases out with
    | none =>
      obtain ⟨out, r', returns⟩ := ih once (rest _)
      refine ⟨out, r', ?_⟩
      change (do readEach key m later (← (r.withClient i client' r.error).setIndexError i)) = _
      rw [setIndexError_withClient replies]
      exact returns
    | some outputs => exact ⟨some outputs, _, rfl⟩

/-- The loop of a write comes to an end if the calls do. -/
theorem writeEach_returns {key : Bytes} {m : KeyMethod α} {order : List Nat} (once : order.Nodup)
    {last : Option α} {r : Redis2P κ}
    (each : ∀ i ∈ order, ∃ out client', r.Replies key m i out client') :
    ∃ out r', writeEach key m order last r = .ok (out, r') := by
  induction order generalizing r last with
  | nil => exact ⟨last, r, rfl⟩
  | cons i later ih =>
    obtain ⟨absent, once⟩ := List.nodup_cons.mp once
    obtain ⟨out, client', replies⟩ := each i List.mem_cons_self
    have rest := each_withClient absent each client'
    rw [writeEach, replies.atIndex]
    cases out with
    | none =>
      refine ⟨none, r.withClient i client'
        (hostText (r.hosts.getD i []) (r.ports.getD i []) client'), ?_⟩
      change (do return (none, ← (r.withClient i client' r.error).setIndexError i)) = _
      rw [setIndexError_withClient replies]
      rfl
    | some outputs => exact ih once (rest _)

/-- How the calls about a key treat the clients that fail. -/
structure FailsOver (r : Redis2P κ) (t : ThreadId) (key : Bytes) (m : KeyMethod α) : Prop where
  /-- There is a replica in every group, and each comes once. -/
  replicas : (r.replicas t.seed key).length = r.groups ∧ (r.replicas t.seed key).Nodup
  /-- A read asks them until one answers. -/
  reads : ∀ out r', r.forEachGroupRead t key m = .ok (out, r') →
    r.ReadsFrom key m (r.replicas t.seed key) out r'
  /-- A write asks them until one fails. -/
  writes : ∀ out r', r.forEachGroupWrite t key m = .ok (out, r') →
    r.WritesTo key m (r.replicas t.seed key) out r'
  /-- No client of another partition is touched. -/
  others : ∀ out r', (r.forEachGroupRead t key m = .ok (out, r') ∨
    r.forEachGroupWrite t key m = .ok (out, r')) → ∀ i, i % r.hostNum ≠ r.getKeyHostIndex key →
      r'.redis2SpVector[i]? = r.redis2SpVector[i]?
  /-- Both come to an end if the calls of the replicas do. -/
  returns : (∀ i ∈ r.replicas t.seed key, ∃ out client', r.Replies key m i out client') →
    (∃ out r', r.forEachGroupRead t key m = .ok (out, r')) ∧
      ∃ out r', r.forEachGroupWrite t key m = .ok (out, r')

/-- The clients that a read or a write asks are replicas. -/
theorem asked_others {r r' : Redis2P κ} (configured : r.Configured) {seed : Nat} {key : Bytes}
    {m : KeyMethod α} {asked : List Nat} (each : r.Asked key m asked r')
    (among : ∀ i ∈ asked, i ∈ r.replicas seed key) (i : Nat)
    (elsewhere : i % r.hostNum ≠ r.getKeyHostIndex key) :
    r'.redis2SpVector[i]? = r.redis2SpVector[i]? := by
  apply each.others
  intro member
  exact elsewhere (configured.mem_replicas.mp (among i member)).2

/-- An object that the constructor has made treats them so. -/
theorem Configured.failsOver {r : Redis2P κ} (configured : r.Configured) (t : ThreadId)
    (key : Bytes) (m : KeyMethod α) : r.FailsOver t key m := by
  have once := configured.replicas_nodup t.seed key
  have reads (out : Option α) (r' : Redis2P κ)
      (returns : r.forEachGroupRead t key m = .ok (out, r')) :
      r.ReadsFrom key m (r.replicas t.seed key) out r' := by
    rw [configured.forEachGroupRead_eq] at returns
    exact readEach_readsFrom once returns
  have writes (out : Option α) (r' : Redis2P κ)
      (returns : r.forEachGroupWrite t key m = .ok (out, r')) :
      r.WritesTo key m (r.replicas t.seed key) out r' := by
    rw [configured.forEachGroupWrite_eq] at returns
    exact writeEach_writesTo once
      (fun none => absurd none (configured.replicas_ne_nil t.seed key)) returns
  refine ⟨⟨?_, once⟩, reads, writes, ?_, ?_⟩
  · rw [replicas, List.length_map, List.length_range]
  · rintro out r' (returns | returns)
    · have asks := reads out r' returns
      cases out with
      | none => exact asked_others configured (asks.all rfl).2 fun i member => member
      | some outputs =>
        obtain ⟨failing, i, later, order, -, -, asked⟩ := asks.first outputs rfl
        exact asked_others configured asked fun j member => mem_later order member
    · have asks := writes out r' returns
      cases out with
      | none =>
        obtain ⟨applied, i, later, order, -, -, asked, -⟩ := asks.first rfl
        exact asked_others configured asked fun j member => mem_later order member
      | some outputs => exact asked_others configured (asks.all rfl) fun i member => member
  · intro each
    rw [configured.forEachGroupRead_eq, configured.forEachGroupWrite_eq]
    exact ⟨readEach_returns once each, writeEach_returns once each⟩

omit [RedisBase2 κ] in
/-- The client of a place is made for the host and the port of this place. -/
theorem new_hosts {hostList portList : Bytes} {dbIndex : Int32} {timeoutMs : Int}
    {partitions : Int32} {hashFn : Bytes → UInt32}
    {newRedis2 : Nat → Bytes → Bytes → Int32 → Int → κ} {made : Redis2P κ}
    (accepted : new hostList portList dbIndex timeoutMs partitions hashFn newRedis2 = .ok made)
    {i : Nat} (inside : i < made.redis2SpVector.length) : made.redis2SpVector[i]? =
      some (newRedis2 i (made.hosts.getD i []) (made.ports.getD i []) dbIndex timeoutMs) := by
  obtain ⟨⟨hosts, ports⟩, parses, accepted⟩ := bind_returns accepted
  obtain ⟨groups, counts, accepted⟩ := bind_returns accepted
  have matched := (length_parseHosts parses).1
  cases accepted
  simp only [List.length_mapIdx, List.length_zip] at inside
  have isHost : i < hosts.length := by omega
  have isPort : i < ports.length := by omega
  simp [isHost, isPort]

/-- For every object that was constructed, whatever was called since, every key, every thread and
every set of clients that fail: reads go on to the next replica, writes stop at the first that
fails, and the host and the port of the error text are those its client was made for. -/
theorem new_failsOver {hostList portList : Bytes} {dbIndex : Int32} {timeoutMs : Int}
    {partitions : Int32} {hashFn : Bytes → UInt32}
    {newRedis2 : Nat → Bytes → Bytes → Int32 → Int → κ} {made r : Redis2P κ}
    (accepted : new hostList portList dbIndex timeoutMs partitions hashFn newRedis2 = .ok made)
    (since : made.Since r) (t : ThreadId) (key : Bytes) (m : KeyMethod α) :
    r.FailsOver t key m ∧ ∀ i ∈ r.replicas t.seed key, made.redis2SpVector[i]? =
      some (newRedis2 i (r.hosts.getD i []) (r.ports.getD i []) dbIndex timeoutMs) := by
  have configured := since.toKeeps.configured (new_configured accepted).1
  refine ⟨configured.failsOver t key m, ?_⟩
  intro i member
  have inside := (configured.mem_replicas.mp member).1
  rw [since.toKeeps.length] at inside
  rw [since.hosts, since.ports]
  exact new_hosts accepted inside

/-- A client that counts the calls that it answers, and fails while it is down. -/
structure CountingClient where
  isUp : Bool
  calls : Nat

instance : RedisBase2 CountingClient where
  call client _
    | .set _ => .ok (if client.isUp then (some (), { client with calls := client.calls + 1 })
        else (none, client))
    | _ => .ok (none, client)
  keys client _ := .ok (none, client)
  randomkey client := .ok (none, client)
  select client _ := .ok (client.isUp, client)
  flushall client := .ok (client.isUp, client)
  flushdb client := .ok (client.isUp, client)
  getHost _ := []
  getPort _ := []
  lastError _ := ascii "down"

/-- Two groups of two hosts, the third of which is down. -/
theorem new_failsOver_four : ∃ made : Redis2P CountingClient,
    new (ascii "a,b,c,d") (ascii "6379") 0 50 2 (fun _ => 2)
      (fun i _ _ _ _ => ⟨i != 2, 0⟩) = .ok made ∧
    made.FailsOver ⟨3, by decide⟩ (ascii "k") (.set (ascii "v")) ∧
    ∀ i ∈ made.replicas 3 (ascii "k"), made.redis2SpVector[i]? = some ⟨i != 2, 0⟩ := by
  obtain ⟨made, accepted⟩ : ∃ made : Redis2P CountingClient,
      new (ascii "a,b,c,d") (ascii "6379") 0 50 2 (fun _ => 2)
        (fun i _ _ _ _ => ⟨i != 2, 0⟩) = .ok made := ⟨_, rfl⟩
  exact ⟨made, accepted, new_failsOver accepted (Since.refl made) ⟨3, by decide⟩ (ascii "k")
    (.set (ascii "v"))⟩

end Redis2P

end LibRedis
