import Mathlib.Data.List.Induction
import Mathlib.Logic.Function.Basic
import LibRedis.Lib.Decimal
import LibRedis.TcpClient

/-!
# The resolver's cache

`HostResolver::resolve` as called by any number of threads. A call looks into the cache, asks the
system, and stores what it got; the lock is released in between, so the calls of several threads
interleave at these three places. Failures are stored like successes, so a call that missed before a
success was stored can store its failure over it.
-/

namespace LibRedis

open Decimal (ascii)

/-- `AF_INET`. -/
def afInet : Int := 2
/-- `AF_INET6`. -/
def afInet6 : Int := 10
/-- `EPROTONOSUPPORT`. -/
def eprotonosupport : Int := 93
/-- `ESOCKTNOSUPPORT`. -/
def esocktnosupport : Int := 94
/-- `EHOSTUNREACH`. -/
def ehostunreach : Int := 113

/-- The address of an endpoint. -/
inductive NetAddress where
  /-- Nothing was stored. -/
  | unset
  /-- A `sockaddr_in`. -/
  | in4 (address : Bytes)
  /-- A `sockaddr_in6`. -/
  | in6 (address : Bytes)
  deriving DecidableEq, Repr

/-- `net_endpoint`. -/
structure NetEndpoint where
  /-- `domain`. -/
  domain : Int
  /-- `type`. -/
  type : Int
  /-- `protocol`. -/
  protocol : Int
  /-- `address`. -/
  address : NetAddress
  deriving DecidableEq, Repr

/-- What `connect` passes to the resolver: a stream over TCP to an IPv4 address. -/
def connectHints : NetEndpoint := ⟨afInet, 1, 6, .unset⟩

/-- How `getaddrinfo` fails. -/
inductive GaiError where
  /-- `EAI_BADFLAGS`. -/
  | badFlags
  /-- `EAI_FAMILY`. -/
  | family
  /-- `EAI_SOCKTYPE`. -/
  | socktype
  /-- `EAI_SYSTEM`, with the error in `errno`. -/
  | system (errno : Int) (reported : errno ≠ 0)
  /-- Any other failure. -/
  | other
  deriving DecidableEq, Repr

/-- The `errno` that `resolve_host` leaves. -/
def GaiError.errno : GaiError → Int
  | badFlags => einval
  | family => eprotonosupport
  | socktype => esocktnosupport
  | system errno _ => errno
  | other => ehostunreach

/-- A failure leaves an error. -/
theorem GaiError.errno_ne_zero (error : GaiError) : error.errno ≠ 0 := by
  cases error with
  | system errno reported => exact reported
  | _ => exact show (_ : Int) ≠ 0 by decide

/-- What `getaddrinfo` answers: the family and the address of its first result, or an error. -/
inductive AddrInfo where
  /-- A first result. -/
  | found (family : Int) (address : Bytes)
  /-- A failure. -/
  | failed (error : GaiError)
  deriving DecidableEq, Repr

/-- `HostEntry`. -/
structure HostEntry where
  /-- `endpoint`. -/
  endpoint : NetEndpoint
  /-- `ec`. -/
  ec : Int
  deriving DecidableEq, Repr

/-- `resolve_host` and the code that `__resolve` makes of it. -/
def resolveHost (ep : NetEndpoint) : AddrInfo → HostEntry
  | .found family address =>
    if family = afInet then ⟨{ ep with domain := afInet, address := .in4 address }, 0⟩
    else if family = afInet6 then ⟨{ ep with domain := afInet6, address := .in6 address }, 0⟩
    else ⟨ep, 0⟩
  | .failed error => ⟨ep, error.errno⟩

/-- The code is zero exactly for an address. -/
theorem resolveHost_ec (ep : NetEndpoint) (info : AddrInfo) :
    (resolveHost ep info).ec = 0 ↔ ∃ family address, info = .found family address := by
  cases info with
  | found family address =>
    rw [resolveHost]
    split
    · simp
    · split
      · simp
      · simp
  | failed error => simp [resolveHost, error.errno_ne_zero]

/-- `host_service_t`. -/
abbrev HostService := Bytes × Bytes

/-- Where a thread is in a call of `resolve`. -/
inductive ResolveCall where
  /-- It is in no call. -/
  | idle
  /-- The cache has no entry, and the system is asked. -/
  | resolving (key : HostService) (endpoint : NetEndpoint)
  /-- The system has answered, and the answer is not stored yet. -/
  | updating (key : HostService) (entry : HostEntry)

/-- What a thread does, or what it is answered. -/
inductive ResolveAction where
  /-- It calls `resolve`, with what it has in the endpoint. -/
  | resolve (key : HostService) (endpoint : NetEndpoint)
  /-- The system answers. -/
  | answer (info : AddrInfo)
  /-- It stores the answer. -/
  | update

/-- `HostResolver`, with the calls of the threads and what happened in them so far. -/
structure HostResolver (θ : Type) where
  /-- `enable_cache_`. -/
  enableCache : Bool
  /-- `dns_cache_`. -/
  dnsCache : HostService → Option HostEntry
  /-- The calls. -/
  calls : θ → ResolveCall
  /-- The endpoints that the system gave, latest first. -/
  given : List (HostService × NetEndpoint)
  /-- What the calls have returned, latest first. -/
  returned : List (HostService × HostEntry)

namespace HostResolver

variable {θ : Type}

/-- The constructor. -/
def new (enableCache : Bool) : HostResolver θ where
  enableCache := enableCache
  dnsCache := fun _ => none
  calls := fun _ => .idle
  given := []
  returned := []

/-- `__lookup_cache`. -/
def lookupCache (r : HostResolver θ) (key : HostService) : Option HostEntry := r.dnsCache key

/-- `__update_cache`. -/
def updateCache (r : HostResolver θ) (key : HostService) (entry : HostEntry) : HostResolver θ :=
  { r with dnsCache := Function.update r.dnsCache key (some entry) }

/-- The system gives an endpoint for this pair, if it has found one. -/
def gives (r : HostResolver θ) (key : HostService) (endpoint : NetEndpoint) :
    AddrInfo → HostResolver θ
  | .found _ _ => { r with given := (key, endpoint) :: r.given }
  | .failed _ => r

@[simp] theorem gives_enableCache (r : HostResolver θ) (key : HostService) (endpoint : NetEndpoint)
    (info : AddrInfo) : (r.gives key endpoint info).enableCache = r.enableCache := by
  cases info with
  | found => rfl
  | failed => rfl

@[simp] theorem gives_calls (r : HostResolver θ) (key : HostService) (endpoint : NetEndpoint)
    (info : AddrInfo) : (r.gives key endpoint info).calls = r.calls := by
  cases info with
  | found => rfl
  | failed => rfl

@[simp] theorem gives_dnsCache (r : HostResolver θ) (key : HostService) (endpoint : NetEndpoint)
    (info : AddrInfo) : (r.gives key endpoint info).dnsCache = r.dnsCache := by
  cases info with
  | found => rfl
  | failed => rfl

@[simp] theorem gives_returned (r : HostResolver θ) (key : HostService) (endpoint : NetEndpoint)
    (info : AddrInfo) : (r.gives key endpoint info).returned = r.returned := by
  cases info with
  | found => rfl
  | failed => rfl

/-- What the system gave it has given. -/
theorem gives_kept (r : HostResolver θ) (key : HostService) (endpoint : NetEndpoint)
    (info : AddrInfo) {gift : HostService × NetEndpoint} (member : gift ∈ r.given) :
    gift ∈ (r.gives key endpoint info).given := by
  cases info with
  | found => exact List.mem_cons_of_mem _ member
  | failed => exact member

/-- An answer with the code zero was given. -/
theorem gives_answer (r : HostResolver θ) (key : HostService) {endpoint : NetEndpoint}
    {info : AddrInfo} (succeeds : (resolveHost endpoint info).ec = 0) :
    (key, (resolveHost endpoint info).endpoint) ∈
      (r.gives key (resolveHost endpoint info).endpoint info).given := by
  obtain ⟨family, address, rfl⟩ := (resolveHost_ec endpoint info).mp succeeds
  exact List.mem_cons_self

variable [DecidableEq θ]

/-- A call goes on. -/
def goesOn (r : HostResolver θ) (t : θ) (call : ResolveCall) : HostResolver θ :=
  { r with calls := Function.update r.calls t call }

/-- A call returns. -/
def returns (r : HostResolver θ) (t : θ) (key : HostService) (entry : HostEntry) :
    HostResolver θ :=
  { r with calls := Function.update r.calls t .idle, returned := (key, entry) :: r.returned }

/-- `resolve`, up to the next place where another thread can go on. -/
def advance (r : HostResolver θ) (t : θ) : ResolveAction → Option (HostResolver θ)
  | .resolve key endpoint =>
    match r.calls t with
    | .idle =>
      if r.enableCache then
        match r.lookupCache key with
        | some entry => some (r.returns t key entry)
        | none => some (r.goesOn t (.resolving key endpoint))
      else some (r.goesOn t (.resolving key endpoint))
    | _ => none
  | .answer info =>
    match r.calls t with
    | .resolving key endpoint =>
      let entry := resolveHost endpoint info
      let r := r.gives key entry.endpoint info
      if r.enableCache then some (r.goesOn t (.updating key entry))
      else some (r.returns t key entry)
    | _ => none
  | .update =>
    match r.calls t with
    | .updating key entry => some ((r.updateCache key entry).returns t key entry)
    | _ => none

/-- An interleaving. -/
def run (r : HostResolver θ) (labels : List (θ × ResolveAction)) : Option (HostResolver θ) :=
  labels.foldlM (fun r label => r.advance label.1 label.2) r

/-- The steps of a call. -/
inductive Steps (r : HostResolver θ) (t : θ) : ResolveAction → HostResolver θ → Prop
  /-- The pair is in the cache. -/
  | hit {key : HostService} (endpoint : NetEndpoint) {entry : HostEntry} (idle : r.calls t = .idle)
    (enabled : r.enableCache = true) (cached : r.dnsCache key = some entry) :
    Steps r t (.resolve key endpoint) (r.returns t key entry)
  /-- It is not. -/
  | miss {key : HostService} {endpoint : NetEndpoint} (idle : r.calls t = .idle)
    (missing : r.enableCache = true → r.dnsCache key = none) :
    Steps r t (.resolve key endpoint) (r.goesOn t (.resolving key endpoint))
  /-- The answer is to be stored. -/
  | answered {key : HostService} {endpoint : NetEndpoint} (info : AddrInfo)
    (resolving : r.calls t = .resolving key endpoint) (enabled : r.enableCache = true) :
    Steps r t (.answer info) ((r.gives key (resolveHost endpoint info).endpoint info).goesOn t
      (.updating key (resolveHost endpoint info)))
  /-- The answer is returned without a cache. -/
  | passed {key : HostService} {endpoint : NetEndpoint} (info : AddrInfo)
    (resolving : r.calls t = .resolving key endpoint) (disabled : r.enableCache = false) :
    Steps r t (.answer info) ((r.gives key (resolveHost endpoint info).endpoint info).returns t
      key (resolveHost endpoint info))
  /-- The answer is stored and returned. -/
  | stored {key : HostService} {entry : HostEntry} (updating : r.calls t = .updating key entry) :
    Steps r t .update ((r.updateCache key entry).returns t key entry)

/-- `resolve` makes such steps. -/
theorem advance_steps {r r' : HostResolver θ} {t : θ} {action : ResolveAction}
    (advances : r.advance t action = some r') : r.Steps t action r' := by
  cases action with
  | resolve key endpoint =>
    simp only [advance] at advances
    split at advances
    · rename_i idle
      split at advances
      · rename_i enabled
        split at advances
        · rename_i entry cached
          cases advances
          exact .hit endpoint idle enabled cached
        · rename_i missing
          cases advances
          exact .miss idle fun _ => missing
      · rename_i disabled
        cases advances
        exact .miss idle fun enabled => absurd enabled disabled
    · cases advances
  | answer info =>
    simp only [advance] at advances
    split at advances
    · rename_i key endpoint resolving
      rw [gives_enableCache] at advances
      split at advances
      · rename_i enabled
        cases advances
        exact .answered info resolving enabled
      · rename_i disabled
        cases advances
        exact .passed info resolving ((Bool.not_eq_true _).mp disabled)
    · cases advances
  | update =>
    simp only [advance] at advances
    split at advances
    · rename_i key entry updating
      cases advances
      exact .stored updating
    · cases advances

/-- The endpoints in the calls and in the cache are genuine. -/
structure Genuine (r : HostResolver θ) : Prop where
  /-- What a call returned with success the system gave for the same pair. -/
  returned : ∀ {key entry}, (key, entry) ∈ r.returned → entry.ec = 0 →
    (key, entry.endpoint) ∈ r.given
  /-- So did it with what a call is about to store. -/
  updating : ∀ {t key entry}, r.calls t = .updating key entry → entry.ec = 0 →
    (key, entry.endpoint) ∈ r.given
  /-- What is in the cache a call has returned. -/
  cached : ∀ {key entry}, r.dnsCache key = some entry → (key, entry) ∈ r.returned

/-- A call that is about to store an answer is the one that has gone on, or another one. -/
theorem updating_cases {calls : θ → ResolveCall} {t u : θ} {call : ResolveCall} {key : HostService}
    {entry : HostEntry} (updating : Function.update calls t call u = .updating key entry) :
    call = .updating key entry ∨ calls u = .updating key entry := by
  by_cases same : u = t
  · rw [same, Function.update_self] at updating
    exact Or.inl updating
  · rw [Function.update_of_ne same] at updating
    exact Or.inr updating

omit [DecidableEq θ] in
/-- At the start nothing is in the calls or in the cache. -/
theorem new_genuine (enableCache : Bool) : (new enableCache : HostResolver θ).Genuine where
  returned := fun member => absurd member List.not_mem_nil
  updating := fun calls => by cases calls
  cached := fun found => by cases found

/-- A call that returns this genuine answer keeps the endpoints genuine. -/
theorem Genuine.returns {r : HostResolver θ} (genuine : r.Genuine) (t : θ) {key : HostService}
    {entry : HostEntry} (given : entry.ec = 0 → (key, entry.endpoint) ∈ r.given) :
    (r.returns t key entry).Genuine where
  returned := by
    intro key' entry' member succeeds
    rcases List.mem_cons.mp member with same | before
    · obtain ⟨rfl, rfl⟩ := Prod.mk.inj same
      exact given succeeds
    · exact genuine.returned before succeeds
  updating := by
    intro u key' entry' updating succeeds
    have before := (updating_cases updating).resolve_left fun wrong => by cases wrong
    exact genuine.updating before succeeds
  cached := fun found => List.mem_cons_of_mem _ (genuine.cached found)

/-- So does a call that goes on with it. -/
theorem Genuine.goesOn {r : HostResolver θ} (genuine : r.Genuine) (t : θ) {call : ResolveCall}
    (given : ∀ key entry, call = .updating key entry → entry.ec = 0 →
      (key, entry.endpoint) ∈ r.given) : (r.goesOn t call).Genuine where
  returned := genuine.returned
  updating := by
    intro u key' entry' updating succeeds
    rcases updating_cases updating with now | before
    · exact given key' entry' now succeeds
    · exact genuine.updating before succeeds
  cached := genuine.cached

omit [DecidableEq θ] in
/-- So does an answer. -/
theorem Genuine.gives {r : HostResolver θ} (genuine : r.Genuine) (key : HostService)
    (endpoint : NetEndpoint) (info : AddrInfo) : (r.gives key endpoint info).Genuine where
  returned := by
    intro key' entry' member succeeds
    rw [gives_returned] at member
    exact r.gives_kept key endpoint info (genuine.returned member succeeds)
  updating := by
    intro t key' entry' updating succeeds
    rw [gives_calls] at updating
    exact r.gives_kept key endpoint info (genuine.updating updating succeeds)
  cached := by
    intro key' entry' found
    rw [gives_dnsCache] at found
    rw [gives_returned]
    exact genuine.cached found

/-- Every step keeps the endpoints genuine. -/
theorem Genuine.step {r r' : HostResolver θ} (genuine : r.Genuine) {t : θ}
    {action : ResolveAction} (steps : r.Steps t action r') : r'.Genuine := by
  cases steps with
  | hit endpoint idle enabled cached =>
    exact genuine.returns t (genuine.returned (genuine.cached cached))
  | miss idle missing =>
    exact genuine.goesOn t fun key entry wrong => by cases wrong
  | answered info resolving enabled =>
    refine (genuine.gives _ _ _).goesOn t ?_
    intro key entry same succeeds
    cases same
    exact r.gives_answer _ succeeds
  | passed info resolving disabled =>
    exact (genuine.gives _ _ _).returns t (r.gives_answer _)
  | @stored key entry updating =>
    have kept := genuine.returns t (genuine.updating updating)
    refine ⟨kept.returned, kept.updating, ?_⟩
    intro key' entry' found
    by_cases same : key' = key
    · subst same
      have stored : Function.update r.dnsCache key' (some entry) key' = some entry' := found
      rw [Function.update_self] at stored
      obtain rfl := Option.some.inj stored
      exact List.mem_cons_self
    · have stored : Function.update r.dnsCache key (some entry) key' = some entry' := found
      rw [Function.update_of_ne same] at stored
      exact kept.cached stored

/-- No step turns the cache on or off. -/
theorem Steps.enableCache {r r' : HostResolver θ} {t : θ} {action : ResolveAction}
    (steps : r.Steps t action r') : r'.enableCache = r.enableCache := by
  cases steps with
  | hit => rfl
  | miss => rfl
  | answered info => exact r.gives_enableCache _ _ info
  | passed info => exact r.gives_enableCache _ _ info
  | stored => rfl

/-- A run in two parts. -/
theorem run_append {first last : HostResolver θ} {before after : List (θ × ResolveAction)} :
    first.run (before ++ after) = some last ↔
      ∃ mid, first.run before = some mid ∧ mid.run after = some last := by
  rw [run, List.foldlM_append]
  exact Option.bind_eq_some_iff

/-- What every step of a run preserves holds at its end. -/
theorem run_invariant {holds : HostResolver θ → Prop} {first last : HostResolver θ}
    {labels : List (θ × ResolveAction)} (runs : first.run labels = some last)
    (preserved : ∀ before label after mid next, labels = before ++ label :: after →
      first.run before = some mid → holds mid → mid.Steps label.1 label.2 next → holds next)
    (start : holds first) : holds last := by
  induction labels using List.reverseRecOn generalizing last with
  | nil =>
    obtain rfl := Option.some.inj runs
    exact start
  | append_singleton labels label ih =>
    obtain ⟨mid, before, advances⟩ := run_append.mp runs
    have steps : mid.Steps label.1 label.2 last := by
      apply advance_steps
      rw [← advances]
      exact (bind_pure _).symm
    apply preserved labels label [] mid last rfl before _ steps
    apply ih before
    intro before' label' after mid next same
    exact preserved before' label' (after ++ [label]) mid next (by rw [same]; simp)

/-- In every interleaving the endpoints are genuine, and the cache is on or off. -/
theorem run_genuine {enableCache : Bool} {labels : List (θ × ResolveAction)} {r : HostResolver θ}
    (runs : (new enableCache).run labels = some r) :
    r.Genuine ∧ r.enableCache = enableCache := by
  apply run_invariant runs _ ⟨new_genuine enableCache, rfl⟩
  intro before label after mid next same reaches holds steps
  exact ⟨holds.1.step steps, steps.enableCache.trans holds.2⟩

/-- A pair that was resolved stays resolved: a call of `resolve` from now on returns with the code
zero. -/
def StaysResolved (r : HostResolver θ) : Prop :=
  ∀ key endpoint, (key, (⟨endpoint, 0⟩ : HostEntry)) ∈ r.returned → ∀ t hints, r.calls t = .idle →
    ∃ cached, r.advance t (.resolve key hints) = some (r.returns t key ⟨cached, 0⟩)

/-- The step stores a failure over a success. -/
def Overwrites (r : HostResolver θ) (t : θ) (action : ResolveAction) : Prop :=
  action = .update ∧ ∃ key entry cached, r.calls t = .updating key entry ∧ entry.ec ≠ 0 ∧
    r.dnsCache key = some ⟨cached, 0⟩

/-- Every pair that was resolved has a success in the cache. -/
def Settled (r : HostResolver θ) : Prop :=
  ∀ key endpoint, (key, (⟨endpoint, 0⟩ : HostEntry)) ∈ r.returned →
    ∃ cached, r.dnsCache key = some ⟨cached, 0⟩

/-- Then it stays resolved. -/
theorem Settled.staysResolved {r : HostResolver θ} (settled : r.Settled)
    (enabled : r.enableCache = true) : r.StaysResolved := by
  intro key endpoint returned t hints idle
  obtain ⟨cached, found⟩ := settled key endpoint returned
  refine ⟨cached, ?_⟩
  simp only [advance, idle, enabled, if_true, lookupCache, found]

/-- A step that stores no failure over a success keeps the successes in the cache. -/
theorem Settled.step {r r' : HostResolver θ} (settled : r.Settled)
    (enabled : r.enableCache = true) {t : θ} {action : ResolveAction}
    (steps : r.Steps t action r') (keeps : ¬ r.Overwrites t action) : r'.Settled := by
  cases steps with
  | @hit key hints entry idle enabled cached =>
    intro key' endpoint returned
    rcases List.mem_cons.mp returned with same | before
    · cases same
      exact ⟨endpoint, cached⟩
    · exact settled key' endpoint before
  | miss => exact settled
  | answered info =>
    intro key' endpoint returned
    have before : (key', (⟨endpoint, 0⟩ : HostEntry)) ∈ r.returned := by
      rw [← r.gives_returned _ _ info]
      exact returned
    obtain ⟨cached, found⟩ := settled key' endpoint before
    exact ⟨cached, (congrFun (r.gives_dnsCache _ _ info) key').trans found⟩
  | passed info resolving disabled => cases enabled.symm.trans disabled
  | @stored key entry updating =>
    intro key' endpoint returned
    by_cases same : key' = key
    · subst same
      have ok : entry.ec = 0 := by
        by_contra failed
        rcases List.mem_cons.mp returned with now | before
        · cases now
          exact failed rfl
        · obtain ⟨cached, found⟩ := settled key' endpoint before
          exact keeps ⟨rfl, key', entry, cached, updating, failed, found⟩
      refine ⟨entry.endpoint, ?_⟩
      rw [← ok]
      exact Function.update_self _ _ _
    · have other : (key', (⟨endpoint, 0⟩ : HostEntry)) ∈ r.returned := by
        rcases List.mem_cons.mp returned with now | before
        · cases now
          exact absurd rfl same
        · exact before
      obtain ⟨cached, found⟩ := settled key' endpoint other
      exact ⟨cached, (Function.update_of_ne same _ _).trans found⟩

/-- After a step that stores a failure over a success the pair does not stay resolved. -/
theorem Overwrites.breaks {r r' : HostResolver θ} (genuine : r.Genuine)
    (enabled : r.enableCache = true) {t : θ} {action : ResolveAction}
    (overwrites : r.Overwrites t action) (advances : r.advance t action = some r') :
    ¬ r'.StaysResolved := by
  obtain ⟨rfl, key, entry, cached, updating, failed, found⟩ := overwrites
  simp only [advance, updating] at advances
  obtain rfl := Option.some.inj advances
  intro stays
  let stored := (r.updateCache key entry).returns t key entry
  have idle : stored.calls t = .idle := Function.update_self _ _ _
  have failure : stored.dnsCache key = some entry := Function.update_self _ _ _
  have enabled : stored.enableCache = true := enabled
  have hit : stored.advance t (.resolve key connectHints) = some (stored.returns t key entry) := by
    simp only [advance, idle, enabled, if_true, lookupCache, failure]
  have before : (key, (⟨cached, 0⟩ : HostEntry)) ∈ stored.returned :=
    List.mem_cons_of_mem _ (genuine.cached found)
  obtain ⟨cached', again⟩ := stays key cached before t connectHints idle
  have same := congrArg HostResolver.returned (Option.some.inj (hit.symm.trans again))
  have answers : entry = ⟨cached', 0⟩ := (Prod.mk.inj (List.cons.inj same).1).2
  exact failed (congrArg HostEntry.ec answers)

/-- In every interleaving an endpoint returned with success is one that the system gave for the same
pair; and every pair stays resolved, in every state reached, exactly if no call stores a failure
over a success. -/
theorem resolved_stays_iff {labels : List (θ × ResolveAction)} {r : HostResolver θ}
    {enableCache : Bool} (runs : (new enableCache).run labels = some r) :
    (∀ key endpoint, (key, (⟨endpoint, 0⟩ : HostEntry)) ∈ r.returned →
      (key, endpoint) ∈ r.given) ∧
    (enableCache = true →
      ((∀ before after mid, labels = before ++ after →
        (new enableCache).run before = some mid → mid.StaysResolved) ↔
      ∀ before label after mid, labels = before ++ label :: after →
        (new enableCache).run before = some mid → ¬ mid.Overwrites label.1 label.2)) := by
  refine ⟨fun key endpoint returned => (run_genuine runs).1.returned returned rfl, ?_⟩
  rintro rfl
  constructor
  · intro stays before label after mid same reaches overwrites
    have genuine := run_genuine reaches
    have whole : labels = (before ++ [label]) ++ after := by rw [same]; simp
    obtain ⟨next, first, -⟩ := run_append.mp (whole ▸ runs)
    obtain ⟨mid', reaches', advances⟩ := run_append.mp first
    obtain rfl := Option.some.inj (reaches.symm.trans reaches')
    have advances : mid.advance label.1 label.2 = some next := by
      rw [← advances]
      exact (bind_pure _).symm
    exact overwrites.breaks genuine.1 genuine.2 advances (stays _ after next whole first)
  · intro keeps before after mid same reaches
    have settled : mid.Settled ∧ mid.enableCache = true := by
      apply run_invariant reaches _ ⟨fun key endpoint member => absurd member List.not_mem_nil, rfl⟩
      intro before' label after' mid' next same' reaches' holds steps
      have step := keeps before' label (after' ++ after) mid' (by rw [same, same']; simp) reaches'
      exact ⟨holds.1.step holds.2 steps step, steps.enableCache.trans holds.2⟩
    exact settled.1.staysResolved settled.2

/-- The pair of the local server. -/
def localServer : HostService := (ascii "localhost", ascii "6379")

/-- One call that is answered and stores a success, and another one: the pair stays resolved. -/
theorem resolved_stays_iff_twice : ∃ r : HostResolver Bool,
    (new true).run [(true, .resolve localServer connectHints),
      (true, .answer (.found afInet [127, 0, 0, 1])), (true, .update),
      (true, .resolve localServer connectHints)] = some r ∧ r.returned.length = 2 ∧
    (∀ key endpoint, (key, (⟨endpoint, 0⟩ : HostEntry)) ∈ r.returned →
      (key, endpoint) ∈ r.given) ∧ r.StaysResolved := by
  have runs : ∃ r : HostResolver Bool, (new true).run [(true, .resolve localServer connectHints),
      (true, .answer (.found afInet [127, 0, 0, 1])), (true, .update),
      (true, .resolve localServer connectHints)] = some r ∧ r.returned.length = 2 := ⟨_, rfl, rfl⟩
  obtain ⟨r, runs, twice⟩ := runs
  obtain ⟨given, stays⟩ := resolved_stays_iff runs
  refine ⟨r, runs, twice, given, (stays rfl).mpr ?_ _ [] r (List.append_nil _).symm runs⟩
  rintro before label after mid same reaches ⟨update, key, entry, cached, calls, failed, -⟩
  -- the only call of update is the third step, and stores the success
  rcases before with _ | ⟨first, _ | ⟨second, _ | ⟨third, _ | ⟨fourth, before⟩⟩⟩⟩
  · cases same
    cases update
  · cases same
    cases update
  · cases same
    obtain rfl := Option.some.inj reaches
    obtain ⟨-, rfl⟩ := ResolveCall.updating.inj calls
    exact failed rfl
  · cases same
    cases update
  · have lengths := congrArg List.length same
    simp only [List.length_cons, List.length_append, List.length_nil] at lengths
    omega

/-- Two calls miss; one is answered and stores its success, the other one fails and stores its
failure. The next call fails. -/
theorem resolved_forgotten : ((new true : HostResolver Bool).run
    [(false, .resolve localServer connectHints), (true, .resolve localServer connectHints),
      (true, .answer (.found afInet [127, 0, 0, 1])), (true, .update),
      (false, .answer (.failed .other)), (false, .update),
      (true, .resolve localServer connectHints)]).map
        (fun r => r.returned.map fun answer => (answer.1, answer.2.ec)) =
    some [(localServer, ehostunreach), (localServer, ehostunreach), (localServer, 0)] := by
  rfl

end HostResolver

/-- How `connect` goes on with what the resolver returns: a failure ends it before there is a
socket. -/
def HostEntry.outcome (entry : HostEntry) (socket : ConnectOutcome) : ConnectOutcome :=
  if entry.ec ≠ 0 then .failed entry.ec else socket

/-- A pair with a stored failure cannot be connected to, whatever the system would do. -/
theorem TcpClient.connect_resolved {π : Type} [Peer π] {c : TcpClient π} {entry : HostEntry}
    (failed : entry.ec ≠ 0) {socket : ConnectOutcome} {later : List ConnectOutcome}
    (next : c.os.connects = entry.outcome socket :: later) :
    c.connect.1 = entry.ec ∧ c.connect.2.fd = -1 := by
  have script : c.close.os.connects = .failed entry.ec :: later := by
    rw [HostEntry.outcome, if_pos failed] at next
    rw [close]
    split
    · exact next
    · exact next
  have gone : c.close.fd = -1 := by
    rw [close]
    split
    · rfl
    · rename_i open_
      exact not_not.mp open_
  have fails : c.close.os.connect = (none, { c.close.os with
      connects := later, errno := entry.ec }) := by
    rw [Os.connect, script]
    rfl
  rw [connect, fails]
  exact ⟨rfl, gone⟩

end LibRedis
