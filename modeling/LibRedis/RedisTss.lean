import LibRedis.Lib.Places
import LibRedis.Lib.Simulation
import Mathlib.Data.List.Basic
import Mathlib.Logic.Function.Basic

/-!
# The client pool of `RedisTss`

Threads take clients from a pool and put them back, in any order of their steps. What runs under
`free_redis_lock_` is one step, and so is what touches only the thread's own slot; the deletion of
a client that finds the free list full is a step of its own, for the lock is released before it.
Every client is then in one place: the free list, a thread's slot, a caller that has taken it, a
call under way, or deleted.
-/

namespace LibRedis

open Places (Separate Somewhere Moves Appears)

/-- `kTssFlag`. -/
inductive TssFlag
  | threadSpecific | notThreadSpecific
  deriving DecidableEq, Repr

/-- Clients, numbered in the order in which they are made. -/
abbrev Client := Nat

/-- Where a thread is in a call of the pool. -/
inductive TssCall
  /-- In no call. -/
  | idle
  /-- `get`, before `get_free_redis`. -/
  | getFree (flag : TssFlag)
  /-- `get`, where the free list was empty. -/
  | create (flag : TssFlag)
  /-- `get`, before `client_.reset`. -/
  | reset (redis : Client)
  /-- `get`, with the client it returns. -/
  | returns (flag : TssFlag) (redis : Client)
  /-- Before the locked part of `put_free_redis`; the cleanup handler calls it when a thread
  exits. -/
  | putFree (redis : Client) (exits : Bool)
  /-- `put_free_redis`, where the free list was full. -/
  | delete (redis : Client) (exits : Bool)
  /-- The thread has exited. -/
  | exited
  deriving DecidableEq

/-- What a thread does: it calls the pool, it exits, or it goes on in its call. -/
inductive TssAction
  | get (flag : TssFlag)
  | put (redis : Client) (flag : TssFlag)
  | exit
  | run
  deriving DecidableEq

/-- `RedisTss::Impl`, with the threads of the process. -/
structure RedisTss (θ : Type) where
  /-- `pool_size_`. -/
  poolSize : Nat
  /-- `free_redis_`. -/
  freeRedis : List Client
  /-- `client_`, one for each thread. -/
  client : θ → Option Client
  /-- Where each thread is. -/
  calls : θ → TssCall
  /-- The clients that callers have from `get(kNotThreadSpecific)` and have not put back. -/
  taken : θ → List Client
  /-- How many clients have been made. -/
  created : Nat
  /-- The clients that have been deleted. -/
  deleted : List Client

namespace RedisTss

variable {θ : Type} [DecidableEq θ]

/-- A pool before any call. -/
def new (poolSize : Nat) : RedisTss θ where
  poolSize := poolSize
  freeRedis := []
  client _ := none
  calls _ := .idle
  taken _ := []
  created := 0
  deleted := []

/-- A thread goes on with a call. -/
def goTo (s : RedisTss θ) (t : θ) (call : TssCall) : RedisTss θ :=
  { s with calls := Function.update s.calls t call }

/-- `get_free_redis`. -/
def getFreeRedis (s : RedisTss θ) : Option Client × RedisTss θ :=
  match s.freeRedis.getLast? with
  | none => (none, s)
  | some redis => (some redis, { s with freeRedis := s.freeRedis.dropLast })

/-- `new Redis2` or `new Redis2P`. -/
def newRedis (s : RedisTss θ) : Client × RedisTss θ :=
  (s.created, { s with created := s.created + 1 })

/-- The locked part of `put_free_redis`, and whether the free list was full. -/
def putFreeRedis (s : RedisTss θ) (redis : Client) : Bool × RedisTss θ :=
  if s.poolSize ≤ s.freeRedis.length then (true, s)
  else (false, { s with freeRedis := s.freeRedis ++ [redis] })

/-- `delete redis`. -/
def deleteRedis (s : RedisTss θ) (redis : Client) : RedisTss θ :=
  { s with deleted := s.deleted ++ [redis] }

/-- The cleanup handler of `client_`, at once: `put_free_redis`. -/
def cleanup (s : RedisTss θ) : Option Client → RedisTss θ
  | none => s
  | some redis =>
    let (full, s) := s.putFreeRedis redis
    if full then s.deleteRedis redis else s

/-- `boost::detail::set_tss_data` on `client_`. -/
def setTssData (s : RedisTss θ) (t : θ) (value : Option Client) (cleanupExisting : Bool) :
    RedisTss θ :=
  let s := if cleanupExisting then s.cleanup (s.client t) else s
  { s with client := Function.update s.client t value }

/-- `thread_specific_ptr::release`. -/
def release (s : RedisTss θ) (t : θ) : RedisTss θ := s.setTssData t none false

/-- `thread_specific_ptr::reset`. -/
def reset (s : RedisTss θ) (t : θ) (redis : Client) : RedisTss θ :=
  if s.client t ≠ some redis then s.setTssData t (some redis) true else s

/-- Where a `get` goes on when it has found or made a client. -/
def obtained (flag : TssFlag) (redis : Client) : TssCall :=
  match flag with
  | .threadSpecific => .reset redis
  | .notThreadSpecific => .returns .notThreadSpecific redis

/-- Where a thread is behind `put_free_redis`. -/
def ended (exits : Bool) : TssCall := if exits then .exited else .idle

/-- A client is no longer with the caller that has taken it, whoever puts it back. -/
def give (s : RedisTss θ) (redis : Client) : RedisTss θ :=
  { s with taken := fun t => (s.taken t).erase redis }

/-- One step of a thread. -/
def advance (s : RedisTss θ) (t : θ) (action : TssAction) : Option (RedisTss θ) :=
  match s.calls t, action with
  | .idle, .get .threadSpecific =>
    match s.client t with
    | some redis => some (s.goTo t (.returns .threadSpecific redis))
    | none => some (s.goTo t (.getFree .threadSpecific))
  | .idle, .get .notThreadSpecific => some (s.goTo t (.getFree .notThreadSpecific))
  | .idle, .put redis .threadSpecific =>
    let s := if s.client t = some redis then s.release t else s
    some (s.goTo t (.putFree redis false))
  | .idle, .put redis .notThreadSpecific => some ((s.give redis).goTo t (.putFree redis false))
  | .idle, .exit =>
    -- the thread's value is cleaned up when it ends
    match s.client t with
    | some redis => some ((s.release t).goTo t (.putFree redis true))
    | none => some (s.goTo t .exited)
  | .getFree flag, .run =>
    match s.getFreeRedis with
    | (some redis, s) => some (s.goTo t (obtained flag redis))
    | (none, s) => some (s.goTo t (.create flag))
  | .create flag, .run =>
    let (redis, s) := s.newRedis
    some (s.goTo t (obtained flag redis))
  | .reset redis, .run => some ((s.reset t redis).goTo t (.returns .threadSpecific redis))
  | .returns .threadSpecific _, .run => some (s.goTo t .idle)
  | .returns .notThreadSpecific redis, .run =>
    let s := { s with taken := Function.update s.taken t (redis :: s.taken t) }
    some (s.goTo t .idle)
  | .putFree redis exits, .run =>
    let (full, s) := s.putFreeRedis redis
    some (s.goTo t (if full then .delete redis exits else ended exits))
  | .delete redis exits, .run => some ((s.deleteRedis redis).goTo t (ended exits))
  | _, _ => none

/-- The usages that the header names: a client is put back by whom it is with, under the flag it was
taken with. -/
def Documented (s : RedisTss θ) (t : θ) : TssAction → Prop
  | .put redis .threadSpecific => s.client t = some redis
  | .put redis .notThreadSpecific => ∃ u, redis ∈ s.taken u
  | _ => True

/-- The steps of a thread that uses the pool as documented. -/
def Step (s : RedisTss θ) (label : θ × TssAction) (s' : RedisTss θ) : Prop :=
  s.Documented label.1 label.2 ∧ s.advance label.1 label.2 = some s'

/-- Where a client can be. -/
inductive Place (θ : Type)
  | free
  | slot (t : θ)
  | taken (t : θ)
  | carried (t : θ)
  | deleted
  deriving DecidableEq

end RedisTss

/-- The client that a call has and nobody else. -/
def TssCall.carries : TssCall → Option Client
  | .reset redis => some redis
  | .returns .notThreadSpecific redis => some redis
  | .putFree redis _ => some redis
  | .delete redis _ => some redis
  | _ => none

namespace RedisTss

variable {θ : Type} [DecidableEq θ]

/-- The clients in a place. -/
def stored (s : RedisTss θ) : Place θ → List Client
  | .free => s.freeRedis
  | .slot t => (s.client t).toList
  | .taken t => s.taken t
  | .carried t => (s.calls t).carries.toList
  | .deleted => s.deleted

/-- A thread that goes on has in hand what its call carries. -/
@[simp] theorem stored_goTo (s : RedisTss θ) (t : θ) (call : TssCall) :
    (s.goTo t call).stored = Function.update s.stored (.carried t) call.carries.toList := by
  funext place
  cases place with
  | carried u =>
    by_cases same : u = t
    · subst same
      simp [goTo, stored]
    · simp [goTo, stored, same]
  | free | slot | taken | deleted => rfl

/-- The free list is one of the places. -/
@[simp] theorem stored_freeRedis (s : RedisTss θ) (freeRedis : List Client) :
    stored { s with freeRedis := freeRedis } = Function.update s.stored .free freeRedis := by
  funext place
  cases place <;> rfl

/-- The deleted clients are one of the places. -/
@[simp] theorem stored_deleteRedis (s : RedisTss θ) (redis : Client) :
    (s.deleteRedis redis).stored = Function.update s.stored .deleted (s.deleted ++ [redis]) := by
  funext place
  cases place <;> rfl

/-- A slot is one of the places. -/
@[simp] theorem stored_client (s : RedisTss θ) (t : θ) (value : Option Client) :
    stored { s with client := Function.update s.client t value } =
      Function.update s.stored (.slot t) value.toList := by
  funext place
  cases place with
  | slot u =>
    by_cases same : u = t
    · subst same
      simp [stored]
    · simp [stored, same]
  | free | carried | taken | deleted => rfl

/-- What a caller has taken is one of the places. -/
@[simp] theorem stored_taken (s : RedisTss θ) (t : θ) (clients : List Client) :
    stored { s with taken := Function.update s.taken t clients } =
      Function.update s.stored (.taken t) clients := by
  funext place
  cases place with
  | taken u =>
    by_cases same : u = t
    · subst same
      simp [stored]
    · simp [stored, same]
  | free | carried | slot | deleted => rfl

/-- Where no client is in a slot, `reset` only fills it. -/
theorem reset_empty {s : RedisTss θ} {t : θ} (empty : s.client t = none) (redis : Client) :
    s.reset t redis = { s with client := Function.update s.client t (some redis) } := by
  have differs : s.client t ≠ some redis := by
    rw [empty]
    nofun
  rw [reset, if_pos differs, setTssData, empty]
  rfl

/-- A client that is taken once is put back by the one who has it. -/
theorem give_eq {s : RedisTss θ} (separate : Separate s.stored) {redis : Client} {u : θ}
    (owner : redis ∈ s.taken u) :
    s.give redis = { s with taken := Function.update s.taken u ((s.taken u).erase redis) } := by
  have others : (fun t => (s.taken t).erase redis) =
      Function.update s.taken u ((s.taken u).erase redis) := by
    funext t
    by_cases same : t = u
    · subst same
      rw [Function.update_self]
    · rw [Function.update_of_ne same]
      refine List.erase_of_not_mem fun member => same ?_
      have both := separate.apart (.taken t) (.taken u) member owner
      exact Place.taken.inj both
  rw [give, others]

/-- The steps of a thread that uses the pool as documented, one by one. -/
inductive Uses (s : RedisTss θ) (t : θ) : TssAction → RedisTss θ → Prop
  /-- `get` finds a client in the slot. -/
  | found {redis : Client} (call : s.calls t = .idle) (slot : s.client t = some redis) :
      Uses s t (.get .threadSpecific) (s.goTo t (.returns .threadSpecific redis))
  /-- `get` turns to the free list. -/
  | asks {flag : TssFlag} (call : s.calls t = .idle)
      (slot : flag = .threadSpecific → s.client t = none) :
      Uses s t (.get flag) (s.goTo t (.getFree flag))
  /-- `put` empties the slot. -/
  | releases {redis : Client} (call : s.calls t = .idle) (slot : s.client t = some redis) :
      Uses s t (.put redis .threadSpecific) ((s.release t).goTo t (.putFree redis false))
  /-- `put` takes a client back from a caller. -/
  | gives {redis : Client} {u : θ} (call : s.calls t = .idle) (owner : redis ∈ s.taken u) :
      Uses s t (.put redis .notThreadSpecific) ((s.give redis).goTo t (.putFree redis false))
  /-- The thread exits with a client in its slot. -/
  | exits {redis : Client} (call : s.calls t = .idle) (slot : s.client t = some redis) :
      Uses s t .exit ((s.release t).goTo t (.putFree redis true))
  /-- The thread exits without one. -/
  | leaves (call : s.calls t = .idle) (slot : s.client t = none) : Uses s t .exit (s.goTo t .exited)
  /-- `get` takes the last client of the free list. -/
  | pops {flag : TssFlag} {redis : Client} {rest : List Client} (call : s.calls t = .getFree flag)
      (last : s.freeRedis = rest ++ [redis]) :
      Uses s t .run ({ s with freeRedis := rest }.goTo t (obtained flag redis))
  /-- `get` finds the free list empty. -/
  | starves {flag : TssFlag} (call : s.calls t = .getFree flag) :
      Uses s t .run (s.goTo t (.create flag))
  /-- `get` makes a client. -/
  | creates {flag : TssFlag} (call : s.calls t = .create flag) :
      Uses s t .run ({ s with created := s.created + 1 }.goTo t (obtained flag s.created))
  /-- `get` puts a client into the slot. -/
  | resets {redis : Client} (call : s.calls t = .reset redis) :
      Uses s t .run ((s.reset t redis).goTo t (.returns .threadSpecific redis))
  /-- `get` returns the client of the slot. -/
  | returned {redis : Client} (call : s.calls t = .returns .threadSpecific redis) :
      Uses s t .run (s.goTo t .idle)
  /-- `get` returns a client that the caller has from now on. -/
  | handed {redis : Client} (call : s.calls t = .returns .notThreadSpecific redis) :
      Uses s t .run
        ({ s with taken := Function.update s.taken t (redis :: s.taken t) }.goTo t .idle)
  /-- There is room in the free list. -/
  | pushes {redis : Client} {exits : Bool} (call : s.calls t = .putFree redis exits)
      (room : s.freeRedis.length < s.poolSize) :
      Uses s t .run ({ s with freeRedis := s.freeRedis ++ [redis] }.goTo t (ended exits))
  /-- The free list is full. -/
  | full {redis : Client} {exits : Bool} (call : s.calls t = .putFree redis exits) :
      Uses s t .run (s.goTo t (.delete redis exits))
  /-- The client is deleted. -/
  | deletes {redis : Client} {exits : Bool} (call : s.calls t = .delete redis exits) :
      Uses s t .run ((s.deleteRedis redis).goTo t (ended exits))

/-- There are no other steps. -/
theorem Step.uses {s s' : RedisTss θ} {t : θ} {action : TssAction} (step : s.Step (t, action) s') :
    s.Uses t action s' := by
  obtain ⟨documented, advances⟩ := step
  unfold advance at advances
  simp only at advances documented
  split at advances
  · rename_i call
    split at advances
    · rename_i redis slot
      cases advances
      exact .found call slot
    · rename_i slot
      cases advances
      exact .asks call fun _ => slot
  · rename_i call
    cases advances
    exact .asks call nofun
  · rename_i redis call
    have slot : s.client t = some redis := documented
    rw [if_pos slot] at advances
    cases advances
    exact .releases call slot
  · rename_i redis call
    obtain ⟨u, owner⟩ := documented
    cases advances
    exact .gives call owner
  · rename_i call
    split at advances
    · rename_i redis slot
      cases advances
      exact .exits call slot
    · rename_i slot
      cases advances
      exact .leaves call slot
  · rename_i flag call
    unfold getFreeRedis at advances
    cases last : s.freeRedis.getLast? with
    | none =>
      rw [last] at advances
      cases advances
      exact .starves call
    | some redis =>
      rw [last] at advances
      cases advances
      exact .pops call (List.dropLast_append_getLast? redis last).symm
  · rename_i flag call
    cases advances
    exact .creates call
  · rename_i redis call
    cases advances
    exact .resets call
  · rename_i redis call
    cases advances
    exact .returned call
  · rename_i redis call
    cases advances
    exact .handed call
  · rename_i redis exits call
    unfold putFreeRedis at advances
    by_cases full : s.poolSize ≤ s.freeRedis.length
    · rw [if_pos full] at advances
      cases advances
      exact .full call
    · rw [if_neg full] at advances
      cases advances
      exact .pushes call (Nat.lt_of_not_le full)
  · rename_i redis exits call
    cases advances
    exact .deletes call
  · cases advances

/-- What a thread may have in its slot where it is. -/
def SlotFits (call : TssCall) (slot : Option Client) : Prop :=
  match call with
  | .getFree .threadSpecific | .create .threadSpecific | .reset _ | .exited => slot = none
  | .putFree _ exits | .delete _ exits => exits = true → slot = none
  | .returns .threadSpecific redis => slot = some redis
  | _ => True

/-- The state of the pool is in order. -/
structure Ordered (s : RedisTss θ) : Prop where
  /-- No client is in two places. -/
  separate : Separate s.stored
  /-- The clients that are somewhere are those that have been made. -/
  made : ∀ redis, Somewhere s.stored redis ↔ redis < s.created
  /-- The free list is not too long. -/
  bounded : s.freeRedis.length ≤ s.poolSize
  /-- The slots are as the calls expect them. -/
  slots : ∀ t, SlotFits (s.calls t) (s.client t)

/-- A client that was got is carried until it is in the slot or with the caller. -/
@[simp] theorem obtained_carries (flag : TssFlag) (redis : Client) :
    (obtained flag redis).carries = some redis := by
  cases flag <;> rfl

/-- Behind `put_free_redis` nothing is carried. -/
@[simp] theorem ended_carries (exits : Bool) : (ended exits).carries = none := by
  cases exits <;> rfl

/-- A thread that carries what it carried leaves everything where it is. -/
theorem stored_same {s : RedisTss θ} {t : θ} {call : TssCall}
    (same : call.carries = (s.calls t).carries) : (s.goTo t call).stored = s.stored := by
  rw [stored_goTo, same]
  exact Function.update_eq_self _ _

omit [DecidableEq θ] in
/-- What a call carries is with the thread. -/
theorem stored_carried {s : RedisTss θ} {t : θ} {call : TssCall} (at_ : s.calls t = call) :
    s.stored (.carried t) = call.carries.toList := by
  rw [stored, at_]

/-- What one step does to the places: nothing, or it moves a client, or makes one. -/
inductive Transfers (s s' : RedisTss θ) : Prop
  /-- Every client stays. -/
  | nothing (same : s'.stored = s.stored) (made : s'.created = s.created)
  /-- One client moves. -/
  | moves (redis : Client) (source target : Place θ)
      (moves : Moves s.stored s'.stored redis source target) (made : s'.created = s.created)
  /-- A client is made. -/
  | appears (place : Place θ) (appears : Appears s.stored s'.stored s.created place)
      (made : s'.created = s.created + 1)

/-- A step moves at most one client. -/
theorem Uses.transfers {s s' : RedisTss θ} {t : θ} {action : TssAction} (ordered : s.Ordered)
    (uses : s.Uses t action s') : s.Transfers s' := by
  cases uses with
  | found call slot => exact .nothing (stored_same (by rw [call]; rfl)) rfl
  | asks call slot => exact .nothing (stored_same (by rw [call]; rfl)) rfl
  | leaves call slot => exact .nothing (stored_same (by rw [call]; rfl)) rfl
  | starves call => exact .nothing (stored_same (by rw [call]; rfl)) rfl
  | returned call => exact .nothing (stored_same (by rw [call]; rfl)) rfl
  | full call => exact .nothing (stored_same (by rw [call]; rfl)) rfl
  | @releases redis call slot =>
    refine .moves redis (.slot t) (.carried t) ?_ rfl
    rw [stored_goTo, release, setTssData, if_neg (by decide), stored_client]
    refine Moves.update (by nofun) ?_ ?_
    · rw [stored, slot]
      exact List.Perm.refl _
    · rw [stored_carried call]
      exact List.Perm.refl _
  | @exits redis call slot =>
    refine .moves redis (.slot t) (.carried t) ?_ rfl
    rw [stored_goTo, release, setTssData, if_neg (by decide), stored_client]
    refine Moves.update (by nofun) ?_ ?_
    · rw [stored, slot]
      exact List.Perm.refl _
    · rw [stored_carried call]
      exact List.Perm.refl _
  | @gives redis u call owner =>
    refine .moves redis (.taken u) (.carried t) ?_ rfl
    rw [stored_goTo, give_eq ordered.separate owner, stored_taken]
    refine Moves.update (by nofun) (List.perm_cons_erase owner) ?_
    rw [stored_carried call]
    exact List.Perm.refl _
  | @pops flag redis rest call last =>
    refine .moves redis .free (.carried t) ?_ rfl
    rw [stored_goTo, stored_freeRedis s rest]
    refine Moves.update (by nofun) ?_ ?_
    · rw [stored, last]
      exact List.perm_append_singleton redis rest
    · rw [obtained_carries, stored_carried call]
      exact List.Perm.refl _
  | @creates flag call =>
    refine .appears (.carried t) ?_ rfl
    rw [stored_goTo]
    refine Appears.update (fun member => ?_) ?_
    · exact absurd ((ordered.made _).mp member) (Nat.lt_irrefl _)
    · rw [obtained_carries, stored_carried call]
      exact List.Perm.refl _
  | @resets redis call =>
    have slot : s.client t = none := by
      have fits := ordered.slots t
      rw [call] at fits
      exact fits
    refine .moves redis (.carried t) (.slot t) ?_ ?_
    · rw [stored_goTo, reset_empty slot, stored_client]
      refine Moves.update_comm (by nofun) ?_ ?_
      · rw [stored_carried call]
        exact List.Perm.refl _
      · rw [stored, slot]
        exact List.Perm.refl _
    · rw [reset_empty slot]
      rfl
  | @handed redis call =>
    refine .moves redis (.carried t) (.taken t) ?_ rfl
    rw [stored_goTo, stored_taken]
    refine Moves.update_comm (by nofun) ?_ (List.Perm.refl _)
    rw [stored_carried call]
    exact List.Perm.refl _
  | @pushes redis exits call room =>
    refine .moves redis (.carried t) .free ?_ rfl
    rw [stored_goTo, stored_freeRedis s (s.freeRedis ++ [redis]), ended_carries]
    refine Moves.update_comm (by nofun) ?_ (List.perm_append_singleton redis s.freeRedis)
    rw [stored_carried call]
    exact List.Perm.refl _
  | @deletes redis exits call =>
    refine .moves redis (.carried t) .deleted ?_ rfl
    rw [stored_goTo, stored_deleteRedis, ended_carries]
    refine Moves.update_comm (by nofun) ?_ (List.perm_append_singleton redis s.deleted)
    rw [stored_carried call]
    exact List.Perm.refl _

/-- A step is about the thread's own call and slot. -/
theorem Uses.others {s s' : RedisTss θ} {t u : θ} {action : TssAction} (ordered : s.Ordered)
    (uses : s.Uses t action s') (other : u ≠ t) :
    s'.calls u = s.calls u ∧ s'.client u = s.client u := by
  cases uses with
  | releases | exits => simp [goTo, release, setTssData, other]
  | resets call =>
    have fits := ordered.slots t
    rw [call] at fits
    rw [reset_empty fits]
    simp [goTo, other]
  | gives => simp [goTo, give, other]
  | deletes => simp [goTo, deleteRedis, other]
  | found | asks | leaves | pops | starves | creates | returned | handed | pushes | full =>
    simp [goTo, other]

/-- The slot fits the call behind a step. -/
theorem Uses.fits {s s' : RedisTss θ} {t : θ} {action : TssAction} (ordered : s.Ordered)
    (uses : s.Uses t action s') : SlotFits (s'.calls t) (s'.client t) := by
  have fits := ordered.slots t
  cases uses with
  | found call slot => simpa [goTo, SlotFits] using slot
  | @asks flag call slot =>
    cases flag with
    | threadSpecific => simpa [goTo, SlotFits] using slot rfl
    | notThreadSpecific => simp [goTo, SlotFits]
  | releases | exits => simp [goTo, release, setTssData, SlotFits]
  | gives => simp [goTo, SlotFits]
  | leaves call slot => simpa [goTo, SlotFits] using slot
  | @pops flag redis rest call last =>
    rw [call] at fits
    cases flag with
    | threadSpecific => simpa [goTo, obtained, SlotFits] using fits
    | notThreadSpecific => simp [goTo, obtained, SlotFits]
  | @starves flag call =>
    rw [call] at fits
    cases flag with
    | threadSpecific => simpa [goTo, SlotFits] using fits
    | notThreadSpecific => simp [goTo, SlotFits]
  | @creates flag call =>
    rw [call] at fits
    cases flag with
    | threadSpecific => simpa [goTo, obtained, SlotFits] using fits
    | notThreadSpecific => simp [goTo, obtained, SlotFits]
  | resets call =>
    rw [call] at fits
    rw [reset_empty fits]
    simp [goTo, SlotFits]
  | returned | handed => simp [goTo, SlotFits]
  | @pushes redis exits call room =>
    rw [call] at fits
    cases exits with
    | false => simp [goTo, ended, SlotFits]
    | true => simpa [goTo, ended, SlotFits] using fits
  | @full redis exits call =>
    rw [call] at fits
    simpa [goTo, SlotFits] using fits
  | @deletes redis exits call =>
    rw [call] at fits
    cases exits with
    | false => simp [goTo, ended, SlotFits]
    | true => simpa [goTo, ended, deleteRedis, SlotFits] using fits

/-- The pool has one size, and the free list does not outgrow it. -/
theorem Uses.bounded {s s' : RedisTss θ} {t : θ} {action : TssAction} (ordered : s.Ordered)
    (uses : s.Uses t action s') :
    s'.poolSize = s.poolSize ∧ s'.freeRedis.length ≤ s'.poolSize := by
  have bounded := ordered.bounded
  cases uses with
  | @pops flag redis rest call last =>
    have length := congrArg List.length last
    rw [List.length_append] at length
    refine ⟨rfl, ?_⟩
    change rest.length ≤ s.poolSize
    omega
  | resets call =>
    have fits := ordered.slots t
    rw [call] at fits
    rw [reset_empty fits]
    exact ⟨rfl, bounded⟩
  | @pushes redis exits call room =>
    refine ⟨rfl, ?_⟩
    change (s.freeRedis ++ [redis]).length ≤ s.poolSize
    rw [List.length_append]
    exact room
  | found | asks | releases | gives | exits | leaves | starves | creates | returned | handed | full
  | deletes => exact ⟨rfl, bounded⟩

/-- A documented step keeps the pool in order. -/
theorem Ordered.step {s s' : RedisTss θ} {label : θ × TssAction} (ordered : s.Ordered)
    (step : s.Step label s') : s'.Ordered := by
  have uses := Step.uses step
  have slots (u : θ) : SlotFits (s'.calls u) (s'.client u) := by
    by_cases same : u = label.1
    · rw [same]
      exact uses.fits ordered
    · obtain ⟨calls, client⟩ := uses.others ordered same
      rw [calls, client]
      exact ordered.slots u
  have bounded := (uses.bounded ordered).2
  cases uses.transfers ordered with
  | nothing same made =>
    refine ⟨?_, fun redis => ?_, bounded, slots⟩
    · rw [same]
      exact ordered.separate
    · rw [same, made]
      exact ordered.made redis
  | moves _ _ _ moves made =>
    refine ⟨moves.separate ordered.separate, fun redis => ?_, bounded, slots⟩
    rw [moves.somewhere ordered.separate, made]
    exact ordered.made redis
  | appears _ appears made =>
    refine ⟨appears.separate ordered.separate, fun redis => ?_, bounded, slots⟩
    rw [appears.somewhere, ordered.made, made]
    exact Nat.lt_succ_iff_lt_or_eq.symm

omit [DecidableEq θ] in
/-- A pool before any call is in order. -/
theorem new_ordered (poolSize : Nat) : (new (θ := θ) poolSize).Ordered where
  separate := by
    refine ⟨fun place => ?_, fun left right token member => ?_⟩
    · cases place <;> exact List.nodup_nil
    · cases left <;> cases member
  made redis := by
    refine ⟨fun ⟨place, member⟩ => ?_, fun less => absurd less (Nat.not_lt_zero redis)⟩
    cases place <;> cases member
  bounded := Nat.zero_le _
  slots t := trivial

/-- A thread has a client: in its slot, from a `get` it has not put back, or in the call it is
in. -/
def Holds (s : RedisTss θ) (t : θ) (redis : Client) : Prop :=
  s.client t = some redis ∨ redis ∈ s.taken t ∨ (s.calls t).carries = some redis

/-- What the pool owes its users. -/
structure Sound (s : RedisTss θ) : Prop where
  /-- The free list has no duplicates. -/
  once : s.freeRedis.Nodup
  /-- It has at most `pool_size` entries. -/
  bounded : s.freeRedis.length ≤ s.poolSize
  /-- No thread has a client of the free list. -/
  free : ∀ t redis, s.Holds t redis → redis ∉ s.freeRedis
  /-- No client is with two threads. -/
  threads : ∀ t u redis, s.Holds t redis → s.Holds u redis → t = u
  /-- A deleted client is with nobody and not in the free list. -/
  deleted : ∀ redis ∈ s.deleted, redis ∉ s.freeRedis ∧ ∀ t, ¬ s.Holds t redis

/-- The places that are a thread's. -/
def Place.ofThread (t : θ) : Place θ → Prop
  | .slot u | .taken u | .carried u => u = t
  | .free | .deleted => False

omit [DecidableEq θ] in
/-- What a thread has is in a place of its own. -/
theorem Holds.place {s : RedisTss θ} {t : θ} {redis : Client} (holds : s.Holds t redis) :
    ∃ place, Place.ofThread t place ∧ redis ∈ s.stored place := by
  rcases holds with slot | taken | carried
  · exact ⟨.slot t, rfl, by simp [stored, slot]⟩
  · exact ⟨.taken t, rfl, taken⟩
  · exact ⟨.carried t, rfl, by simp [stored, carried]⟩

omit [DecidableEq θ] in
/-- A pool in order is sound. -/
theorem Ordered.sound {s : RedisTss θ} (ordered : s.Ordered) : s.Sound where
  once := ordered.separate.once .free
  bounded := ordered.bounded
  free t redis holds free := by
    obtain ⟨place, own, member⟩ := holds.place
    have same := ordered.separate.apart place .free member free
    subst same
    exact own
  threads t u redis left right := by
    obtain ⟨place, own, member⟩ := left.place
    obtain ⟨place', own', member'⟩ := right.place
    have same := ordered.separate.apart place place' member member'
    subst same
    cases place <;> first | exact own.elim | exact own.symm.trans own'
  deleted redis gone := by
    refine ⟨fun free => ?_, fun t holds => ?_⟩
    · exact nomatch ordered.separate.apart .deleted .free gone free
    · obtain ⟨place, own, member⟩ := holds.place
      have same := ordered.separate.apart place .deleted member gone
      subst same
      exact own

/-- A documented run keeps the pool in order. -/
theorem run_ordered {poolSize : Nat} {labels : List (θ × TssAction)} {s : RedisTss θ}
    (run : Simulation.Run Step (new poolSize) labels s) : s.Ordered :=
  run.invariant (fun _ _ _ ordered step => ordered.step step) (new_ordered poolSize)

/-- In whatever order the threads take their steps: as long as they use the pool as documented, it
is sound. -/
theorem pool_sound {poolSize : Nat} {labels : List (θ × TssAction)} {s : RedisTss θ}
    (run : Simulation.Run Step (new poolSize) labels s) : s.Sound := (run_ordered run).sound

/-- One thread keeps a client in its slot while another takes one and puts it back into a pool of
one. -/
theorem pool_sound_two : ∃ s : RedisTss Bool, s.freeRedis = [1] ∧ s.client true = some 0 ∧
    s.Sound := by
  have run : ∃ s : RedisTss Bool, Simulation.Run Step (new 1)
      [(true, .get .threadSpecific), (true, .run), (false, .get .notThreadSpecific), (true, .run),
        (true, .run), (false, .run), (false, .run), (true, .run), (false, .run),
        (false, .put 1 .notThreadSpecific), (false, .run)] s ∧
      s.freeRedis = [1] ∧ s.client true = some 0 := by
    refine ⟨_, .step ⟨trivial, rfl⟩ (.step ⟨trivial, rfl⟩ (.step ⟨trivial, rfl⟩ (.step
      ⟨trivial, rfl⟩ (.step ⟨trivial, rfl⟩ (.step ⟨trivial, rfl⟩ (.step ⟨trivial, rfl⟩ (.step
      ⟨trivial, rfl⟩ (.step ⟨trivial, rfl⟩ (.step ⟨⟨false, ?_⟩, rfl⟩ (.step ⟨trivial, rfl⟩
      (.done _))))))))))), rfl, rfl⟩
    exact List.mem_singleton.mpr rfl
  obtain ⟨s, run, free, slot⟩ := run
  exact ⟨s, free, slot, pool_sound run⟩

end RedisTss

end LibRedis
