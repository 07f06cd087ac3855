import LibRedis.RedisTss

/-!
# Scoped handles

A `RedisScopedPtr` gets a client when it is opened and puts it back when it is closed. The scopes of
a thread that are thread-specific share the client of its slot, so the first of them that is closed
gives the client away under the others. Where a thread closes such a scope only when it has no other
one, the threads use the pool as documented, and the handles are exclusive.
-/

namespace LibRedis

/-- Threads with `RedisScopedPtr` objects over one pool. -/
structure ScopedPtr (θ : Type) where
  /-- The pool. -/
  tss : RedisTss θ
  /-- The open scopes of each thread, the innermost first: `flag_` and `ptr_`. -/
  scopes : θ → List (TssFlag × Client)

/-- What a thread does: it opens a scope, closes its innermost one, exits, or goes on in a call. -/
inductive ScopeAction
  | opens (flag : TssFlag)
  | closes
  | exit
  | run

namespace ScopedPtr

variable {θ : Type} [DecidableEq θ]

/-- No scope is open, and no client made. -/
def new (poolSize : Nat) : ScopedPtr θ := ⟨.new poolSize, fun _ => []⟩

/-- One step of a thread. -/
def advance (s : ScopedPtr θ) (t : θ) (action : ScopeAction) : Option (ScopedPtr θ) :=
  match action with
  | .opens flag => do
    let tss ← s.tss.advance t (.get flag)
    return { s with tss := tss }
  | .closes =>
    match s.scopes t with
    | [] => none
    | (flag, redis) :: rest => do
      let tss ← s.tss.advance t (.put redis flag)
      return ⟨tss, Function.update s.scopes t rest⟩
  | .exit =>
    -- a thread's scopes are closed before it ends
    if s.scopes t = [] then do
      let tss ← s.tss.advance t .exit
      return { s with tss := tss }
    else none
  | .run => do
    let tss ← s.tss.advance t .run
    match s.tss.calls t with
    | .returns flag redis => return ⟨tss, Function.update s.scopes t ((flag, redis) :: s.scopes t)⟩
    | _ => return { s with tss := tss }

/-- An open scope of the thread has the client. -/
def Holds (s : ScopedPtr θ) (t : θ) (redis : Client) : Prop := ∃ flag, (flag, redis) ∈ s.scopes t

/-- The handles are exclusive. -/
structure Exclusive (s : ScopedPtr θ) : Prop where
  /-- Two threads do not have the same client. -/
  threads : ∀ t u redis, s.Holds t redis → s.Holds u redis → t = u
  /-- No client of an open scope is in the free list. -/
  free : ∀ t redis, s.Holds t redis → redis ∉ s.tss.freeRedis
  /-- No client is in the free list twice. -/
  once : s.tss.freeRedis.Nodup

/-- A thread-specific scope is closed only when its thread has no other one open. -/
def Alone (s : ScopedPtr θ) (t : θ) : ScopeAction → Prop
  | .closes => ∀ redis rest, s.scopes t = (.threadSpecific, redis) :: rest →
      ∀ scope ∈ rest, scope.1 = .notThreadSpecific
  | _ => True

/-- The steps that close thread-specific scopes only so. -/
def Step (s : ScopedPtr θ) (label : θ × ScopeAction) (s' : ScopedPtr θ) : Prop :=
  s.Alone label.1 label.2 ∧ s.advance label.1 label.2 = some s'

/-- The client of a scope that is its own. -/
def own : TssFlag × Client → Option Client
  | (.threadSpecific, _) => none
  | (.notThreadSpecific, redis) => some redis

/-- The scopes are as the pool sees its callers. -/
structure Agrees (s : ScopedPtr θ) : Prop where
  /-- The pool is in order. -/
  ordered : s.tss.Ordered
  /-- A thread has taken the clients of its scopes that are not thread-specific. -/
  taken : ∀ t, s.tss.taken t = (s.scopes t).filterMap own
  /-- Its thread-specific scopes have the client of its slot. -/
  slot : ∀ t redis, (.threadSpecific, redis) ∈ s.scopes t → s.tss.client t = some redis

omit [DecidableEq θ] in
/-- What a scope has its thread has. -/
theorem Agrees.holds {s : ScopedPtr θ} (agrees : s.Agrees) {t : θ} {redis : Client}
    (holds : s.Holds t redis) : s.tss.Holds t redis := by
  obtain ⟨flag, member⟩ := holds
  cases flag with
  | threadSpecific => exact Or.inl (agrees.slot t redis member)
  | notThreadSpecific =>
    refine Or.inr (Or.inl ?_)
    rw [agrees.taken]
    exact List.mem_filterMap.mpr ⟨_, member, rfl⟩

omit [DecidableEq θ] in
/-- Then the handles are exclusive, for the pool is sound. -/
theorem Agrees.exclusive {s : ScopedPtr θ} (agrees : s.Agrees) : s.Exclusive where
  threads t u redis left right :=
    agrees.ordered.sound.threads t u redis (agrees.holds left) (agrees.holds right)
  free t redis holds := agrees.ordered.sound.free t redis (agrees.holds holds)
  once := agrees.ordered.sound.once

/-- Opening a scope and going on in a call change what is taken only when a client is handed out,
and the slot only when it is empty. -/
theorem uses_keeps {s s' : RedisTss θ} {t : θ} {action : TssAction} (ordered : s.Ordered)
    (uses : s.Uses t action s') (asks : (∃ flag, action = .get flag) ∨
      action = .run ∧ ∀ flag redis, s.calls t ≠ .returns flag redis) :
    s'.taken = s.taken ∧ (s'.client t = s.client t ∨ s.client t = none) := by
  cases uses with
  | releases | gives | exits | leaves => simp at asks
  | returned call | handed call =>
    obtain ⟨flag, same⟩ | ⟨-, goes⟩ := asks
    · cases same
    · exact absurd call (goes _ _)
  | resets call =>
    have empty := ordered.slots t
    rw [call] at empty
    rw [RedisTss.reset_empty empty]
    exact ⟨rfl, Or.inr empty⟩
  | found | asks | pops | starves | creates | pushes | full | deletes => exact ⟨rfl, Or.inl rfl⟩

/-- A thread that opens a scope or goes on in a call, with no client handed out yet, leaves the
scopes as they are. -/
theorem Agrees.goesOn {s : ScopedPtr θ} (agrees : s.Agrees) {t : θ} {action : TssAction}
    {tss : RedisTss θ} (step : s.tss.Step (t, action) tss) (asks : (∃ flag, action = .get flag) ∨
      action = .run ∧ ∀ flag redis, s.tss.calls t ≠ .returns flag redis) :
    Agrees { s with tss := tss } := by
  have uses := RedisTss.Step.uses step
  obtain ⟨taken, slot⟩ := uses_keeps agrees.ordered uses asks
  refine ⟨agrees.ordered.step step, fun u => ?_, fun u redis member => ?_⟩
  · rw [taken]
    exact agrees.taken u
  · have held := agrees.slot u redis member
    by_cases same : u = t
    · subst same
      rcases slot with kept | empty
      · exact kept.trans held
      · rw [empty] at held
        cases held
    · exact (uses.others agrees.ordered same).2.trans held

/-- A thread whose scopes change leaves those of the others. -/
theorem Agrees.update {s : ScopedPtr θ} (agrees : s.Agrees) {t : θ} {tss : RedisTss θ}
    (ordered : tss.Ordered) {scopes : List (TssFlag × Client)}
    (taken : tss.taken t = scopes.filterMap own)
    (slot : ∀ redis, (.threadSpecific, redis) ∈ scopes → tss.client t = some redis)
    (others : ∀ u, u ≠ t → tss.taken u = s.tss.taken u ∧ tss.client u = s.tss.client u) :
    Agrees ⟨tss, Function.update s.scopes t scopes⟩ := by
  refine ⟨ordered, fun u => ?_, fun u redis member => ?_⟩
  · change tss.taken u = (Function.update s.scopes t scopes u).filterMap own
    by_cases same : u = t
    · subst same
      rw [Function.update_self]
      exact taken
    · rw [Function.update_of_ne same, (others u same).1]
      exact agrees.taken u
  · change (TssFlag.threadSpecific, redis) ∈ Function.update s.scopes t scopes u at member
    by_cases same : u = t
    · subst same
      rw [Function.update_self] at member
      exact slot redis member
    · rw [Function.update_of_ne same] at member
      exact (others u same).2.trans (agrees.slot u redis member)

/-- A client that is handed out is that of a new scope. -/
theorem Agrees.opened {s : ScopedPtr θ} (agrees : s.Agrees) {t : θ} {flag : TssFlag}
    {redis : Client} {tss : RedisTss θ} (step : s.tss.Step (t, .run) tss)
    (call : s.tss.calls t = .returns flag redis) :
    Agrees ⟨tss, Function.update s.scopes t ((flag, redis) :: s.scopes t)⟩ := by
  have ordered := agrees.ordered.step step
  have fits := agrees.ordered.slots t
  rw [call] at fits
  cases RedisTss.Step.uses step with
  | pops other | starves other | creates other | resets other | pushes other | full other
  | deletes other =>
    rw [call] at other
    cases other
  | returned other =>
    cases call.symm.trans other
    refine agrees.update ordered (agrees.taken t) (fun redis' member => ?_)
      fun u differs => ⟨rfl, rfl⟩
    rcases List.mem_cons.mp member with new | before
    · cases new
      exact fits
    · exact agrees.slot t redis' before
  | handed other =>
    cases call.symm.trans other
    refine agrees.update ordered ?_ (fun redis' member => ?_) fun u differs => ⟨?_, rfl⟩
    · change Function.update s.tss.taken t (redis :: s.tss.taken t) t = _
      rw [Function.update_self, agrees.taken]
      rfl
    · rcases List.mem_cons.mp member with new | before
      · cases new
      · exact agrees.slot t redis' before
    · exact Function.update_of_ne differs _ _

omit [DecidableEq θ] in
/-- The client of a scope that is closed is the thread's to put back. -/
theorem Agrees.documented {s : ScopedPtr θ} (agrees : s.Agrees) {t : θ} {flag : TssFlag}
    {redis : Client} {rest : List (TssFlag × Client)} (scopes : s.scopes t = (flag, redis) :: rest) :
    s.tss.Documented t (.put redis flag) := by
  have member : (flag, redis) ∈ s.scopes t := by
    rw [scopes]
    exact List.mem_cons_self
  cases flag with
  | threadSpecific => exact agrees.slot t redis member
  | notThreadSpecific =>
    refine ⟨t, ?_⟩
    rw [agrees.taken]
    exact List.mem_filterMap.mpr ⟨_, member, rfl⟩

/-- A scope that is closed gives back a client that no other scope has. -/
theorem Agrees.closed {s : ScopedPtr θ} (agrees : s.Agrees) {t : θ} (alone : s.Alone t .closes)
    {flag : TssFlag} {redis : Client} {rest : List (TssFlag × Client)} {tss : RedisTss θ}
    (scopes : s.scopes t = (flag, redis) :: rest) (step : s.tss.Step (t, .put redis flag) tss) :
    Agrees ⟨tss, Function.update s.scopes t rest⟩ := by
  have ordered := agrees.ordered.step step
  have uses := RedisTss.Step.uses step
  have client (u : θ) (other : u ≠ t) := (uses.others agrees.ordered other).2
  have taken := agrees.taken t
  rw [scopes] at taken
  cases uses with
  | releases call slot =>
    refine agrees.update ordered taken (fun redis' member => ?_)
      fun u differs => ⟨rfl, client u differs⟩
    cases alone redis rest scopes _ member
  | gives call owner =>
    have mine : redis ∈ s.tss.taken t := by
      rw [taken]
      exact List.mem_cons_self
    have given : (s.tss.give redis).taken =
        Function.update s.tss.taken t ((s.tss.taken t).erase redis) := by
      rw [RedisTss.give_eq agrees.ordered.separate mine]
    refine agrees.update ordered ?_ (fun redis' member => ?_)
      fun u differs => ⟨?_, client u differs⟩
    · change (s.tss.give redis).taken t = _
      rw [given, Function.update_self, taken]
      exact List.erase_cons_head redis _
    · refine agrees.slot t redis' ?_
      rw [scopes]
      exact List.mem_cons_of_mem _ member
    · change (s.tss.give redis).taken u = _
      rw [given]
      exact Function.update_of_ne differs _ _

/-- A thread without scopes may exit. -/
theorem Agrees.exited {s : ScopedPtr θ} (agrees : s.Agrees) {t : θ} (closed : s.scopes t = [])
    {tss : RedisTss θ} (step : s.tss.Step (t, .exit) tss) : Agrees { s with tss := tss } := by
  have uses := RedisTss.Step.uses step
  have taken : tss.taken = s.tss.taken := by
    cases uses <;> rfl
  refine ⟨agrees.ordered.step step, fun u => ?_, fun u redis member => ?_⟩
  · rw [taken]
    exact agrees.taken u
  · by_cases same : u = t
    · subst same
      rw [closed] at member
      cases member
    · exact (uses.others agrees.ordered same).2.trans (agrees.slot u redis member)

/-- A step keeps the scopes as the pool sees its callers. -/
theorem Agrees.step {s s' : ScopedPtr θ} {label : θ × ScopeAction} (agrees : s.Agrees)
    (step : s.Step label s') : s'.Agrees := by
  obtain ⟨t, action⟩ := label
  obtain ⟨alone, advances⟩ := step
  cases action with
  | opens flag =>
    obtain ⟨tss, moves, same⟩ := Option.bind_eq_some_iff.mp advances
    cases same
    have step : s.tss.Step (t, .get flag) tss := ⟨trivial, moves⟩
    exact agrees.goesOn step (Or.inl ⟨flag, rfl⟩)
  | closes =>
    unfold advance at advances
    cases scopes : s.scopes t with
    | nil =>
      simp only [scopes] at advances
      cases advances
    | cons scope rest =>
      obtain ⟨flag, redis⟩ := scope
      simp only [scopes] at advances
      obtain ⟨tss, moves, same⟩ := Option.bind_eq_some_iff.mp advances
      cases same
      exact agrees.closed alone scopes ⟨agrees.documented scopes, moves⟩
  | exit =>
    unfold advance at advances
    by_cases closed : s.scopes t = []
    · simp only [if_pos closed] at advances
      obtain ⟨tss, moves, same⟩ := Option.bind_eq_some_iff.mp advances
      cases same
      exact agrees.exited closed ⟨trivial, moves⟩
    · simp only [if_neg closed] at advances
      cases advances
  | run =>
    obtain ⟨tss, moves, same⟩ := Option.bind_eq_some_iff.mp advances
    have step : s.tss.Step (t, .run) tss := ⟨trivial, moves⟩
    by_cases returns : ∃ flag redis, s.tss.calls t = .returns flag redis
    · obtain ⟨flag, redis, call⟩ := returns
      simp only [call] at same
      cases same
      exact agrees.opened step call
    · have goes : ∀ flag redis, s.tss.calls t ≠ .returns flag redis := fun flag redis call =>
        returns ⟨flag, redis, call⟩
      have kept : s' = { s with tss := tss } := by
        split at same
        · rename_i flag redis call
          exact absurd call (goes flag redis)
        · cases same
          rfl
      rw [kept]
      exact agrees.goesOn step (Or.inr ⟨rfl, goes⟩)

omit [DecidableEq θ] in
/-- Without scopes the pool has no callers. -/
theorem new_agrees (poolSize : Nat) : (new (θ := θ) poolSize).Agrees where
  ordered := RedisTss.new_ordered poolSize
  taken _ := rfl
  slot t redis member := by cases member

/-- In whatever order the threads take their steps: as long as a thread closes a thread-specific
scope only when it has no other one, the handles are exclusive. -/
theorem scopes_exclusive {poolSize : Nat} {labels : List (θ × ScopeAction)} {s : ScopedPtr θ}
    (run : Simulation.Run Step (new poolSize) labels s) : s.Exclusive :=
  (run.invariant (fun _ _ _ agrees step => agrees.step step) (new_agrees poolSize)).exclusive

/-- A thread opens a thread-specific scope within one of the other kind and closes it: a second thread
is given its client. -/
theorem scopes_exclusive_two : ∃ s : ScopedPtr Bool, s.scopes true = [(.notThreadSpecific, 0)] ∧
    s.scopes false = [(.notThreadSpecific, 1)] ∧ s.Exclusive := by
  have alone : ∀ s : ScopedPtr Bool,
      s.scopes true = [(.threadSpecific, 1), (.notThreadSpecific, 0)] → s.Alone true .closes := by
    intro s scopes redis rest same scope member
    rw [scopes] at same
    cases same
    rw [List.mem_singleton.mp member]
  have run : ∃ s : ScopedPtr Bool, Simulation.Run Step (new 100)
      [(true, .opens .notThreadSpecific), (true, .run), (true, .run), (true, .run),
        (true, .opens .threadSpecific), (true, .run), (true, .run), (true, .run), (true, .run),
        (true, .closes), (true, .run), (false, .opens .notThreadSpecific), (false, .run),
        (false, .run)] s ∧
      s.scopes true = [(.notThreadSpecific, 0)] ∧ s.scopes false = [(.notThreadSpecific, 1)] :=
    ⟨_, .step ⟨trivial, rfl⟩ (.step ⟨trivial, rfl⟩ (.step ⟨trivial, rfl⟩ (.step ⟨trivial, rfl⟩
      (.step ⟨trivial, rfl⟩ (.step ⟨trivial, rfl⟩ (.step ⟨trivial, rfl⟩ (.step ⟨trivial, rfl⟩
      (.step ⟨trivial, rfl⟩ (.step ⟨alone _ rfl, rfl⟩ (.step ⟨trivial, rfl⟩
      (.step ⟨trivial, rfl⟩ (.step ⟨trivial, rfl⟩ (.step ⟨trivial, rfl⟩
      (.done _)))))))))))))), rfl, rfl⟩
  obtain ⟨s, run, left, right⟩ := run
  exact ⟨s, left, right, scopes_exclusive run⟩

/-- A thread opens a thread-specific scope within another and closes it: a second thread is given
the client that the outer scope still has. -/
theorem scopes_not_exclusive : ∃ (labels : List (Bool × ScopeAction)) (s : ScopedPtr Bool),
    Simulation.Run (fun s label s' => s.advance label.1 label.2 = some s') (new 100) labels s ∧
      ¬ s.Exclusive := by
  refine ⟨[(true, .opens .threadSpecific), (true, .run), (true, .run), (true, .run), (true, .run),
    (true, .opens .threadSpecific), (true, .run), (true, .closes), (true, .run),
    (false, .opens .notThreadSpecific), (false, .run), (false, .run)], _,
    .step rfl (.step rfl (.step rfl (.step rfl (.step rfl (.step rfl (.step rfl (.step rfl (.step rfl
      (.step rfl (.step rfl (.step rfl (.done _)))))))))))), fun exclusive => ?_⟩
  have same := exclusive.threads true false 0 ⟨.threadSpecific, List.mem_singleton.mpr rfl⟩
    ⟨.notThreadSpecific, List.mem_singleton.mpr rfl⟩
  cases same

end ScopedPtr

end LibRedis
