import LibRedis.RedisTss

/-!
# The end of a client pool

`~Impl` empties the free list and only then gives up `client_`, whose cleanup handler puts the
client of the destroying thread into the free list again. Nothing deletes it there.
-/

namespace LibRedis

open Places (Separate Somewhere)

namespace RedisTss

variable {θ : Type} [DecidableEq θ]

/-- `clear_free_redis`. -/
def clearFreeRedis (s : RedisTss θ) : RedisTss θ :=
  { s with deleted := s.deleted ++ s.freeRedis, freeRedis := [] }

/-- `~Impl` in a thread: its body, then `~thread_specific_ptr` for `client_`, which is the last
member, and then the list of free clients goes with what is in it. -/
def destroy (s : RedisTss θ) (t : θ) : RedisTss θ :=
  { s.clearFreeRedis.setTssData t none true with freeRedis := [] }

/-- The pool is destroyed by a thread when every client that was taken is back and the other
threads that have used it have exited. -/
structure Finished (s : RedisTss θ) (labels : List (θ × TssAction)) (t : θ) : Prop where
  /-- Every client that was taken is back. -/
  back : ∀ u, s.taken u = []
  /-- The thread is in no other call. -/
  idle : s.calls t = .idle
  /-- The other threads have exited. -/
  others : ∀ u, u ≠ t → s.calls u = .exited ∨ ∀ label ∈ labels, label.1 ≠ u

/-- The pool keeps its size. -/
theorem run_poolSize {poolSize : Nat} {labels : List (θ × TssAction)} {s : RedisTss θ}
    (run : Simulation.Run Step (new poolSize) labels s) : s.poolSize = poolSize := by
  let kept (s : RedisTss θ) : Prop := s.Ordered ∧ s.poolSize = poolSize
  have preserved (s : RedisTss θ) (label : θ × TssAction) (s' : RedisTss θ) (before : kept s)
      (step : s.Step label s') : kept s' :=
    ⟨before.1.step step, ((Step.uses step).bounded before.1).1.trans before.2⟩
  have both : kept s := run.invariant preserved ⟨new_ordered poolSize, rfl⟩
  exact both.2

/-- A thread that takes no step stays out of every call and has nothing in its slot. -/
theorem run_untouched {labels : List (θ × TssAction)} {first s : RedisTss θ}
    (run : Simulation.Run Step first labels s) (ordered : first.Ordered) {t : θ}
    (untouched : ∀ label ∈ labels, label.1 ≠ t) :
    s.calls t = first.calls t ∧ s.client t = first.client t := by
  induction run with
  | done => exact ⟨rfl, rfl⟩
  | @step first next last label labels head tail ih =>
    obtain ⟨calls, client⟩ := ih (ordered.step head) fun label member =>
      untouched label (List.mem_cons_of_mem _ member)
    obtain ⟨calls', client'⟩ := (Step.uses head).others ordered
      (untouched label List.mem_cons_self).symm
    exact ⟨calls.trans calls', client.trans client'⟩

/-- In the end every client is deleted, in the free list or in the slot of the destroying thread. -/
theorem Finished.somewhere {poolSize : Nat} {labels : List (θ × TssAction)} {s : RedisTss θ} {t : θ}
    (run : Simulation.Run Step (new poolSize) labels s) (finished : s.Finished labels t)
    (redis : Client) :
    redis < s.created ↔ redis ∈ s.deleted ++ s.freeRedis ∨ s.client t = some redis := by
  have ordered := run_ordered run
  have gone (u : θ) (other : u ≠ t) :
      (s.calls u = .exited ∨ s.calls u = .idle) ∧ s.client u = none := by
    rcases finished.others u other with exited | untouched
    · have fits := ordered.slots u
      rw [exited] at fits
      exact ⟨Or.inl exited, fits⟩
    · obtain ⟨idle, empty⟩ := run_untouched run (new_ordered poolSize) untouched
      exact ⟨Or.inr idle, empty⟩
  rw [← ordered.made, List.mem_append]
  constructor
  · rintro ⟨place, member⟩
    cases place with
    | free => exact Or.inl (Or.inr member)
    | deleted => exact Or.inl (Or.inl member)
    | taken u =>
      rw [stored, finished.back u] at member
      exact absurd member List.not_mem_nil
    | slot u =>
      by_cases same : u = t
      · subst same
        exact Or.inr (Option.mem_toList.mp member)
      · rw [stored, (gone u same).2] at member
        exact absurd member List.not_mem_nil
    | carried u =>
      have quiet : (s.calls u).carries = none := by
        by_cases same : u = t
        · rw [same, finished.idle]
          rfl
        · rcases (gone u same).1 with exited | idle
          · rw [exited]
            rfl
          · rw [idle]
            rfl
      rw [stored, quiet] at member
      exact absurd member List.not_mem_nil
  · rintro ((deleted | free) | slot)
    · exact ⟨.deleted, deleted⟩
    · exact ⟨.free, free⟩
    · exact ⟨.slot t, Option.mem_toList.mpr slot⟩

/-- What is deleted when the pool has been destroyed. -/
theorem destroy_deleted (s : RedisTss θ) (t : θ) :
    (s.destroy t).deleted = s.deleted ++ s.freeRedis ++
      if s.poolSize = 0 then (s.client t).toList else [] := by
  unfold destroy setTssData
  rw [if_pos rfl]
  change (s.clearFreeRedis.cleanup (s.client t)).deleted = _
  cases s.client t with
  | none => simp [cleanup, clearFreeRedis]
  | some redis =>
    by_cases empty : s.poolSize = 0
    · simp [cleanup, putFreeRedis, clearFreeRedis, deleteRedis, empty]
    · simp [cleanup, putFreeRedis, clearFreeRedis, empty]

/-- When the pool has been used as documented and is destroyed, every client ever made has been
deleted exactly once if and only if the destroying thread has no client in its slot, or the pool
keeps no free clients at all. -/
theorem destroy_deletes_iff {poolSize : Nat} {labels : List (θ × TssAction)} {s : RedisTss θ}
    (run : Simulation.Run Step (new poolSize) labels s) {t : θ} (finished : s.Finished labels t) :
    (∀ redis < s.created, (s.destroy t).deleted.count redis = 1) ↔
      s.client t = none ∨ poolSize = 0 := by
  have ordered := run_ordered run
  have whole := finished.somewhere run
  have once : (s.deleted ++ s.freeRedis).Nodup := by
    refine List.nodup_append'.mpr ⟨ordered.separate.once .deleted, ordered.separate.once .free, ?_⟩
    intro redis deleted free
    exact nomatch ordered.separate.apart .deleted .free deleted free
  rw [destroy_deleted, run_poolSize run]
  cases slot : s.client t with
  | none =>
    refine iff_of_true (fun redis made => ?_) (Or.inl rfl)
    have member := (whole redis).mp made
    rw [slot, or_iff_left (by nofun)] at member
    rw [Option.toList_none, ite_self, List.append_nil]
    exact List.count_eq_one_of_mem once member
  | some own =>
    have outside : own ∉ s.deleted ++ s.freeRedis := by
      have here : own ∈ s.stored (.slot t) := Option.mem_toList.mpr slot
      rw [List.mem_append]
      rintro (deleted | free)
      · exact nomatch ordered.separate.apart (.slot t) .deleted here deleted
      · exact nomatch ordered.separate.apart (.slot t) .free here free
    by_cases empty : poolSize = 0
    · refine iff_of_true (fun redis made => ?_) (Or.inr empty)
      rw [if_pos empty]
      refine List.count_eq_one_of_mem ?_ ?_
      · exact (List.perm_append_singleton own _).nodup_iff.mpr (List.nodup_cons.mpr ⟨outside, once⟩)
      · rcases (whole redis).mp made with member | same
        · exact List.mem_append_left _ member
        · obtain rfl := Option.some.inj (slot.symm.trans same)
          exact List.mem_append_right _ (List.mem_singleton.mpr rfl)
    · refine iff_of_false (fun all => ?_) ?_
      · have missing := all own ((whole own).mpr (Or.inr slot))
        rw [if_neg empty, List.append_nil, List.count_eq_zero_of_not_mem outside] at missing
        exact absurd missing (by decide)
      · rintro (none | none)
        · cases none
        · exact empty none

/-- A thread that takes a client for itself and destroys the pool: the client is never deleted. -/
theorem destroy_leaks : ∃ (labels : List (Unit × TssAction)) (s : RedisTss Unit),
    Simulation.Run Step (new 100) labels s ∧ s.Finished labels () ∧
      ¬ ∀ redis < s.created, (s.destroy ()).deleted.count redis = 1 := by
  refine ⟨[((), .get .threadSpecific), ((), .run), ((), .run), ((), .run), ((), .run)], _,
    .step ⟨trivial, rfl⟩ (.step ⟨trivial, rfl⟩ (.step ⟨trivial, rfl⟩ (.step ⟨trivial, rfl⟩ (.step
      ⟨trivial, rfl⟩ (.done _))))), ⟨fun _ => rfl, rfl, fun _ other => absurd rfl other⟩, ?_⟩
  intro all
  exact absurd (all 0 (by decide)) (by decide)

/-- A thread leaves its client to the pool when it exits, and another destroys the pool. -/
theorem destroy_deletes_iff_exit : ∃ s : RedisTss Bool, s.client true = none ∧ s.created = 1 ∧
    ((∀ redis < s.created, (s.destroy true).deleted.count redis = 1) ↔
      s.client true = none ∨ 100 = 0) := by
  have run : ∃ s : RedisTss Bool, Simulation.Run Step (new 100)
      [(false, .get .threadSpecific), (false, .run), (false, .run), (false, .run), (false, .run),
        (false, .exit), (false, .run)] s ∧
      s.client true = none ∧ s.created = 1 ∧ (∀ u, s.taken u = []) ∧ s.calls true = .idle ∧
      s.calls false = .exited :=
    ⟨_, .step ⟨trivial, rfl⟩ (.step ⟨trivial, rfl⟩ (.step ⟨trivial, rfl⟩ (.step ⟨trivial, rfl⟩
      (.step ⟨trivial, rfl⟩ (.step ⟨trivial, rfl⟩ (.step ⟨trivial, rfl⟩ (.done _))))))), rfl, rfl,
      fun _ => rfl, rfl, rfl⟩
  obtain ⟨s, run, slot, created, back, idle, exited⟩ := run
  refine ⟨s, slot, created, destroy_deletes_iff run ⟨back, idle, fun u other => Or.inl ?_⟩⟩
  cases u with
  | false => exact exited
  | true => exact absurd rfl other

end RedisTss

end LibRedis
