import Mathlib.Data.Finset.Card
import Mathlib.Logic.Function.Basic

/-!
# Maps in shards

A map whose keys are dealt out to shards by a function. A shard is the map on its own keys, so what
one key is given changes the shard of that key as it changes the map, and no other shard. The keys
of several shards are those of each, one behind the other.
-/

namespace Shards

variable {K V : Type}

/-- The keys of one shard, with what they have in the map. -/
def shard (part : K → Nat) (map : K → Option V) (i : Nat) (key : K) : Option V :=
  if part key = i then map key else none

/-- The shard of a key has what the map has. -/
theorem shard_self (part : K → Nat) (map : K → Option V) (key : K) :
    shard part map (part key) key = map key :=
  if_pos rfl

/-- A shard of the empty map is empty. -/
theorem shard_empty (part : K → Nat) (i : Nat) :
    shard part (fun _ => (none : Option V)) i = fun _ => none := by
  funext key
  simp [shard]

/-- A key is in a shard if it is in the map and dealt out to that shard. -/
theorem isSome_shard {part : K → Nat} {map : K → Option V} {i : Nat} {key : K} :
    (shard part map i key).isSome ↔ part key = i ∧ (map key).isSome := by
  unfold shard
  split_ifs with here
  · simp [here]
  · simp [here]

/-- Some keys are listed once each. -/
structure Lists (found : List K) (isKey : K → Prop) : Prop where
  /-- No key is listed twice. -/
  nodup : found.Nodup
  /-- The keys that are listed. -/
  mem_iff (key : K) : key ∈ found ↔ isKey key

/-- Lists of different keys are listed one behind the other. -/
theorem Lists.append {found more : List K} {isKey isMore : K → Prop} (lists : Lists found isKey)
    (listsMore : Lists more isMore) (apart : ∀ key, isKey key → ¬ isMore key) :
    Lists (found ++ more) fun key => isKey key ∨ isMore key where
  nodup := by
    refine List.nodup_append.mpr ⟨lists.nodup, listsMore.nodup, ?_⟩
    rintro key member _ later rfl
    exact apart key ((lists.mem_iff key).mp member) ((listsMore.mem_iff key).mp later)
  mem_iff key := by rw [List.mem_append, lists.mem_iff, listsMore.mem_iff]

/-- It matters only which keys are listed. -/
theorem Lists.congr {found : List K} {isKey isKey' : K → Prop} (lists : Lists found isKey)
    (same : ∀ key, isKey key ↔ isKey' key) : Lists found isKey' where
  nodup := lists.nodup
  mem_iff key := (lists.mem_iff key).trans (same key)

variable [DecidableEq K]

/-- What a key is given changes its shard. -/
theorem shard_update_self (part : K → Nat) (map : K → Option V) (key : K) (value : Option V) :
    shard part (Function.update map key value) (part key) =
      Function.update (shard part map (part key)) key value := by
  funext other
  by_cases same : other = key
  · subst same
    simp [shard]
  · simp [shard, Function.update_of_ne same]

/-- It changes no other shard. -/
theorem shard_update_other {part : K → Nat} (map : K → Option V) {key : K} (value : Option V)
    {i : Nat} (other : part key ≠ i) :
    shard part (Function.update map key value) i = shard part map i := by
  funext key'
  unfold shard
  split_ifs with here
  · have apart : key' ≠ key := by
      rintro rfl
      exact other here
    rw [Function.update_of_ne apart]
  · rfl

/-- Values are stored one after the other. -/
def storeAll (map : K → Option V) (pairs : List (K × V)) : K → Option V :=
  pairs.foldl (fun map (key, value) => Function.update map key (some value)) map

/-- Keys are removed. -/
def removeAll (map : K → Option V) (keys : List K) (key : K) : Option V :=
  if key ∈ keys then none else map key

/-- How many of these keys are in the map. -/
def countLive (map : K → Option V) (keys : List K) : Nat :=
  (keys.toFinset.filter fun key => (map key).isSome).card

/-- Without a key nothing is removed. -/
theorem removeAll_nil (map : K → Option V) : removeAll map [] = map := by
  funext key
  simp [removeAll]

/-- Keys are removed one after the other. -/
theorem removeAll_cons (map : K → Option V) (key : K) (keys : List K) :
    removeAll map (key :: keys) = removeAll (Function.update map key none) keys := by
  funext other
  by_cases same : other = key
  · subst same
    simp [removeAll]
  · simp [removeAll, same]

/-- As many are removed as were there: a key that comes twice is gone the second time. -/
theorem countLive_cons (map : K → Option V) (key : K) (keys : List K) :
    countLive map (key :: keys) = (if (map key).isSome then 1 else 0) +
      countLive (Function.update map key none) keys := by
  let live := keys.toFinset.filter fun k => (map k).isSome
  have others : keys.toFinset.filter (fun k => (Function.update map key none k).isSome) =
      live.erase key := by
    ext other
    by_cases same : other = key
    · subst same
      simp
    · simp [live, same]
  have again : insert key live = insert key (live.erase key) := by
    ext other
    by_cases same : other = key
    · simp [same]
    · simp [same]
  unfold countLive
  rw [others, List.toFinset_cons, Finset.filter_insert]
  change (if _ then insert key live else live).card = _
  split_ifs with there
  · rw [again, Finset.card_insert_of_notMem (Finset.notMem_erase key live)]
    omega
  · rw [Finset.erase_eq_of_notMem (by simp [live, there])]
    omega

end Shards
