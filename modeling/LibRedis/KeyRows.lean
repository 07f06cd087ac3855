import LibRedis.KeyRouting
import LibRedis.Lib.ForLoops

/-!
# The rows of several keys

`__get_keys_client`, access by access. For a call that writes it makes a row for each key and fills
it in place, so a key has the clients that `__get_key_client` chooses for it alone. For a call that
reads it only reserves room for the rows, and the first row that it fills is not there.
-/

namespace LibRedis

open Decimal (ascii)
open ForLoops (forRange filled)

/-- `operator[]` of a vector, which must have the element. -/
def vectorAt {α : Type} (v : List α) (i : Nat) : Except Abort α :=
  match v[i]? with
  | none => .error .outOfBounds
  | some element => .ok element

/-- `v[i].push_back(index)`. -/
def pushBackAt (v : List (List Nat)) (i index : Nat) : Except Abort (List (List Nat)) := do
  let row ← vectorAt v i
  return v.set i (row ++ [index])

/-- `resize`. -/
def resize {α : Type} (v : List α) (size : Nat) (blank : α) : List α :=
  v.take size ++ List.replicate (size - v.length) blank

/-- An element that is there is found. -/
theorem vectorAt_ok {α : Type} {v : List α} {i : Nat} {element : α} (found : v[i]? = some element) :
    vectorAt v i = .ok element := by
  rw [vectorAt, found]

/-- An element is pushed to a row that is there. -/
theorem pushBackAt_ok {v : List (List Nat)} {i : Nat} {row : List Nat} (found : v[i]? = some row)
    (index : Nat) : pushBackAt v i index = .ok (v.set i (row ++ [index])) := by
  rw [pushBackAt, vectorAt_ok found]
  rfl

namespace Redis2P

variable {κ : Type}

/-- The loop of `__get_keys_client` without `write`: one client in one group. -/
def readRows (r : Redis2P κ) (t : ThreadId) (keys : List Bytes) :
    List (List Nat) → Except Abort (List (List Nat)) :=
  forRange keys.length fun indexV i => do
    let hostIndex := r.getKeyHostIndex (← vectorAt keys i)
    let index := hostIndex + r.hostNum * (t.seed % r.groups)
    pushBackAt indexV i index

/-- A round of the loop of `__get_keys_client` with `write`: clients in all groups for one key. -/
def writeRow (r : Redis2P κ) (keys : List Bytes) (indexV : List (List Nat)) (i : Nat) :
    Except Abort (List (List Nat)) := do
  let hostIndex := r.getKeyHostIndex (← vectorAt keys i)
  -- `reserve` of the row
  let _ ← vectorAt indexV i
  forRange r.groups (fun indexV j => pushBackAt indexV i (hostIndex + r.hostNum * j)) indexV

/-- The loop of `__get_keys_client` with `write`. -/
def writeRows (r : Redis2P κ) (keys : List Bytes) :
    List (List Nat) → Except Abort (List (List Nat)) :=
  forRange keys.length (r.writeRow keys)

/-- `__get_keys_client`, with every access to a vector. -/
def getKeysClientByIndex (r : Redis2P κ) (t : ThreadId) (keys : List Bytes) (write : Bool) :
    Except Abort (Bool × List (List Nat) × Redis2P κ) := do
  -- `clear`, and `reserve`, which makes no rows
  let indexV := []
  if !write then
    return r.orUnavailable (← r.readRows t keys indexV)
  else
    return r.orUnavailable (← r.writeRows keys (resize indexV keys.length []))

/-- The inner loop fills a row. -/
theorem pushEach {v : List (List Nat)} {i : Nat} {row : List Nat} (found : v[i]? = some row)
    (n : Nat) (index : Nat → Nat) :
    forRange n (fun v j => pushBackAt v i (index j)) v =
      .ok (v.set i (row ++ (List.range n).map index)) := by
  obtain ⟨inside, same⟩ := List.getElem?_eq_some_iff.mp found
  have start : v = v.set i (row ++ (List.range 0).map index) := by simp [← same]
  have round : ∀ j < n, ∀ state, state = v.set i (row ++ (List.range j).map index) →
      ∃ next, pushBackAt state i (index j) = .ok next ∧
        next = v.set i (row ++ (List.range (j + 1)).map index) := by
    rintro j - state rfl
    have here : (v.set i (row ++ (List.range j).map index))[i]? =
        some (row ++ (List.range j).map index) := List.getElem?_set_self inside
    refine ⟨_, pushBackAt_ok here (index j), ?_⟩
    rw [List.set_set, List.append_assoc, List.range_succ, List.map_append]
    rfl
  obtain ⟨last, ends, kept⟩ := ForLoops.forRange_ends
    (fun j state => state = v.set i (row ++ (List.range j).map index)) start round
  rw [ends, kept]

/-- The row of a key: its clients from the first group on. -/
def keyRow (r : Redis2P κ) (key : Bytes) : List Nat :=
  (List.range r.groups).map fun j => r.getKeyHostIndex key + r.hostNum * j

/-- A round fills the row of a key, if it is there. -/
theorem writeRow_ok (r : Redis2P κ) {keys : List Bytes} {indexV : List (List Nat)} {i : Nat}
    {key : Bytes} (isKey : keys[i]? = some key) (blank : indexV[i]? = some []) :
    r.writeRow keys indexV i = .ok (indexV.set i (r.keyRow key)) := by
  rw [writeRow, vectorAt_ok isKey, vectorAt_ok blank]
  exact pushEach blank r.groups fun j => r.getKeyHostIndex key + r.hostNum * j

/-- The loop fills all rows, if they are there. -/
theorem writeRows_eq (r : Redis2P κ) (keys : List Bytes) :
    r.writeRows keys (List.replicate keys.length []) = .ok (keys.map r.keyRow) := by
  let rowOf (i : Nat) : List Nat := r.keyRow (keys.getD i [])
  have start : List.replicate keys.length [] = filled rowOf [] keys.length 0 :=
    (ForLoops.filled_zero rowOf [] keys.length).symm
  have full : filled rowOf [] keys.length keys.length = keys.map r.keyRow := by
    rw [ForLoops.filled_self]
    apply List.ext_getElem
    · simp
    · intro i _ inside
      have isKey : i < keys.length := by simpa using inside
      simp [rowOf, isKey]
  have round : ∀ i < keys.length, ∀ indexV, indexV = filled rowOf [] keys.length i →
      ∃ next, r.writeRow keys indexV i = .ok next ∧ next = filled rowOf [] keys.length (i + 1) := by
    rintro i below indexV rfl
    have isKey : keys[i]? = some (keys.getD i []) := by simp [below]
    have blank := ForLoops.getElem?_filled rowOf [] below
    exact ⟨_, r.writeRow_ok isKey blank, ForLoops.set_filled rowOf [] below⟩
  obtain ⟨last, ends, kept⟩ := ForLoops.forRange_ends
    (fun i indexV => indexV = filled rowOf [] keys.length i) start round
  rw [← full, ← kept]
  exact ends

/-- The first row to be filled for a call that reads is not there. -/
theorem getKeysClientByIndex_reads (r : Redis2P κ) (t : ThreadId) {keys : List Bytes}
    (some : keys ≠ []) : r.getKeysClientByIndex t keys false = .error .outOfBounds := by
  obtain ⟨key, rest, rfl⟩ := List.exists_cons_of_ne_nil some
  have fails : r.readRows t (key :: rest) [] = .error .outOfBounds :=
    ForLoops.forRange_fails (Nat.succ_pos rest.length) rfl
  change (r.readRows t (key :: rest) [] >>= fun rows => pure (r.orUnavailable rows)) = _
  rw [fails]
  rfl

/-- Access by access the function does what it does as a whole. -/
theorem getKeysClientByIndex_eq (r : Redis2P κ) (t : ThreadId) (keys : List Bytes) (write : Bool) :
    r.getKeysClientByIndex t keys write = r.getKeysClient keys write := by
  cases write with
  | true =>
    have rows : resize [] keys.length [] = List.replicate keys.length ([] : List Nat) := by
      simp [resize]
    change (r.writeRows keys (resize [] keys.length []) >>= fun rows => pure _) = _
    rw [rows, writeRows_eq]
    rfl
  | false =>
    cases keys with
    | nil => rfl
    | cons key rest => exact getKeysClientByIndex_reads r t (List.cons_ne_nil key rest)

/-- `__get_keys_client` accesses vectors in range only, and yields a row for each key, with the
clients that `__get_key_client` chooses for it in the same mode. -/
def RowsAgree (r : Redis2P κ) (t : ThreadId) (keys : List Bytes) (write : Bool) : Prop :=
  ∃ rows, r.getKeysClientByIndex t keys write = .ok (true, rows, r) ∧ rows.length = keys.length ∧
    ∀ (i : Nat) (key : Bytes), keys[i]? = some key → ∃ row indexes, rows[i]? = some row ∧
      r.getKeyClient t key write = (true, indexes, r) ∧ ∀ index, index ∈ row ↔ index ∈ indexes

/-- The rows are those of the keys alone, if they are written to. -/
theorem Configured.rowsAgree {r : Redis2P κ} (configured : r.Configured) (t : ThreadId)
    {keys : List Bytes} (some : keys ≠ []) : r.RowsAgree t keys true := by
  refine ⟨keys.map (r.replicas 0), ?_, List.length_map _, ?_⟩
  · rw [getKeysClientByIndex_eq, getKeysClient_eq r some]
  · intro i key found
    refine ⟨r.replicas 0 key, r.replicas t.seed key, ?_, configured.getKeyClient_eq t key, ?_⟩
    · rw [List.getElem?_map, found]
      rfl
    · intro index
      rw [configured.mem_replicas, configured.mem_replicas]

/-- For every object that was constructed, whatever was called since, every thread and all keys:
`__get_keys_client` agrees with `__get_key_client` exactly in the mode that writes. -/
theorem rowsAgree_iff {hostList portList : Bytes} {dbIndex : Int32} {timeoutMs : Int}
    {partitions : Int32} {hashFn : Bytes → UInt32}
    {newRedis2 : Nat → Bytes → Bytes → Int32 → Int → κ} {made r : Redis2P κ}
    (accepted : new hostList portList dbIndex timeoutMs partitions hashFn newRedis2 = .ok made)
    (since : made.Keeps r) (t : ThreadId) {keys : List Bytes} (some : keys ≠ []) (write : Bool) :
    r.RowsAgree t keys write ↔ write = true := by
  cases write with
  | true =>
    have configured := since.configured (new_configured accepted).1
    exact iff_of_true (configured.rowsAgree t some) rfl
  | false =>
    constructor
    · rintro ⟨rows, returns, -⟩
      rw [getKeysClientByIndex_reads r t some] at returns
      cases returns
    · intro wrong
      cases wrong

/-- Two keys of an object with four hosts in two groups. -/
theorem rowsAgree_iff_four : ∃ r : Redis2P Nat,
    new (ascii "a,b,c,d") (ascii "6379") 0 50 2 (fun _ => 5) (fun i _ _ _ _ => i) = .ok r ∧
      r.RowsAgree ⟨3, by decide⟩ [ascii "k", ascii "l"] true := by
  obtain ⟨r, accepted⟩ : ∃ r : Redis2P Nat, new (ascii "a,b,c,d") (ascii "6379") 0 50 2 (fun _ => 5)
      (fun i _ _ _ _ => i) = .ok r := ⟨_, rfl⟩
  have agrees := rowsAgree_iff accepted (Keeps.refl r) ⟨3, by decide⟩
    (show [ascii "k", ascii "l"] ≠ [] from List.cons_ne_nil _ _) true
  exact ⟨r, accepted, agrees.mpr rfl⟩

/-- One key that is read: the row that is filled is not there. -/
theorem rows_not_agree : ∃ r : Redis2P Nat,
    new (ascii "a") (ascii "6379") 0 50 1 (fun _ => 5) (fun i _ _ _ _ => i) = .ok r ∧
      r.getKeysClientByIndex ⟨3, by decide⟩ [ascii "k"] false = .error .outOfBounds ∧
      ¬ r.RowsAgree ⟨3, by decide⟩ [ascii "k"] false := by
  obtain ⟨r, accepted⟩ : ∃ r : Redis2P Nat, new (ascii "a") (ascii "6379") 0 50 1 (fun _ => 5)
      (fun i _ _ _ _ => i) = .ok r := ⟨_, rfl⟩
  have fails : r.getKeysClientByIndex ⟨3, by decide⟩ [ascii "k"] false = .error .outOfBounds :=
    getKeysClientByIndex_reads r _ (List.cons_ne_nil _ _)
  refine ⟨r, accepted, fails, ?_⟩
  rintro ⟨rows, returns, -⟩
  cases fails.symm.trans returns

end Redis2P

end LibRedis
