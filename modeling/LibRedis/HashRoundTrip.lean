import LibRedis.Lib.TreeMaps
import LibRedis.OldStyle
import LibRedis.TableServer

/-!
# Hashes that are written and read back

`hmset` sends the fields and the values of a hash in turn, and `hgetall` pairs up what it gets. The
pairs are added to what the container of the caller holds: a vector grows, and a map keeps the
values that it has. So the container is the hash behind the call if nothing in it stood in the way
before.
-/

namespace LibRedis

open Decimal (ascii)
open Resp (Reply)
open RedisProtocol (commandText requestOf)
open Redis2 (Holds)

/-- Fields and values in turn. -/
def fieldsAndValues (entries : List (Bytes × Bytes)) : List Bytes :=
  interleave (entries.map Prod.fst) (entries.map Prod.snd)

/-- A first field with its value. -/
theorem fieldsAndValues_cons (entry : Bytes × Bytes) (rest : List (Bytes × Bytes)) :
    fieldsAndValues (entry :: rest) = entry.1 :: entry.2 :: fieldsAndValues rest := by
  simp [fieldsAndValues, interleave]

/-- The map of some pairs, in which a later value of a field replaces an earlier one. -/
def StringMap.ofPairs (pairs : List (Bytes × Bytes)) : StringMap := TreeMaps.store pairs ∅

/-- What a server promises about HMSET and HGETALL. -/
structure StoredHashes {σ δ : Type} {server : Server σ} (docs : Documented server δ) where
  /-- Whether a key of a database is absent. -/
  absent : δ → Int32 → Bytes → Prop
  /-- The hash at a key. -/
  hash : δ → Int32 → Bytes → StringMap
  /-- HMSET on an absent key stores the fields. -/
  hmset (state : σ) (args : List Bytes) (named : commandOf args = .hmset) (key : Bytes)
    (pairs : List (Bytes × Bytes)) (asks : args.tail = key :: fieldsAndValues pairs)
    (isAbsent : absent (docs.data state) (docs.db state) key)
    (stored : (server.handle state args).1 = .status (ascii "OK")) :
    hash (docs.data (server.handle state args).2) (docs.db state) key = StringMap.ofPairs pairs
  /-- HGETALL lists each field once, with its value. -/
  hgetall (state : σ) (args : List Bytes) (named : commandOf args = .hgetall) (key : Bytes)
    (asks : args.tail = [key]) (elements : List Reply)
    (lists : (server.handle state args).1 = .array elements) :
    ∃ entries, elements = (fieldsAndValues entries).map Reply.bulk ∧
      entries.Perm (hash (docs.data state) (docs.db state) key).toList

section Client

variable {σ δ : Type} {server : Server σ} {docs : Documented server δ} [Doubles]

/-- `hmset` on an absent key stores the fields. -/
theorem Redis2.Holds.hmset_stores (laws : StoredHashes docs) {chosen : Int32} {data : δ}
    {r r' : Redis2 (Endpoint server)} (holds : Holds docs chosen data r) {key : Bytes}
    {pairs : List (Bytes × Bytes)} (isAbsent : laws.absent data chosen key)
    (few : (key :: fieldsAndValues pairs).length + 1 < 2 ^ 31)
    (returns : RedisBase2.call r key (.hmset (pairs.map Prod.fst) (pairs.map Prod.snd)) =
      .ok (some (), r')) :
    ∃ data', Holds docs chosen data' r' ∧ laws.hash data' chosen key = StringMap.ofPairs pairs := by
  have named : commandOf (requestOf ⟨.hmset, key :: fieldsAndValues pairs, .none⟩) = .hmset :=
    commandOf_requestOf rfl
  have lengths : decide ((pairs.map Prod.fst).length = (pairs.map Prod.snd).length) = true := by
    simp
  have sends : r.method ⟨.hmset, key :: fieldsAndValues pairs, .none⟩ RedisOutput.takeStatusOk =
      .ok (some (), r') := by
    rw [← returns]
    change _ = Redis2.checkExpr r _ _
    rw [lengths]
    rfl
  have small := holds.method_small few sends
  obtain ⟨tracks, ⟨wrong, -⟩ | ⟨state, kept, db, next, answers⟩⟩ := holds.method small rfl sends
  · cases wrong
  · obtain ⟨⟨text, status⟩, takes⟩ := answers () rfl
    have stored : (server.handle state
        (requestOf ⟨.hmset, key :: fieldsAndValues pairs, .none⟩)).1 = .status (ascii "OK") := by
      have declared : denoteAs Command.hmset.commandInfo.replyType (.status text) =
          .status text := rfl
      rw [status] at takes ⊢
      change RedisOutput.takeStatusOk (denoteAs Command.hmset.commandInfo.replyType _) = _ at takes
      rw [declared, RedisOutput.takeStatusOk] at takes
      split at takes
      · rename_i ok
        rw [beq_iff_eq.mp ok]
      · cases takes
    refine ⟨docs.data r'.serverState, ⟨tracks, rfl⟩, ?_⟩
    have stores := laws.hmset state _ named key pairs rfl (by rw [kept, db]; exact isAbsent) stored
    rw [next, ← db]
    exact stores

/-- `hgetall` returns each field once, with its value. -/
theorem Redis2.Holds.hgetall_lists (laws : StoredHashes docs) {chosen : Int32} {data : δ}
    {r r' : Redis2 (Endpoint server)} (holds : Holds docs chosen data r) {key : Bytes} {mb : Mbulk}
    (returns : RedisBase2.call r key .hgetall = .ok (some mb, r')) :
    Holds docs chosen data r' ∧ ∃ entries, mb = (fieldsAndValues entries).map some ∧
      entries.Perm (laws.hash data chosen key).toList := by
  have named : commandOf (requestOf ⟨.hgetall, [key], .none⟩) = .hgetall := commandOf_requestOf rfl
  have sends : r.method ⟨.hgetall, [key], .none⟩ RedisOutput.takeMbulks = .ok (some mb, r') :=
    returns
  have few : [key].length + 1 < 2 ^ 31 := by simp
  have small := holds.method_small few sends
  have holds' : Holds docs chosen data r' :=
    holds.call_reads (m := .hgetall) small (Or.inl rfl) returns
  refine ⟨holds', ?_⟩
  obtain ⟨-, ⟨wrong, -⟩ | ⟨state, kept, db, -, answers⟩⟩ := holds.method small rfl sends
  · cases wrong
  · obtain ⟨⟨nil | ⟨elements, lists⟩, -⟩, takes⟩ := answers mb rfl
    · rw [nil] at takes
      cases takes
    · obtain ⟨entries, replies, same⟩ := laws.hgetall state _ named key rfl elements lists
      rw [kept, db] at same
      refine ⟨entries, ?_, same⟩
      rw [lists, replies] at takes
      have shows : (fieldsAndValues entries).map (bulkOf ∘ Reply.bulk) = mb := by
        rw [← List.map_map]
        exact Option.some.inj takes
      rw [← shows]
      rfl

end Client

namespace OldStyle

/-- The loop of `hgetall` adds the pairs that are listed. -/
theorem addEach_entries {β : Type} (add : β → Bytes → Bytes → β) (entries : List (Bytes × Bytes))
    (held : β) : addEach add ((fieldsAndValues entries).map some) held =
      .ok (entries.foldl (fun held entry => add held entry.1 entry.2) held) := by
  induction entries generalizing held with
  | nil => rfl
  | cons entry rest ih =>
    rw [fieldsAndValues_cons, List.map_cons, List.map_cons, addEach, ih]
    rfl

/-- What `hgetall` returns where it returns true. -/
theorem hgetall_returns {κ β : Type} [KeepsError κ] {add : β → Bytes → Bytes → β}
    {client client' : κ} {key : Bytes} {held held' : β}
    (returns : (checkPointer client (some held) fun held =>
      adapt (RedisBase2.call client key .hgetall) (addResult add held)) =
        .ok (true, some held', client')) :
    ∃ mb, RedisBase2.call client key .hgetall = .ok (some mb, client') ∧
      addEach add mb held = .ok held' := by
  obtain ⟨⟨out, client₁⟩, calls, ends⟩ := bind_returns returns
  obtain ⟨⟨returned, container⟩, adds, same⟩ := bind_returns ends
  cases same
  cases out with
  | none => cases adds
  | some mb =>
    obtain ⟨held₁, adds, same⟩ := bind_returns adds
    cases same
    exact ⟨mb, calls, adds⟩

/-- What `hmset` has called where it returns true. -/
theorem hmsetPairs_returns {κ : Type} [KeepsError κ] {client client' : κ} {key : Bytes}
    {pairs : List (Bytes × Bytes)}
    (returns : hmsetPairs client key pairs = .ok (true, (), client')) :
    RedisBase2.call client key (.hmset (pairs.map Prod.fst) (pairs.map Prod.snd)) =
      .ok (some (), client') := by
  obtain ⟨⟨out, client₁⟩, calls, ends⟩ := bind_returns returns
  cases out with
  | none => cases ends
  | some nothing =>
    cases ends
    exact calls

end OldStyle

/-- What `hmset` is given: a vector of pairs, or a map. -/
inductive Fields where
  | pairs (fieldsAndValues : List (Bytes × Bytes))
  | map (fieldsAndValues : StringMap)

namespace Fields

/-- The pairs, in the order in which they are sent. -/
def entries : Fields → List (Bytes × Bytes)
  | pairs fieldsAndValues => fieldsAndValues
  | map fieldsAndValues => fieldsAndValues.toList

/-- The hash that is meant: the map, or the pairs with the last value of each field. -/
def stored : Fields → StringMap
  | pairs fieldsAndValues => StringMap.ofPairs fieldsAndValues
  | map fieldsAndValues => fieldsAndValues

/-- The `hmset` for them. -/
def hmset {κ : Type} [KeepsError κ] (client : κ) (key : Bytes) :
    Fields → Except Abort (Bool × Unit × κ)
  | pairs fieldsAndValues => OldStyle.hmsetPairs client key fieldsAndValues
  | map fieldsAndValues => OldStyle.hmsetMap client key fieldsAndValues

/-- The hash that is meant is made of the pairs that are sent. -/
theorem ofPairs_entries (fields : Fields) : StringMap.ofPairs fields.entries = fields.stored := by
  cases fields with
  | pairs fieldsAndValues => rfl
  | map fieldsAndValues => exact TreeMaps.store_toList fieldsAndValues

/-- Both send the same. -/
theorem hmset_eq {κ : Type} [KeepsError κ] (client : κ) (key : Bytes) (fields : Fields) :
    fields.hmset client key = OldStyle.hmsetPairs client key fields.entries := by
  cases fields <;> rfl

/-- The command that is sent. -/
def command (key : Bytes) (fields : Fields) : RedisCommand :=
  ⟨.hmset, key :: fieldsAndValues fields.entries, .none⟩

end Fields

/-- What is read back is the hash that was written. -/
structure ReadsBack (fields : Fields) (map : StringMap) (pairs : List (Bytes × Bytes)) : Prop where
  /-- The map is the hash. -/
  isMap : map = fields.stored
  /-- The pairs are its entries, in some order. -/
  arePairs : pairs.Perm fields.stored.toList
  /-- So the two agree. -/
  agree : pairs.Perm map.toList

/-- Entries that are listed are added to containers: they are the hash behind it if nothing was
there that is not of the hash. -/
theorem readsBack_iff {fields : Fields} {first second : List (Bytes × Bytes)}
    (lists : first.Perm fields.stored.toList) (lists' : second.Perm fields.stored.toList)
    (map : StringMap) (pairs : List (Bytes × Bytes)) :
    ReadsBack fields (TreeMaps.add first map) (pairs ++ second) ↔
      pairs = [] ∧ ∀ (field value : Bytes), map[field]? = some value →
        fields.stored[field]? = some value := by
  have found (field : Bytes) : (TreeMaps.add first map)[field]? =
      map[field]?.or fields.stored[field]? := by
    rw [TreeMaps.getElem?_add, TreeMaps.lookup_of_perm lists]
  constructor
  · rintro ⟨same, perm, -⟩
    constructor
    · have length := perm.length_eq
      rw [List.length_append, lists'.length_eq] at length
      exact List.length_eq_zero_iff.mp (by omega)
    · intro field value held
      have here := found field
      rw [same, held] at here
      exact here
  · rintro ⟨rfl, among⟩
    have same : TreeMaps.add first map = fields.stored := by
      apply Std.ExtTreeMap.ext_getElem?
      intro field
      rw [found]
      cases held : map[field]? with
      | none => rfl
      | some value => exact (among field value held).symm
    exact ⟨same, lists', by rw [same]; exact lists'⟩

section RoundTrip

variable {σ δ : Type} {server : Server σ} {docs : Documented server δ} [Doubles]

/-- For every client of a server with these promises, every hash with a field that is written to an
absent key, and everything that the containers held before: what is read back is the hash if and
only if the vector was empty and the map held nothing but entries of the hash. -/
theorem hgetall_readsBack_iff (laws : StoredHashes docs) {chosen : Int32} {data : δ}
    {r r₁ r₂ r₃ : Redis2 (Endpoint server)} (holds : Holds docs chosen data r) {key : Bytes}
    (isAbsent : laws.absent data chosen key) {fields : Fields}
    (few : (fields.command key).args.length + 1 < 2 ^ 31)
    (writes : fields.hmset r key = .ok (true, (), r₁)) {map map' : StringMap}
    (readsMap : OldStyle.hgetallMap r₁ key (some map) = .ok (true, some map', r₂))
    {pairs pairs' : List (Bytes × Bytes)}
    (readsPairs : OldStyle.hgetallPairs r₂ key (some pairs) = .ok (true, some pairs', r₃)) :
    ReadsBack fields map' pairs' ↔
      pairs = [] ∧ ∀ (field value : Bytes), map[field]? = some value →
        fields.stored[field]? = some value := by
  rw [Fields.hmset_eq] at writes
  obtain ⟨data', holds₁, hash⟩ := holds.hmset_stores laws isAbsent few
    (OldStyle.hmsetPairs_returns writes)
  rw [Fields.ofPairs_entries] at hash
  obtain ⟨mb, calls, adds⟩ := OldStyle.hgetall_returns readsMap
  obtain ⟨holds₂, first, rfl, lists⟩ := holds₁.hgetall_lists laws calls
  obtain ⟨mb', calls', adds'⟩ := OldStyle.hgetall_returns readsPairs
  obtain ⟨-, second, rfl, lists'⟩ := holds₂.hgetall_lists laws calls'
  rw [hash] at lists lists'
  rw [OldStyle.addEach_entries] at adds adds'
  have isMap : TreeMaps.add first map = map' := Except.ok.inj adds
  have arePairs : pairs ++ second = pairs' := by
    rw [← Except.ok.inj adds', List.foldl_append_eq_append, ← List.flatMap_def]
    exact congrArg (pairs ++ ·) (List.flatMap_singleton' second).symm
  rw [← isMap, ← arePairs]
  exact readsBack_iff lists lists' map pairs

end RoundTrip

/-- The pairs of a request. -/
def pairsOf : List Bytes → List (Bytes × Bytes)
  | field :: value :: rest => (field, value) :: pairsOf rest
  | _ => []

/-- They are those that were written in turn. -/
theorem pairsOf_fieldsAndValues (pairs : List (Bytes × Bytes)) :
    pairsOf (fieldsAndValues pairs) = pairs := by
  induction pairs with
  | nil => rfl
  | cons pair rest ih => rw [fieldsAndValues_cons, pairsOf, ih]

/-- The hash at a key of a table. -/
def hashAt (data : List (Bytes × StringMap)) (key : Bytes) : StringMap := (data.lookup key).getD ∅

/-- A server that holds a table of hashes and knows HMSET and HGETALL only. -/
def hashRules : TableRules (List (Bytes × StringMap)) where
  answer data args :=
    if commandOf args = .hmset then .status (ascii "OK")
    else if commandOf args = .hgetall then
      .array ((fieldsAndValues (hashAt data (args.getD 1 [])).toList).map Reply.bulk)
    else .error (ascii "ERR")
  next data args :=
    let key := args.getD 1 []
    if commandOf args = .hmset then
      (key, TreeMaps.store (pairsOf (args.drop 2)) (hashAt data key)) :: data
    else data
  wellFormed data args := by
    split_ifs
    · exact .status (by decide)
    · refine .array fun reply member => ?_
      obtain ⟨bytes, -, rfl⟩ := List.mem_map.mp member
      exact .bulk bytes
    · exact .error (by decide)
  flat data args named := by
    rcases named with named | named | named <;> simp [named, IsArray]
  reads data args named := by
    have other : commandOf args ≠ .hmset := by
      intro hmset
      rw [hmset] at named
      rcases named with reads | wrong
      · cases reads
      · cases wrong
    exact if_neg other

/-- It keeps the promises. -/
def hashLaws : StoredHashes hashRules.docs where
  absent data _ key := data.lookup key = none
  hash data _ key := hashAt data key
  hmset state args named key pairs asks isAbsent stored := by
    obtain ⟨name, rest, rfl⟩ : ∃ name rest, args = name :: rest := by
      cases args with
      | nil => cases asks
      | cons name rest => exact ⟨name, rest, rfl⟩
    have other : commandOf (name :: rest) ≠ .select := by
      rw [named]
      decide
    have none : state.data.lookup key = none := isAbsent
    have tail : rest = key :: fieldsAndValues pairs := asks
    have nothing : hashAt state.data key = ∅ := by
      rw [hashAt, none]
      rfl
    subst tail
    rw [hashRules.handle_other state other]
    simp only [hashRules, TableRules.docs, if_pos named]
    change hashAt ((key, TreeMaps.store (pairsOf (fieldsAndValues pairs))
      (hashAt state.data key)) :: state.data) key = _
    rw [pairsOf_fieldsAndValues, nothing, hashAt, List.lookup_cons_self]
    rfl
  hgetall state args named key asks elements lists := by
    obtain ⟨name, rest, rfl⟩ : ∃ name rest, args = name :: rest := by
      cases args with
      | nil => cases asks
      | cons name rest => exact ⟨name, rest, rfl⟩
    have other : commandOf (name :: rest) ≠ .select := by
      rw [named]
      decide
    have tail : rest = [key] := asks
    subst tail
    rw [hashRules.handle_other state other] at lists
    have notHmset : commandOf [name, key] ≠ .hmset := by
      rw [named]
      decide
    simp only [hashRules, if_neg notHmset, if_pos named, Reply.array.injEq] at lists
    exact ⟨(hashAt state.data key).toList, lists.symm, List.Perm.refl _⟩

/-- `hmset`, then `hgetall` into a map and into a vector. -/
def roundTrip {κ : Type} [KeepsError κ] (client : κ) (key : Bytes) (fields : Fields)
    (map : StringMap) (pairs : List (Bytes × Bytes)) :
    Except Abort ((Bool × Bool × Bool) × Option StringMap × Option (List (Bytes × Bytes))) := do
  let (stored, _, client) ← fields.hmset client key
  let (readMap, map, client) ← OldStyle.hgetallMap client key (some map)
  let (readPairs, pairs, _) ← OldStyle.hgetallPairs client key (some pairs)
  return ((stored, readMap, readPairs), map, pairs)

/-- The three calls of a round trip in which all return true. -/
theorem roundTrip_returns {κ : Type} [KeepsError κ] {client : κ} {key : Bytes} {fields : Fields}
    {map map' : StringMap} {pairs pairs' : List (Bytes × Bytes)}
    (returns : roundTrip client key fields map pairs =
      .ok ((true, true, true), some map', some pairs')) :
    ∃ client₁ client₂ client₃, fields.hmset client key = .ok (true, (), client₁) ∧
      OldStyle.hgetallMap client₁ key (some map) = .ok (true, some map', client₂) ∧
      OldStyle.hgetallPairs client₂ key (some pairs) = .ok (true, some pairs', client₃) := by
  obtain ⟨⟨stored, nothing, client₁⟩, writes, goesOn⟩ := bind_returns returns
  obtain ⟨⟨readMap, container, client₂⟩, readsMap, goesOn⟩ := bind_returns goesOn
  obtain ⟨⟨readPairs, container', client₃⟩, readsPairs, same⟩ := bind_returns goesOn
  cases same
  exact ⟨client₁, client₂, client₃, writes, readsMap, readsPairs⟩

/-- A client of such a server, which has no hash yet. -/
def hashClient : Redis2 (Endpoint hashRules.server) :=
  Redis2.new (ascii "localhost") (ascii "6379") 0 1000 (.start ⟨[], 0, [], []⟩ [])

/-- It has chosen the first database. -/
theorem hashClient_holds : Holds hashRules.docs 0 [] hashClient :=
  ⟨Redis2.new_tracks hashRules.docs.toDatabases (ascii "localhost") (ascii "6379") 0 1000 rfl, rfl⟩

/-- A round trip of a client of this server, from what is seen of it. -/
theorem roundTrip_of_view [Doubles] {fields : Fields} {map : StringMap}
    {pairs entries pairs' : List (Bytes × Bytes)}
    (shows : (roundTrip hashClient (ascii "h") fields map pairs).toOption.map
      (fun out => if out.1 = (true, true, true) then
        [out.2.1.map Std.ExtTreeMap.toList, out.2.2] else []) =
        some [some entries, some pairs']) :
    ∃ map' : StringMap, map'.toList = entries ∧ roundTrip hashClient (ascii "h") fields map pairs =
      .ok ((true, true, true), some map', some pairs') := by
  obtain ⟨⟨returned, container, container'⟩, performs, seen⟩ := Option.map_eq_some_iff.mp shows
  split_ifs at seen with all
  obtain rfl := all
  obtain ⟨lists, rest⟩ := List.cons.inj seen
  obtain rfl := List.singleton_inj.mp rest
  obtain ⟨map', rfl, same⟩ := Option.map_eq_some_iff.mp lists
  exact ⟨map', same, returned_of_toOption performs⟩

/-- Three pairs, two of them for one field. -/
def somePairs : Fields :=
  .pairs [(ascii "f", ascii "old"), (ascii "g", ascii "w"), (ascii "f", ascii "new")]

/-- They are read back into empty containers. -/
theorem hgetall_readsBack_iff_empty : ∃ (_ : Doubles)
    (client₁ client₂ client₃ : Redis2 (Endpoint hashRules.server)) (map' : StringMap)
    (pairs' : List (Bytes × Bytes)),
    somePairs.hmset hashClient (ascii "h") = .ok (true, (), client₁) ∧
      OldStyle.hgetallMap client₁ (ascii "h") (some ∅) = .ok (true, some map', client₂) ∧
      OldStyle.hgetallPairs client₂ (ascii "h") (some []) = .ok (true, some pairs', client₃) ∧
      pairs' = [(ascii "f", ascii "new"), (ascii "g", ascii "w")] ∧
        ReadsBack somePairs map' pairs' := by
  let doubles : Doubles := ⟨fun _ => [], fun _ => none⟩
  have shows : (roundTrip hashClient (ascii "h") somePairs ∅ []).toOption.map
      (fun out => if out.1 = (true, true, true) then
        [out.2.1.map Std.ExtTreeMap.toList, out.2.2] else []) =
        some [some [(ascii "f", ascii "new"), (ascii "g", ascii "w")],
          some [(ascii "f", ascii "new"), (ascii "g", ascii "w")]] := by decide +kernel
  obtain ⟨map', -, returns⟩ := roundTrip_of_view shows
  obtain ⟨client₁, client₂, client₃, writes, readsMap, readsPairs⟩ := roundTrip_returns returns
  have few : (somePairs.command (ascii "h")).args.length + 1 < 2 ^ 31 := by decide
  have reads := hgetall_readsBack_iff hashLaws hashClient_holds rfl few writes readsMap
    readsPairs
  refine ⟨doubles, client₁, client₂, client₃, map', _, writes, readsMap, readsPairs, rfl,
    reads.mpr ⟨rfl, ?_⟩⟩
  intro field value held
  simp at held

/-- A map keeps the value that it has, and a vector keeps its pairs. -/
theorem hgetall_keeps_old : ∃ (_ : Doubles)
    (client₁ client₂ client₃ : Redis2 (Endpoint hashRules.server)) (map' : StringMap)
    (pairs' : List (Bytes × Bytes)),
    somePairs.hmset hashClient (ascii "h") = .ok (true, (), client₁) ∧
      OldStyle.hgetallMap client₁ (ascii "h") (some (StringMap.ofPairs [(ascii "f", ascii "x")])) =
        .ok (true, some map', client₂) ∧
      OldStyle.hgetallPairs client₂ (ascii "h") (some [(ascii "f", ascii "x")]) =
        .ok (true, some pairs', client₃) ∧
      map' ≠ somePairs.stored ∧ ¬ pairs'.Perm somePairs.stored.toList ∧
        ¬ pairs'.Perm map'.toList := by
  let doubles : Doubles := ⟨fun _ => [], fun _ => none⟩
  have shows : (roundTrip hashClient (ascii "h") somePairs
      (StringMap.ofPairs [(ascii "f", ascii "x")]) [(ascii "f", ascii "x")]).toOption.map
        (fun out => if out.1 = (true, true, true) then
        [out.2.1.map Std.ExtTreeMap.toList, out.2.2] else []) =
          some [some [(ascii "f", ascii "x"), (ascii "g", ascii "w")],
            some [(ascii "f", ascii "x"), (ascii "f", ascii "new"), (ascii "g", ascii "w")]] := by
    decide +kernel
  obtain ⟨map', lists, returns⟩ := roundTrip_of_view shows
  obtain ⟨client₁, client₂, client₃, writes, readsMap, readsPairs⟩ := roundTrip_returns returns
  have stored : somePairs.stored.toList = [(ascii "f", ascii "new"), (ascii "g", ascii "w")] := by
    decide +kernel
  refine ⟨doubles, client₁, client₂, client₃, map', _, writes, readsMap, readsPairs, ?_, ?_, ?_⟩
  · intro same
    rw [same, stored] at lists
    revert lists
    decide
  · intro perm
    rw [stored] at perm
    have length := perm.length_eq
    simp at length
  · intro perm
    rw [lists] at perm
    have length := perm.length_eq
    simp at length

end LibRedis
