import LibRedis.OneServerMethods
import LibRedis.PartitionedServers

/-!
# A client for one server as one map

Over a server that keeps strings the client for one server is one for a map too, with one command
where the client for several servers sends one for each key. So programs that are written for the
interface of a map cannot tell the two apart: where the calls that write return true, and both return
from a call, they return the same.
-/

namespace LibRedis

open Decimal (ascii)
open Resp (Reply)
open RedisProtocol (commandText requestOf)
open Shards (Lists storeAll removeAll countLive)
open Redis2P (readsMap ReturnsOrFails)

variable {σ δ : Type} {server : Server σ}

/-- A server that keeps strings under keys, and knows the commands about several of them. -/
structure ManyStrings [Doubles] (docs : Documented server δ) extends Strings docs where
  /-- MSET stores all values. -/
  mset (keys values : List Bytes) (equal : keys.length = values.length) :
    Applies docs value (withKeys .mset [] (interleave keys values)) (fun _ => .status (ascii "OK"))
      fun map => storeAll map (keys.zip values)
  /-- MGET tells all values. -/
  mget (keys : List Bytes) : Applies docs value (withKeys .mget [] keys)
    (fun map => .array (keys.map fun key => (map key).elim .nilBulk .bulk)) id
  /-- DEL removes all keys and counts those that were there. -/
  delKeys (keys : List Bytes) : Applies docs value (withKeys .del [] keys)
    (fun map => .integer (countLive map keys)) fun map => removeAll map keys

/-- The command that the client for one server sends in a call. -/
def MapCall.command : MapCall → RedisCommand
  | .set key value => (keyed .set key).pushArg value
  | .mset stored values => withKeys .mset [] (interleave stored values)
  | .get key => keyed .get key
  | .mget asked => withKeys .mget [] asked
  | .exists key => keyed .exists key
  | .del key => keyed .del key
  | .delKeys removed => withKeys .del [] removed
  | .keys pattern => (RedisCommand.new .keys).pushArg pattern

namespace Redis2

variable [Doubles]

/-- A call of the client for one server. -/
def performCall {π : Type} [Peer π] (r : Redis2 π) :
    MapCall → Except Abort (Option MapResult × Redis2 π)
  | .set key value => (r.set key value).map fun (out, r) => (out.map fun _ => .done, r)
  | .mset keys values => (r.mset keys values).map fun (out, r) => (out.map fun _ => .done, r)
  | .get key => (r.get key).map fun (out, r) => (out.map .value, r)
  | .mget keys => (r.mget keys).map fun (out, r) => (out.map .values, r)
  | .exists key => (r.exists_ key).map fun (out, r) => (out.map .count, r)
  | .del key => (r.del key).map fun (out, r) => (out.map .count, r)
  | .delKeys keys => (r.delKeys keys).map fun (out, r) => (out.map .count, r)
  | .keys pattern => (r.keys pattern).map fun (out, r) => (out.map .values, r)

variable {docs : Documented server δ}

/-- A method of a client for a map, whose request tells and leaves this. -/
theorem method_leaves (strings : Strings docs) {chosen : Int32} {map : Bytes → Option Bytes}
    {r r' : Redis2 (Endpoint server)} (held : (strings.clients chosen).holds r map) {c : RedisCommand}
    (small : (commandText c).length < 2 ^ 31) (isData : c.command.isData = true)
    {tells : (Bytes → Option Bytes) → Reply} {leaves : (Bytes → Option Bytes) → Bytes → Option Bytes}
    (law : Applies docs strings.value c tells leaves) {α : Type} {take : RedisOutput → Option α}
    {out : Option α} (returns : r.method c take = .ok (out, r')) :
    (out = none ∧ (strings.clients chosen).holds r' map) ∨
      ((strings.clients chosen).holds r' (leaves map) ∧ ∀ outputs, out = some outputs →
        take (denoteAs c.commandInfo.replyType (tells map)) = some outputs) := by
  obtain ⟨data, holds, rfl⟩ := held
  obtain ⟨data', holds', ⟨fails, same⟩ | ⟨applied, answers⟩⟩ :=
    strings.method holds small isData law returns
  · exact Or.inl ⟨fails, data', holds', same⟩
  · exact Or.inr ⟨⟨data', holds', applied⟩, answers⟩

omit [Doubles] in
/-- A call that leaves the map and fails, or leaves what it may return, and succeeds if it writes. -/
theorem returnsOrFails_of {isMatch : Bytes → Bytes → Bool} {holds : (Bytes → Option Bytes) → Prop}
    {map after : Bytes → Option Bytes} {call : MapCall} {α : Type} {out : Option α}
    {make : α → MapResult}
    (does : (out = none ∧ holds map) ∨ (holds after ∧ ∀ outputs, out = some outputs →
      Returns isMatch map call (make outputs) after))
    (reads : readsMap call = true → after = map)
    (succeeds : readsMap call = true ∨ (out.map make).isSome) :
    ∃ map', holds map' ∧ ReturnsOrFails isMatch map (call, out.map make) map' := by
  cases out with
  | none =>
    have only : readsMap call = true := by simpa using succeeds
    rcases does with ⟨-, held⟩ | ⟨held, -⟩
    · exact ⟨map, held, only, rfl⟩
    · exact ⟨after, held, only, reads only⟩
  | some outputs =>
    rcases does with ⟨wrong, -⟩ | ⟨held, shows⟩
    · cases wrong
    · exact ⟨after, held, shows outputs rfl⟩

omit [Doubles] in
/-- The values that MGET tells are the strings. -/
theorem takeMbulks_strings (map : Bytes → Option Bytes) (keys : List Bytes) :
    (denoteAs .multiBulk (.array (keys.map fun key => (map key).elim .nilBulk .bulk))).takeMbulks =
      some (keys.map map) := by
  have each (key : Bytes) : bulkOf ((map key).elim .nilBulk .bulk) = map key := by
    cases map key <;> rfl
  simp [denoteAs, RedisOutput.takeMbulks, Function.comp_def, each]

/-- A call keeps the client one for a map, and returns what the map returns; it may fail if it only
reads. -/
theorem performCall_returns (many : ManyStrings docs) {chosen : Int32} {map : Bytes → Option Bytes}
    {r r' : Redis2 (Endpoint server)} (held : (many.clients chosen).holds r map) {call : MapCall}
    (small : (commandText call.command).length < 2 ^ 31) {result : Option MapResult}
    (returns : r.performCall call = .ok (result, r'))
    (succeeds : readsMap call = true ∨ result.isSome) :
    ∃ map', (many.clients chosen).holds r' map' ∧
      ReturnsOrFails many.isMatch map (call, result) map' := by
  cases call with
  | set key value =>
    obtain ⟨⟨out, r₁⟩, sets, same⟩ := map_returns returns
    cases same
    refine returnsOrFails_of
      (((many.clients chosen).call held (m := .set value) small rfl sets).imp_right
        fun does => ⟨does.1, fun _ _ => ⟨rfl, rfl⟩⟩) (by simp [readsMap]) succeeds
  | mset keys values =>
    obtain ⟨⟨out, r₁⟩, sets, same⟩ := map_returns returns
    cases same
    unfold mset checkExpr at sets
    split_ifs at sets with equal
    · have law := many.mset keys values (by simpa using equal)
      exact returnsOrFails_of ((method_leaves many.toStrings held small rfl law sets).imp_right
        fun does => ⟨does.1, fun _ _ => ⟨rfl, rfl⟩⟩) (by simp [readsMap]) succeeds
    · cases sets
      rcases succeeds with wrong | wrong
      · cases wrong
      · cases wrong
  | get key =>
    obtain ⟨⟨out, r₁⟩, gets, same⟩ := map_returns returns
    cases same
    refine returnsOrFails_of (((many.clients chosen).call held (m := .get) small rfl gets).imp_right
      fun does => ⟨does.1, fun outputs same => ?_⟩) (fun _ => Function.update_eq_self _ _) succeeds
    exact ⟨congrArg _ (does.2 outputs same), Function.update_eq_self _ _⟩
  | mget keys =>
    obtain ⟨⟨out, r₁⟩, gets, same⟩ := map_returns returns
    cases same
    refine returnsOrFails_of ((method_leaves many.toStrings held small rfl (many.mget keys)
      gets).imp_right fun does => ⟨does.1, fun outputs same => ⟨?_, rfl⟩⟩) (fun _ => rfl) succeeds
    have taken := (takeMbulks_strings map keys).symm.trans (does.2 outputs same)
    exact congrArg MapResult.values (Option.some.inj taken).symm
  | «exists» key =>
    obtain ⟨⟨out, r₁⟩, asks, same⟩ := map_returns returns
    cases same
    refine returnsOrFails_of
      (((many.clients chosen).call held (m := .exists) small rfl asks).imp_right
        fun does => ⟨does.1, fun outputs same => ?_⟩) (fun _ => Function.update_eq_self _ _) succeeds
    exact ⟨congrArg _ (does.2 outputs same), Function.update_eq_self _ _⟩
  | del key =>
    obtain ⟨⟨out, r₁⟩, deletes, same⟩ := map_returns returns
    cases same
    refine returnsOrFails_of
      (((many.clients chosen).call held (m := .del) small rfl deletes).imp_right
        fun does => ⟨does.1, fun outputs same => ⟨?_, rfl⟩⟩) (by simp [readsMap]) succeeds
    exact congrArg _ (does.2 outputs same)
  | delKeys keys =>
    obtain ⟨⟨out, r₁⟩, deletes, same⟩ := map_returns returns
    cases same
    refine returnsOrFails_of ((method_leaves many.toStrings held small rfl (many.delKeys keys)
      deletes).imp_right fun does => ⟨does.1, fun outputs same => ⟨?_, rfl⟩⟩) (by simp [readsMap])
      succeeds
    have taken : some (countLive map keys : Int) = some outputs := does.2 outputs same
    exact congrArg MapResult.count (Option.some.inj taken).symm
  | keys pattern =>
    obtain ⟨⟨out, r₁⟩, asks, same⟩ := map_returns returns
    cases same
    obtain ⟨held', answers⟩ := (many.clients chosen).keys held small asks
    refine returnsOrFails_of (Or.inr ⟨held', fun values same => ⟨rfl, ?_⟩⟩) (fun _ => rfl) succeeds
    obtain ⟨found, rfl, lists⟩ := answers values same
    exact ⟨found, rfl, lists⟩

/-- A call with its result. -/
def Performs (r : Redis2 (Endpoint server)) (label : MapCall × Option MapResult)
    (r' : Redis2 (Endpoint server)) : Prop :=
  (commandText label.1.command).length < 2 ^ 31 ∧ r.performCall label.1 = .ok (label.2, r')

/-- In every run of a new client where the calls that write succeed, the results are those of one
map. -/
theorem run_of_new (many : ManyStrings docs) (host port : Bytes) (dbIndex : Int32) (timeout : Int)
    {os : Os (Endpoint server)} (silent : os.incoming = []) {map : Bytes → Option Bytes}
    (value : many.value (docs.data (new host port dbIndex timeout os).serverState) dbIndex = map)
    {labels : List (MapCall × Option MapResult)} {r' : Redis2 (Endpoint server)}
    (run : Simulation.Run Performs (new host port dbIndex timeout os) labels r')
    (succeed : ∀ label ∈ labels, readsMap label.1 = true ∨ label.2.isSome) :
    ∃ map', Simulation.Run (ReturnsOrFails many.isMatch) map labels map' := by
  have held : (many.clients dbIndex).holds (new host port dbIndex timeout os) map :=
    ⟨_, ⟨new_tracks docs.toDatabases host port dbIndex timeout silent, rfl⟩, value⟩
  clear value silent
  generalize new host port dbIndex timeout os = r at run held
  induction run generalizing map with
  | done => exact ⟨map, .done map⟩
  | @step r label r₁ labels r' head tail ih =>
    obtain ⟨map₁, held₁, returns⟩ :=
      performCall_returns many held head.1 head.2 (succeed _ List.mem_cons_self)
    obtain ⟨map', behind⟩ := ih (fun later member => succeed later (List.mem_cons_of_mem _ member))
      held₁
    exact ⟨map', .step returns behind⟩

end Redis2

section Agreement

variable {isMatch : Bytes → Bytes → Bool} {map left right : Bytes → Option Bytes}

/-- What a call leaves of a map. -/
def MapCall.leaves (map : Bytes → Option Bytes) : MapCall → Bytes → Option Bytes
  | .set key value => Function.update map key (some value)
  | .mset stored values => storeAll map (stored.zip values)
  | .del key => Function.update map key none
  | .delKeys removed => removeAll map removed
  | _ => map

/-- It leaves this, whether it fails or not. -/
theorem Redis2P.ReturnsOrFails.leaves {label : MapCall × Option MapResult}
    (returns : ReturnsOrFails isMatch map label left) : left = label.1.leaves map := by
  obtain ⟨call, result⟩ := label
  cases result with
  | none =>
    obtain ⟨reads, rfl⟩ := returns
    cases call <;> first | rfl | cases reads
  | some result =>
    cases call with
    | keys pattern => exact returns.1
    | _ => exact returns.2

/-- Two results of a call are the same, but keys may be listed in another order. -/
def MapCall.Agree (call : MapCall) (first second : MapResult) : Prop :=
  match call with
  | .keys _ => ∃ found others : List Bytes, first = .values (found.map some) ∧
      second = .values (others.map some) ∧ found.Perm others
  | _ => first = second

/-- Two results of a call on one map agree. -/
theorem Returns.agree {call : MapCall} {first second : MapResult}
    (returns : Returns isMatch map call first left)
    (returnsToo : Returns isMatch map call second right) : call.Agree first second := by
  cases call with
  | keys pattern =>
    obtain ⟨-, found, shows, lists⟩ := returns
    obtain ⟨-, others, showsToo, listsToo⟩ := returnsToo
    refine ⟨found, others, shows, showsToo, ?_⟩
    refine (List.perm_ext_iff_of_nodup lists.nodup listsToo.nodup).mpr fun key => ?_
    rw [lists.mem_iff, listsToo.mem_iff]
  | _ => exact returns.1.trans returnsToo.1.symm

/-- The results of two runs of the same calls on one map agree where both return. -/
theorem Redis2P.ReturnsOrFails.runs_agree {labels labels' : List (MapCall × Option MapResult)}
    (run : Simulation.Run (ReturnsOrFails isMatch) map labels left)
    (runToo : Simulation.Run (ReturnsOrFails isMatch) map labels' right)
    (same : labels.map Prod.fst = labels'.map Prod.fst) :
    List.Forall₂ (fun label label' => ∀ first second, label.2 = some first →
      label'.2 = some second → label.1.Agree first second) labels labels' := by
  induction run generalizing labels' with
  | done =>
    obtain rfl : labels' = [] := by simpa using same.symm
    exact .nil
  | step head tail ih =>
    cases runToo with
    | done => cases same
    | step headToo tailToo =>
      obtain ⟨sameCall, behind⟩ := List.cons.inj same
      have left := head.leaves
      rw [sameCall, ← headToo.leaves] at left
      refine .cons (fun first second shows showsToo => ?_) (ih (left ▸ tailToo) behind)
      rw [Redis2P.ReturnsOrFails, shows] at head
      rw [Redis2P.ReturnsOrFails, showsToo, ← sameCall] at headToo
      exact Returns.agree head headToo

end Agreement

/-- A program cannot tell a client for several servers from one for one server: in two runs of the
same calls, where the calls that write succeed and with whatever connections fail, both return the
same from every call that both return from. -/
theorem results_agree [Doubles] {σ' δ' : Type} {server' : Server σ'} {docs : Documented server δ}
    {docs' : Documented server' δ'} (strings : Strings docs) (many : ManyStrings docs')
    (alike : strings.isMatch = many.isMatch) {hostList portList : Bytes} {dbIndex : Int32}
    {timeoutMs : Int} {partitions : Int32} {hashFn : Bytes → UInt32}
    {newOs : Nat → Os (Endpoint server)} (silent : ∀ i, (newOs i).incoming = [])
    {p p' : Redis2P (Redis2 (Endpoint server))}
    (accepted : Redis2P.new hostList portList dbIndex timeoutMs partitions hashFn
      (fun i host port dbIndex timeoutMs => Redis2.new host port dbIndex timeoutMs (newOs i)) =
        .ok p) {map : Bytes → Option Bytes} (placed : Redis2P.Placed strings dbIndex map p)
    {host port : Bytes} {index : Int32} {timeout : Int} {os : Os (Endpoint server')}
    (silentToo : os.incoming = [])
    (value : many.value (docs'.data (Redis2.new host port index timeout os).serverState) index = map)
    {labels labels' : List (MapCall × Option MapResult)} {r' : Redis2 (Endpoint server')}
    (run : Simulation.Run (Redis2P.Performs (strings.clients dbIndex)) p labels p')
    (runToo : Simulation.Run Redis2.Performs (Redis2.new host port index timeout os) labels' r')
    (same : labels.map Prod.fst = labels'.map Prod.fst)
    (succeed : ∀ label ∈ labels, readsMap label.1 = true ∨ label.2.isSome)
    (succeedToo : ∀ label ∈ labels', readsMap label.1 = true ∨ label.2.isSome) :
    List.Forall₂ (fun label label' => ∀ first second, label.2 = some first →
      label'.2 = some second → label.1.Agree first second) labels labels' := by
  obtain ⟨known', candidates, -⟩ := (Redis2P.new_knows strings silent accepted placed).run run
  obtain ⟨left, returns⟩ := Redis2P.certain_run candidates succeed
  obtain ⟨right, returnsToo⟩ :=
    Redis2.run_of_new many host port index timeout silentToo value runToo succeedToo
  change Simulation.Run (ReturnsOrFails strings.isMatch) map labels left at returns
  rw [alike] at returns
  exact Redis2P.ReturnsOrFails.runs_agree returns returnsToo same

/-- Keys and values in turn are those pairs. -/
theorem pairsOf_interleave (keys values : List Bytes) :
    pairsOf (interleave keys values) = keys.zip values := by
  have same : interleave keys values = fieldsAndValues (keys.zip values) := by
    rw [fieldsAndValues, interleave, interleave, ← List.zip_of_prod rfl rfl]
  rw [same, pairsOf_fieldsAndValues]

/-- Strings are stored in a table one after the other. -/
theorem lookup_inserts (pairs : List (Bytes × Bytes)) (data : AList fun _ : Bytes => Bytes) :
    (AList.lookup · (pairs.foldl (fun data (key, value) => data.insert key value) data)) =
      storeAll (AList.lookup · data) pairs := by
  induction pairs generalizing data with
  | nil => rfl
  | cons pair rest ih =>
    refine (ih (data.insert pair.1 pair.2)).trans ?_
    rw [lookup_insert_eq]
    rfl

/-- Keys are removed from it one after the other. -/
theorem lookup_erases (keys : List Bytes) (data : AList fun _ : Bytes => Bytes) :
    (AList.lookup · (keys.foldl (fun data key => data.erase key) data)) =
      removeAll (AList.lookup · data) keys := by
  induction keys generalizing data with
  | nil => exact (Shards.removeAll_nil _).symm
  | cons key rest ih =>
    refine (ih (data.erase key)).trans ?_
    rw [lookup_erase_eq, Shards.removeAll_cons]

/-- The table of strings knows the commands about several keys. -/
def tableLaws [Doubles] : ManyStrings stringRules.docs where
  toStrings := stringLaws
  mset keys values equal := by
    have named : commandOf (requestOf (withKeys .mset [] (interleave keys values))) = .mset :=
      commandOf_requestOf rfl
    refine stringRules_applies rfl (fun data => by simp only [stringRules, named]; rfl)
      fun data found => ?_
    have writes : stringRules.next data (requestOf (withKeys .mset [] (interleave keys values))) =
        (keys.zip values).foldl (fun data (key, value) => data.insert key value) data := by
      rw [← pairsOf_interleave]
      simp only [stringRules, named]
      rfl
    rw [writes]
    exact congrFun (lookup_inserts (keys.zip values) data) found
  mget keys := by
    have named : commandOf (requestOf (withKeys .mget [] keys)) = .mget := commandOf_requestOf rfl
    refine stringRules_applies rfl (fun data => by simp only [stringRules, named]; rfl)
      fun data found => ?_
    simp only [stringRules, named]
    rfl
  delKeys keys := by
    have named : commandOf (requestOf (withKeys .del [] keys)) = .del := commandOf_requestOf rfl
    refine stringRules_applies rfl (fun data => by simp only [stringRules, named]; rfl)
      fun data found => ?_
    have writes : stringRules.next data (requestOf (withKeys .del [] keys)) =
        keys.foldl (fun data key => data.erase key) data := by
      simp only [stringRules, named]
      rfl
    rw [writes]
    exact congrFun (lookup_erases keys data) found

/-- A client for one server without a string, with these outcomes of the receive calls. -/
def emptyServer (recvs : List RecvOutcome) : Redis2 (Endpoint stringRules.server) :=
  Redis2.new (ascii "localhost") (ascii "6379") 0 1000 (.start ⟨[], 0, [], ∅⟩ recvs)

/-- The calls of a program. -/
def storing : List MapCall :=
  [.mset [ascii "k", ascii "l"] [ascii "v", ascii "w"], .mget [ascii "k", ascii "l"],
    .get (ascii "l"), .delKeys [ascii "l", ascii "k", ascii "l"]]

/-- They are short. -/
theorem storing_short [Doubles] : (∀ call ∈ storing,
    Redis2P.Fits (stringLaws.clients 0) call) ∧
      ∀ call ∈ storing, (commandText call.command).length < 2 ^ 31 := by
  have sets : ∀ pair ∈ [(ascii "k", ascii "v"), (ascii "l", ascii "w")],
      (commandText ((keyed .set pair.1).pushArg pair.2)).length < 2 ^ 31 := by decide +kernel
  have gets : ∀ key ∈ [ascii "k", ascii "l"], (commandText (keyed .get key)).length < 2 ^ 31 := by
    decide +kernel
  have deletes : ∀ key ∈ [ascii "l", ascii "k", ascii "l"],
      (commandText (keyed .del key)).length < 2 ^ 31 := by decide +kernel
  constructor
  · simp only [storing, List.forall_mem_cons]
    exact ⟨sets, gets, gets _ (by simp), deletes, by simp⟩
  · decide +kernel

/-- A read fails on either side where replies are late, and the others agree. -/
theorem results_agree_late : ∃ labels labels' : List (MapCall × Option MapResult),
    labels.map Prod.snd = [some .done, some (.values [some (ascii "v"), some (ascii "w")]), none,
        some (.count 2)] ∧
      labels'.map Prod.snd = [some .done, none, some (.value (some (ascii "w"))), some (.count 2)] ∧
      List.Forall₂ (fun label label' => ∀ first second, label.2 = some first →
        label'.2 = some second → label.1.Agree first second) labels labels' := by
  let doubles : Doubles := ⟨fun _ => [], fun _ => none⟩
  obtain ⟨made, last, accepted, run⟩ := @Redis2P.emptyServers_run doubles (ascii "a,b,c,d") 2
    (fun key => (key.headD 0).toUInt32)
    (fun i => if i = 2 then [.chunk 100, .chunk 100, .timeout]
      else if i = 0 then [.chunk 100, .timeout] else [])
    (storing.map ((⟨1, by decide⟩, ·)))
    [some .done, some (.values [some (ascii "v"), some (ascii "w")]), none, some (.count 2)]
    (List.forall_mem_map.mpr storing_short.1) (by decide +kernel)
  have shows : (Simulation.collect Redis2.performCall storing
      (emptyServer [.chunk 100, .timeout])).toOption.map (fun returned =>
        returned.1.map Prod.snd) =
      some [some .done, none, some (.value (some (ascii "w"))), some (.count 2)] := by
    decide +kernel
  obtain ⟨⟨labels', last'⟩, returns, seen⟩ := returned_of_view shows
  obtain ⟨runToo, names⟩ := Simulation.Run.of_collect returns
  have short : ∀ label ∈ labels', (commandText label.1.command).length < 2 ^ 31 := by
    intro label member
    exact storing_short.2 label.1 (names ▸ List.mem_map_of_mem member)
  have same : (storing.map ((⟨1, by decide⟩ : ThreadId), ·)).map Prod.snd = storing := rfl
  rw [same] at run
  obtain rfl := List.zip_of_prod names seen
  exact ⟨_, _, rfl, rfl, results_agree stringLaws tableLaws rfl (fun _ => rfl) accepted
    (Redis2P.emptyServers_placed accepted) rfl rfl run (runToo.and_label short) rfl
    (by simp [storing, readsMap]) (by simp [storing, readsMap])⟩

end LibRedis
