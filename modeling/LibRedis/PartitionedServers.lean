import LibRedis.FallibleMap
import LibRedis.HashRoundTrip
import LibRedis.ServerData
import LibRedis.TableServer

/-!
# One map over several servers

The clients for servers that keep strings are such clients, whatever becomes of their connections:
what they send is a request of bytes, and what they return is read from the bytes of a reply. So a
client for several servers is one for a map in every run, up to the calls that fail.
-/

namespace LibRedis

open Decimal (ascii)
open Resp (Reply)
open RedisProtocol (commandText requestOf)
open Shards (shard Lists)
open Candidates (only)

/-- The reply to a method about a key that does this to its value. -/
def KeyMethod.replyOf {α : Type} : KeyMethod α → α → Reply
  | .set _, () => .status (ascii "OK")
  | .get, value => value.elim .nilBulk .bulk
  | .exists, number => .integer number
  | .del, number => .integer number
  | _, _ => .nilBulk

/-- What a method of a map sends, and what it takes from its reply. -/
theorem Redis2.call_onValue [Doubles] {α : Type} {m : KeyMethod α}
    {effect : Option Bytes → α × Option Bytes} (isMap : m.onValue = some effect) (key : Bytes) :
    ∃ take : RedisOutput → Option α,
      (∀ (π : Type) [Peer π] (r : Redis2 π),
        RedisBase2.call r key m = r.method (m.command key) take) ∧
      ∀ out outputs, take (denoteAs (m.command key).commandInfo.replyType (m.replyOf out)) =
        some outputs → outputs = out := by
  cases m with
  | set value =>
    refine ⟨_, fun π _ r => rfl, ?_⟩
    rintro ⟨⟩ ⟨⟩ -
    rfl
  | get =>
    refine ⟨_, fun π _ r => rfl, ?_⟩
    intro out outputs takes
    cases out with
    | none =>
      cases takes
      rfl
    | some value =>
      cases takes
      rfl
  | «exists» =>
    refine ⟨_, fun π _ r => rfl, ?_⟩
    intro out outputs takes
    cases takes
    rfl
  | del =>
    refine ⟨_, fun π _ r => rfl, ?_⟩
    intro out outputs takes
    cases takes
    rfl
  | _ => cases isMap

variable {σ δ : Type} {server : Server σ}

/-- A server that keeps strings under keys. -/
structure Strings [Doubles] (docs : Documented server δ) where
  /-- The strings of a database. -/
  value : δ → Int32 → Bytes → Option Bytes
  /-- Whether a key matches a pattern. -/
  isMatch : Bytes → Bytes → Bool
  /-- A request about a key is applied and answered, or it is answered by an error. -/
  call (state : σ) (key : Bytes) {α : Type} {m : KeyMethod α}
    {effect : Option Bytes → α × Option Bytes} (isMap : m.onValue = some effect) :
    ((∃ text, (server.handle state (requestOf (m.command key))).1 = .error text) ∧
      value (docs.data (server.handle state (requestOf (m.command key))).2) (docs.db state) =
        value (docs.data state) (docs.db state)) ∨
    ((server.handle state (requestOf (m.command key))).1 =
        m.replyOf (effect (value (docs.data state) (docs.db state) key)).1 ∧
      value (docs.data (server.handle state (requestOf (m.command key))).2) (docs.db state) =
        Function.update (value (docs.data state) (docs.db state)) key
          (effect (value (docs.data state) (docs.db state) key)).2)
  /-- KEYS lists the keys that match, or it is answered by an error. -/
  keys (state : σ) (pattern : Bytes) :
    (∃ text, (server.handle state (requestOf ⟨.keys, [pattern], .none⟩)).1 = .error text) ∨
    ∃ found : List Bytes,
      (server.handle state (requestOf ⟨.keys, [pattern], .none⟩)).1 = .array (found.map .bulk) ∧
      Lists found fun key =>
        (value (docs.data state) (docs.db state) key).isSome ∧ isMatch pattern key

/-- No error is accepted. -/
theorem Accepts.not_error {type : ReplyType} {text : Bytes} (accepts : Accepts type (.error text)) :
    False := by
  have readable := accepts.readable
  cases readable

variable [Doubles] {docs : Documented server δ}

/-- A request tells and leaves this of the strings, or it is answered by an error and leaves them. -/
def Applies (docs : Documented server δ) (value : δ → Int32 → Bytes → Option Bytes)
    (c : RedisCommand) (tells : (Bytes → Option Bytes) → Reply)
    (leaves : (Bytes → Option Bytes) → Bytes → Option Bytes) : Prop :=
  ∀ state, ((∃ text, (server.handle state (requestOf c)).1 = .error text) ∧
      value (docs.data (server.handle state (requestOf c)).2) (docs.db state) =
        value (docs.data state) (docs.db state)) ∨
    ((server.handle state (requestOf c)).1 = tells (value (docs.data state) (docs.db state)) ∧
      value (docs.data (server.handle state (requestOf c)).2) (docs.db state) =
        leaves (value (docs.data state) (docs.db state)))

/-- A method leaves the strings and fails, or it leaves what its request leaves, and returns what it
takes from its reply. -/
theorem Strings.method (strings : Strings docs) {chosen : Int32} {data : δ}
    {r r' : Redis2 (Endpoint server)} (holds : Redis2.Holds docs chosen data r) {c : RedisCommand}
    (small : (commandText c).length < 2 ^ 31) (isData : c.command.isData = true)
    {tells : (Bytes → Option Bytes) → Reply} {leaves : (Bytes → Option Bytes) → Bytes → Option Bytes}
    (law : Applies docs strings.value c tells leaves)
    {α : Type} {take : RedisOutput → Option α} {out : Option α}
    (returns : r.method c take = .ok (out, r')) :
    ∃ data', Redis2.Holds docs chosen data' r' ∧
      ((out = none ∧ strings.value data' chosen = strings.value data chosen) ∨
      (strings.value data' chosen = leaves (strings.value data chosen) ∧
        ∀ outputs, out = some outputs →
          take (denoteAs c.commandInfo.replyType (tells (strings.value data chosen))) =
            some outputs)) := by
  obtain ⟨tracks, ⟨fails, kept⟩ | ⟨state, kept, db, next, answers⟩⟩ :=
    holds.method small isData returns
  · exact ⟨data, ⟨tracks, kept⟩, Or.inl ⟨fails, rfl⟩⟩
  · refine ⟨docs.data r'.serverState, ⟨tracks, rfl⟩, ?_⟩
    have handled := law state
    rw [kept, db] at handled
    rcases handled with ⟨⟨text, error⟩, same⟩ | ⟨reply, applied⟩
    · refine Or.inl ⟨?_, ?_⟩
      · cases out with
        | none => rfl
        | some outputs =>
          have accepts := (answers outputs rfl).1
          rw [error] at accepts
          exact accepts.not_error.elim
      · rw [next]
        exact same
    · refine Or.inr ⟨?_, fun outputs same => ?_⟩
      · rw [next]
        exact applied
      · rw [← reply]
        exact (answers outputs same).2

/-- The clients of such servers hold maps, whatever becomes of their connections. -/
def Strings.clients (strings : Strings docs) (chosen : Int32) :
    FallibleValue (Redis2 (Endpoint server)) where
  isMatch := strings.isMatch
  fits key m := (commandText (m.command key)).length < 2 ^ 31
  fitsPattern pattern := (commandText ⟨.keys, [pattern], .none⟩).length < 2 ^ 31
  holds client map := ∃ data, Redis2.Holds docs chosen data client ∧ strings.value data chosen = map
  call {α client client' map} held key m short effect isMap out calls := by
    obtain ⟨data, holds, rfl⟩ := held
    obtain ⟨take, sends, takes⟩ := Redis2.call_onValue isMap key
    rw [sends] at calls
    have law : Applies docs strings.value (m.command key) (fun map => m.replyOf (effect (map key)).1)
        fun map => Function.update map key (effect (map key)).2 :=
      fun state => strings.call state key isMap
    obtain ⟨data', holds', ⟨fails, same⟩ | ⟨applied, answers⟩⟩ :=
      strings.method holds short m.isData_name law calls
    · exact Or.inl ⟨fails, data', holds', same⟩
    · exact Or.inr ⟨⟨data', holds', applied⟩, fun outputs same => takes _ _ (answers outputs same)⟩
  keys {client client' map} held pattern short out calls := by
    obtain ⟨data, holds, rfl⟩ := held
    refine ⟨⟨data, holds.keys short calls, rfl⟩, fun values same => ?_⟩
    subst same
    obtain ⟨-, ⟨wrong, -⟩ | ⟨state, kept, db, -, answers⟩⟩ := holds.method short rfl calls
    · cases wrong
    · obtain ⟨accepts, taken⟩ := answers values rfl
      have handled := strings.keys state pattern
      rw [kept, db] at handled
      rcases handled with ⟨text, error⟩ | ⟨found, reply, lists⟩
      · rw [error] at accepts
        exact accepts.not_error.elim
      · refine ⟨found, ?_, lists⟩
        rw [reply] at taken
        have listed : some ((found.map Reply.bulk).map bulkOf) = some values := taken
        rw [List.map_map] at listed
        exact (Option.some.inj listed).symm

namespace Redis2P

variable {p p' : Redis2P (Redis2 (Endpoint server))}

/-- Every server has the shard of its host, in the database that the clients choose. -/
def Placed (strings : Strings docs) (dbIndex : Int32) (map : Bytes → Option Bytes)
    (p : Redis2P (Redis2 (Endpoint server))) : Prop :=
  p.Clients fun i client => strings.value (docs.data client.serverState) dbIndex =
    shard p.getKeyHostIndex map (i % p.hostNum)

/-- A new client for several servers knows the map that is placed there. -/
theorem new_knows (strings : Strings docs) {hostList portList : Bytes} {dbIndex : Int32}
    {timeoutMs : Int} {partitions : Int32} {hashFn : Bytes → UInt32}
    {newOs : Nat → Os (Endpoint server)} (silent : ∀ i, (newOs i).incoming = [])
    (accepted : new hostList portList dbIndex timeoutMs partitions hashFn
      (fun i host port dbIndex timeoutMs => Redis2.new host port dbIndex timeoutMs (newOs i)) =
        .ok p) {map : Bytes → Option Bytes} (placed : Placed strings dbIndex map p) :
    Knows (strings.clients dbIndex) p (only map) := by
  obtain ⟨configured, made⟩ := new_configured accepted
  refine ⟨configured, fun i client found => ⟨map, Candidates.within_only map, ?_⟩⟩
  have value := placed i client found
  obtain ⟨host, port, rfl⟩ := made i client found
  exact ⟨_, ⟨Redis2.new_tracks docs.toDatabases host port dbIndex timeoutMs (silent i), rfl⟩, value⟩

/-- In every run over servers that keep strings, with whatever connections fail, what a call returns
is what one of the candidates has: a key has the value of the last write that succeeded, or of one
that has failed since. -/
theorem results_of_candidates (strings : Strings docs) {hostList portList : Bytes} {dbIndex : Int32}
    {timeoutMs : Int} {partitions : Int32} {hashFn : Bytes → UInt32}
    {newOs : Nat → Os (Endpoint server)} (silent : ∀ i, (newOs i).incoming = [])
    (accepted : new hostList portList dbIndex timeoutMs partitions hashFn
      (fun i host port dbIndex timeoutMs => Redis2.new host port dbIndex timeoutMs (newOs i)) =
        .ok p) {map : Bytes → Option Bytes} (placed : Placed strings dbIndex map p)
    {labels : List (MapCall × Option MapResult)}
    (run : Simulation.Run (Performs (strings.clients dbIndex)) p labels p') :
    ∃ known', Simulation.Run (fun known label known' =>
      MayReturn strings.isMatch known label.1 label.2 known') (only map) labels known' := by
  obtain ⟨known', returns, -⟩ := (new_knows strings silent accepted placed).run run
  exact ⟨known', returns⟩

/-- Where every call that writes returns true, what the calls return is what one map returns. -/
theorem results_of_one_map (strings : Strings docs) {hostList portList : Bytes} {dbIndex : Int32}
    {timeoutMs : Int} {partitions : Int32} {hashFn : Bytes → UInt32}
    {newOs : Nat → Os (Endpoint server)} (silent : ∀ i, (newOs i).incoming = [])
    (accepted : new hostList portList dbIndex timeoutMs partitions hashFn
      (fun i host port dbIndex timeoutMs => Redis2.new host port dbIndex timeoutMs (newOs i)) =
        .ok p) {map : Bytes → Option Bytes} (placed : Placed strings dbIndex map p)
    {labels : List (MapCall × Option MapResult)}
    (run : Simulation.Run (Performs (strings.clients dbIndex)) p labels p')
    (succeed : ∀ label ∈ labels, readsMap label.1 = true ∨ label.2.isSome) :
    ∃ map', Simulation.Run (ReturnsOrFails strings.isMatch) map labels map' := by
  obtain ⟨known', returns, -⟩ := (new_knows strings silent accepted placed).run run
  exact certain_run returns succeed

end Redis2P

/-- A server that holds a table of strings, and knows the commands of a map only. -/
def stringRules : TableRules (AList fun _ : Bytes => Bytes) where
  answer data args :=
    let current := data.lookup (args.getD 1 [])
    if commandOf args = .set ∨ commandOf args = .mset then .status (ascii "OK")
    else if commandOf args = .get then current.elim .nilBulk .bulk
    else if commandOf args = .mget then
      .array (args.tail.map fun key => (data.lookup key).elim .nilBulk .bulk)
    else if commandOf args = .exists then .integer (if current.isSome then 1 else 0)
    else if commandOf args = .del then .integer (Shards.countLive (data.lookup ·) args.tail)
    else if commandOf args = .keys then
      .array ((data.keys.filter fun key => args.getD 1 [] == ascii "*" || args.getD 1 [] == key).map
        .bulk)
    else .error (ascii "ERR")
  next data args :=
    if commandOf args = .set then data.insert (args.getD 1 []) (args.getD 2 [])
    else if commandOf args = .mset then
      (pairsOf args.tail).foldl (fun data (key, value) => data.insert key value) data
    else if commandOf args = .del then args.tail.foldl (fun data key => data.erase key) data
    else data
  wellFormed data args := by
    dsimp only
    split_ifs
    · exact .status (by decide)
    · cases data.lookup (args.getD 1 []) with
      | none => exact .nilBulk
      | some value => exact .bulk value
    · refine .array fun reply member => ?_
      obtain ⟨key, -, rfl⟩ := List.mem_map.mp member
      cases data.lookup key with
      | none => exact .nilBulk
      | some value => exact .bulk value
    · exact .integer _
    · exact .integer _
    · exact .integer _
    · refine .array fun reply member => ?_
      obtain ⟨bytes, -, rfl⟩ := List.mem_map.mp member
      exact .bulk bytes
    · exact .error (by decide)
  flat data args named := by
    rcases named with named | named | named <;> simp [named, IsArray]
  reads data args named := by
    have other : commandOf args ≠ .set ∧ commandOf args ≠ .mset ∧ commandOf args ≠ .del := by
      refine ⟨?_, ?_, ?_⟩
      all_goals
        intro writes
        rw [writes] at named
        rcases named with reads | wrong
        · cases reads
        · cases wrong
    rw [if_neg other.1, if_neg other.2.1, if_neg other.2.2]

omit [Doubles] in
/-- A request of data is applied by the rules. -/
theorem stringRules_applies {c : RedisCommand} (isData : c.command.isData = true)
    {tells : (Bytes → Option Bytes) → Reply} {leaves : (Bytes → Option Bytes) → Bytes → Option Bytes}
    (answers : ∀ data, stringRules.answer data (requestOf c) = tells (AList.lookup · data))
    (next : ∀ data key, (stringRules.next data (requestOf c)).lookup key =
      leaves (AList.lookup · data) key) :
    Applies stringRules.docs (fun data _ key => AList.lookup key data) c tells leaves := by
  intro state
  have other : commandOf (requestOf c) ≠ .select := by
    rw [commandOf_requestOf isData]
    rintro wrong
    rw [wrong] at isData
    cases isData
  rw [stringRules.handle_other state other]
  exact Or.inr ⟨answers state.data, funext (next state.data)⟩

omit [Doubles] in
/-- A string is stored in a table. -/
theorem lookup_insert_eq (data : AList fun _ : Bytes => Bytes) (key value : Bytes) :
    (AList.lookup · (data.insert key value)) =
      Function.update (AList.lookup · data) key (some value) := by
  funext found
  by_cases same : found = key
  · subst same
    rw [AList.lookup_insert, Function.update_self]
  · rw [AList.lookup_insert_ne same, Function.update_of_ne same]

omit [Doubles] in
/-- A key is removed from it. -/
theorem lookup_erase_eq (data : AList fun _ : Bytes => Bytes) (key : Bytes) :
    (AList.lookup · (data.erase key)) = Function.update (AList.lookup · data) key none := by
  funext found
  by_cases same : found = key
  · subst same
    rw [AList.lookup_erase, Function.update_self]
  · rw [AList.lookup_erase_ne same, Function.update_of_ne same]

/-- A request about a key is one. -/
theorem stringRules_call {α : Type} {m : KeyMethod α} {effect : Option Bytes → α × Option Bytes}
    (isMap : m.onValue = some effect) (key : Bytes) :
    Applies stringRules.docs (fun data _ key => AList.lookup key data) (m.command key)
      (fun map => m.replyOf (effect (map key)).1)
      fun map => Function.update map key (effect (map key)).2 := by
  have named : commandOf (requestOf (m.command key)) = m.name := commandOf_requestOf m.isData_name
  have asks : (requestOf (m.command key)).getD 1 [] = key := rfl
  cases m with
  | set value =>
    cases isMap
    refine stringRules_applies rfl (fun data => by simp only [stringRules, named]; rfl)
      fun data found => ?_
    have writes : stringRules.next data (requestOf ((KeyMethod.set value).command key)) =
        data.insert key value := by
      simp only [stringRules, named]
      rfl
    rw [writes]
    exact congrFun (lookup_insert_eq data key value) found
  | get =>
    cases isMap
    refine stringRules_applies rfl (fun data => by simp only [stringRules, named, asks]; rfl)
      fun data found => ?_
    rw [Function.update_eq_self]
    simp only [stringRules, named]
    rfl
  | «exists» =>
    cases isMap
    refine stringRules_applies rfl (fun data => by simp only [stringRules, named, asks]; rfl)
      fun data found => ?_
    rw [Function.update_eq_self]
    simp only [stringRules, named]
    rfl
  | del =>
    cases isMap
    refine stringRules_applies rfl (fun data => ?_) fun data found => ?_
    · have answers : stringRules.answer data (requestOf (KeyMethod.del.command key)) =
          .integer (Shards.countLive (AList.lookup · data) [key]) := by
        simp only [stringRules, named]
        rfl
      have count : Shards.countLive (AList.lookup · data) [key] =
          if (data.lookup key).isSome then 1 else 0 := by
        rw [Shards.countLive_cons]
        rfl
      rw [answers, count]
      push_cast
      rfl
    · have writes : stringRules.next data (requestOf (KeyMethod.del.command key)) =
          data.erase key := by
        simp only [stringRules, named]
        rfl
      rw [writes]
      exact congrFun (lookup_erase_eq data key) found
  | _ => cases isMap

/-- It keeps the promises. -/
def stringLaws : Strings stringRules.docs where
  value data _ key := data.lookup key
  isMatch pattern key := pattern == ascii "*" || pattern == key
  call state key {_ _ _} isMap := stringRules_call isMap key state
  keys state pattern := by
    have named : commandOf (requestOf ⟨.keys, [pattern], .none⟩) = .keys := commandOf_requestOf rfl
    have other : commandOf (requestOf ⟨.keys, [pattern], .none⟩) ≠ .select := by
      rw [named]
      decide
    rw [stringRules.handle_other state other]
    right
    refine ⟨_, by simp only [stringRules, named]; rfl, state.data.keys_nodup.filter _, fun key => ?_⟩
    rw [List.mem_filter, ← AList.mem_keys, ← AList.lookup_isSome]
    rfl

namespace Redis2P

/-- A client for servers without a string, with these outcomes of the receive calls of each client. -/
def emptyServers (hostList : Bytes) (partitions : Int32) (hashFn : Bytes → UInt32)
    (recvs : Nat → List RecvOutcome) :
    Except Bytes (Redis2P (Redis2 (Endpoint stringRules.server))) :=
  new hostList (ascii "6379") 0 1000 partitions hashFn fun i host port dbIndex timeoutMs =>
    Redis2.new host port dbIndex timeoutMs (.start ⟨[], 0, [], ∅⟩ (recvs i))

variable {hostList : Bytes} {partitions : Int32} {hashFn : Bytes → UInt32}
  {recvs : Nat → List RecvOutcome}

/-- The empty map is placed there. -/
theorem emptyServers_placed {made : Redis2P (Redis2 (Endpoint stringRules.server))}
    (accepted : emptyServers hostList partitions hashFn recvs = .ok made) :
    Placed stringLaws 0 (fun _ => none) made := by
  intro i client found
  obtain ⟨host, port, rfl⟩ := (new_configured accepted).2 i client found
  rw [Shards.shard_empty]
  rfl

deriving instance DecidableEq for MapResult

/-- A run of calls there, from what is seen of it. -/
theorem emptyServers_run {calls : List (ThreadId × MapCall)} {results : List (Option MapResult)}
    (short : ∀ call ∈ calls, Fits (stringLaws.clients 0) call.2)
    (shows : ((emptyServers hostList partitions hashFn recvs).toOption.bind fun made =>
      (performAll calls made).toOption).map Prod.fst = some results) :
    ∃ made last, emptyServers hostList partitions hashFn recvs = .ok made ∧
      Simulation.Run (Performs (stringLaws.clients 0)) made ((calls.map Prod.snd).zip results)
        last := by
  obtain ⟨⟨results', last⟩, performs, rfl⟩ := Option.map_eq_some_iff.mp shows
  obtain ⟨made, accepted, performs⟩ := Option.bind_eq_some_iff.mp performs
  exact ⟨made, last, returned_of_toOption accepted,
    run_of_performAll short (returned_of_toOption performs)⟩

omit [Doubles] in
/-- A write fails when the reply of the first replica is late: behind it two threads read different
values. -/
theorem results_of_candidates_late : ∃ (_ : Doubles) (known' : Bytes → Set (Option Bytes)),
    Simulation.Run (fun known label known' =>
      MayReturn stringLaws.isMatch known label.1 label.2 known') (only fun _ => none)
      [(.set (ascii "k") (ascii "v"), none), (.get (ascii "k"), some (.value none)),
        (.get (ascii "k"), some (.value (some (ascii "v"))))] known' := by
  let doubles : Doubles := ⟨fun _ => [], fun _ => none⟩
  obtain ⟨made, last, accepted, run⟩ := @emptyServers_run doubles (ascii "a,b") 1 (fun _ => 0)
    (fun i => if i = 1 then [.timeout] else [])
    [(⟨1, by decide⟩, .set (ascii "k") (ascii "v")), (⟨2, by decide⟩, .get (ascii "k")),
      (⟨1, by decide⟩, .get (ascii "k"))]
    [none, some (.value none), some (.value (some (ascii "v")))]
    (by
      simp only [List.forall_mem_cons]
      refine ⟨?_, ?_, ?_, by simp⟩
      · exact (by decide +kernel : (commandText
          ((KeyMethod.set (ascii "v")).command (ascii "k"))).length < 2 ^ 31)
      all_goals exact (by decide +kernel : (commandText
        (KeyMethod.get.command (ascii "k"))).length < 2 ^ 31))
    (by decide +kernel)
  exact ⟨doubles, results_of_candidates stringLaws (fun i => rfl) accepted
    (emptyServers_placed accepted) run⟩

omit [Doubles] in
/-- A write succeeds, and a read where the reply of the first replica is late. -/
theorem results_of_one_map_late : ∃ (_ : Doubles) (map' : Bytes → Option Bytes),
    Simulation.Run (ReturnsOrFails stringLaws.isMatch) (fun _ => none)
      [(.mset [ascii "k"] [ascii "v"], some .done),
        (.mget [ascii "k", ascii "l"], some (.values [some (ascii "v"), none]))] map' := by
  let doubles : Doubles := ⟨fun _ => [], fun _ => none⟩
  obtain ⟨made, last, accepted, run⟩ := @emptyServers_run doubles (ascii "a,b") 1 (fun _ => 0)
    (fun i => if i = 1 then [.chunk 100, .timeout] else [])
    [(⟨1, by decide⟩, .mset [ascii "k"] [ascii "v"]),
      (⟨1, by decide⟩, .mget [ascii "k", ascii "l"])]
    [some .done, some (.values [some (ascii "v"), none])]
    (by
      simp only [List.forall_mem_cons]
      refine ⟨?_, ?_, by simp⟩
      · intro pair member
        have same : pair = (ascii "k", ascii "v") := by simpa using member
        rw [same]
        exact (by decide +kernel : (commandText
          ((KeyMethod.set (ascii "v")).command (ascii "k"))).length < 2 ^ 31)
      · intro key member
        have some : key = ascii "k" ∨ key = ascii "l" := by simpa using member
        rcases some with rfl | rfl
        · exact (by decide +kernel : (commandText
            (KeyMethod.get.command (ascii "k"))).length < 2 ^ 31)
        · exact (by decide +kernel : (commandText
            (KeyMethod.get.command (ascii "l"))).length < 2 ^ 31))
    (by decide +kernel)
  exact ⟨doubles, results_of_one_map stringLaws (fun i => rfl) accepted (emptyServers_placed accepted)
    run (by simp [readsMap])⟩

end Redis2P

end LibRedis
