import LibRedis.KeyCommands
import LibRedis.SelectedDatabase

/-!
# What a client does to the data of its server

A server that applies commands as documented, seen through a client for it: connecting and selecting
a database leave the data, and a method that returns true has been applied once, in the database
that the client has chosen. So a method that only reads leaves the data, and one that does the same
to the same data does so at every server that holds them.
-/

namespace LibRedis

open Decimal (ascii)
open Resp (Reply)
open RedisProtocol (commandText requestOf Exchanges)

/-- Whether the options of SORT behind the key have a STORE among them; some options take arguments,
which are passed over. -/
def storesResult : Nat → List Bytes → Bool
  | _, [] => false
  | skip + 1, _ :: rest => storesResult skip rest
  | 0, option :: rest =>
    let name := option.map toUpper
    if name = ascii "STORE" then !rest.isEmpty
    else if name = ascii "BY" ∨ name = ascii "GET" then storesResult 1 rest
    else if name = ascii "LIMIT" then storesResult 2 rest
    else storesResult 0 rest

/-- A server that applies commands as documented. -/
structure Documented {σ : Type} (server : Server σ) (δ : Type) extends Databases server where
  /-- The data of all databases. -/
  data : σ → δ
  /-- A new connection leaves them. -/
  fresh_data (state : σ) : data (server.fresh state) = data state
  /-- So does SELECT. -/
  select_data (state : σ) (args : List Bytes) (named : commandOf args = .select) :
    data (server.handle state args).2 = data state
  /-- And so do the commands that only read. -/
  reads_data (state : σ) (args : List Bytes) (reads : (commandOf args).readsOnly = true) :
    data (server.handle state args).2 = data state
  /-- SORT does unless it stores its result. -/
  sort_data (state : σ) (args : List Bytes) (named : commandOf args = .sort)
    (shows : storesResult 0 (args.drop 2) = false) :
    data (server.handle state args).2 = data state
  /-- If it does, the reply is the number of elements stored, or an error. -/
  sort_stores (state : σ) (args : List Bytes) (named : commandOf args = .sort)
    (stores : storesResult 0 (args.drop 2) = true) : ¬ IsArray (server.handle state args).1
  /-- Most commands that write do the same to the same data. -/
  writes_data (state state' : σ) (args : List Bytes) (writes : (commandOf args).writesAlike = true)
    (sameDb : db state = db state') (sameData : data state = data state') :
    data (server.handle state args).2 = data (server.handle state' args).2
  /-- The members of a set. -/
  members : δ → Int32 → Bytes → List Bytes
  /-- SPOP removes an arbitrary member, and there may be no choice. -/
  spop_data (state state' : σ) (args : List Bytes) (named : commandOf args = .spop)
    (sameDb : db state = db state') (sameData : data state = data state')
    (settled : (members (data state) (db state) (args.getD 1 [])).length ≤ 1) :
    data (server.handle state args).2 = data (server.handle state' args).2
  /-- The reply to ZRANK and ZREVRANK is a number, nil or an error. -/
  rank (state : σ) (args : List Bytes)
    (named : commandOf args = .zrank ∨ commandOf args = .zrevrank) :
    ¬ IsArray (server.handle state args).1
  /-- Whether the data determine the reply to a request. -/
  Determined : List Bytes → Prop
  /-- They do. -/
  answers (state state' : σ) (args : List Bytes) (determined : Determined args)
    (sameDb : db state = db state') (sameData : data state = data state') :
    (server.handle state args).1 = (server.handle state' args).1

variable {σ δ : Type} {server : Server σ} {docs : Documented server δ}

/-- Outside a transaction a reply is held to the declared type. -/
theorem typeRead_declared (command : Command) :
    RedisProtocol.typeRead true false command = command.commandInfo.replyType := by
  by_cases checks : (true && command.commandInfo.replyType != .depends) = true
  · exact if_pos checks
  · have depends : command.commandInfo.replyType = .depends := by simpa using checks
    rw [RedisProtocol.typeRead, if_neg checks, depends]

/-- A request names its command. -/
theorem commandOf_requestOf {c : RedisCommand} (isData : c.command.isData = true) :
    commandOf (requestOf c) = c.command := by
  have named : c.command ∈ Command.named := by
    simp only [Command.isData, Bool.and_eq_true, decide_eq_true_eq] at isData
    exact isData.1.1.1
  exact (names_requestOf c c.command named).mpr rfl

/-- The reply to a data command leaves nothing behind it. -/
theorem Documented.dataRequest (docs : Documented server δ) {c : RedisCommand}
    (isData : c.command.isData = true) : Redis2.DataRequest server c (requestOf c) := by
  have names := commandOf_requestOf isData
  simp only [Command.isData, Bool.and_eq_true, Bool.or_eq_true, decide_eq_true_eq, bne_iff_ne,
    beq_iff_eq] at isData
  obtain ⟨⟨⟨-, notSelect⟩, notMulti⟩, typed⟩ := isData
  refine ⟨notSelect, notMulti, fun state left refuses => ?_⟩
  rw [typeRead_declared] at refuses
  rcases refuses with ⟨text, -, nothing⟩ | ⟨untyped, isArray, -⟩
  · exact nothing
  · rcases typed with (typed | rank) | rank
    · rcases untyped with type | type
      · rw [type] at typed
        simp at typed
      · rw [type] at typed
        simp at typed
    · exact absurd isArray (docs.rank state _ (Or.inl (names.trans rank)))
    · exact absurd isArray (docs.rank state _ (Or.inr (names.trans rank)))

namespace Redis2

/-- A new connection leaves the data. -/
theorem fresh_keeps (docs : Documented server δ) (data : δ) :
    ∀ state, docs.data state = data → docs.data (server.fresh state) = data :=
  fun _ same => (docs.fresh_data _).trans same

/-- So does SELECT. -/
theorem selectCommand_keeps (docs : Documented server δ) (data : δ) (index : Int32) :
    ∀ state, docs.data state = data →
      docs.data (server.handle state (requestOf (selectCommand index))).2 = data := by
  have named : commandOf (requestOf (selectCommand index)) = .select :=
    (names_requestOf (selectCommand index) .select (by decide)).mpr rfl
  exact fun state same => (docs.select_data state _ named).trans same

/-- A connection that is made, or not, leaves the data. -/
theorem protoAssureConnect_data (docs : Documented server δ)
    {p p' : RedisProtocol (Endpoint server)} (plain : Plain p) {ok : Bool} {status : Int}
    (assures : p.assureConnect = (ok, status, p')) :
    Plain p' ∧ docs.data p'.tcpClient.os.peer.state = docs.data p.tcpClient.os.peer.state :=
  plain.assures_keeps (fun state => docs.data state = docs.data p.tcpClient.os.peer.state)
    (fresh_keeps docs _) rfl assures

/-- `select` leaves the data. -/
theorem Plain.select_data {r r' : Redis2 (Endpoint server)} (plain : Plain r.proto)
    {index : Int32} {ok : Bool} (returns : r.select index = .ok (ok, r')) :
    docs.data r'.serverState = docs.data r.serverState :=
  Plain.select_keeps docs.wellFormed (fun state => docs.data state = docs.data r.serverState) plain
    (fresh_keeps docs _) rfl (selectCommand_keeps docs _ index) returns

/-- `assure_connect` leaves the data. -/
theorem Plain.assureConnect_data {r r' : Redis2 (Endpoint server)} (plain : Plain r.proto)
    {ok : Bool} (returns : r.assureConnect = .ok (ok, r')) :
    docs.data r'.serverState = docs.data r.serverState :=
  Plain.assureConnect_keeps docs.wellFormed (fun state => docs.data state = docs.data r.serverState)
    plain (fresh_keeps docs _) rfl (selectCommand_keeps docs _ r.dbIndex) returns

/-- A client of a server with these data, which has chosen this database. -/
structure Holds (docs : Documented server δ) (chosen : Int32) (data : δ)
    (r : Redis2 (Endpoint server)) : Prop where
  /-- Commands run in the chosen database. -/
  tracks : r.Tracks docs.toDatabases chosen
  /-- The server has the data. -/
  data : docs.data r.serverState = data

/-- A method takes the reply apart if `exec_command` returns true. -/
theorem method_returns {π : Type} [Peer π] {r r' : Redis2 π} {c : RedisCommand} {α : Type}
    {take : RedisOutput → Option α} {out : Option α}
    (returns : r.method c take = .ok (out, r')) :
    ∃ sent c' r₁, r.execCommand c = .ok (sent, c', r₁) ∧
      ((sent = false ∧ out = none ∧ r' = r₁) ∨
      (sent = true ∧ out = take c'.out ∧ ∃ text,
        r' = { r₁ with proto := { r₁.proto with error := text } })) := by
  obtain ⟨⟨sent, c', r₁⟩, executes, ends⟩ := bind_returns returns
  refine ⟨sent, c', r₁, executes, ?_⟩
  cases sent with
  | false =>
    have failed : (.ok (none, r₁) : Except Abort _) = .ok (out, r') := ends
    cases failed
    exact Or.inl ⟨rfl, rfl, rfl⟩
  | true =>
    apply Or.inr
    obtain ⟨text, reports⟩ := onReplyTypeError_eq r₁ c'
    cases takes : take c'.out with
    | none =>
      simp only [takes, reports] at ends
      obtain ⟨rfl, rfl⟩ := Prod.mk.inj (Except.ok.inj ends)
      exact ⟨rfl, rfl, text, rfl⟩
    | some outputs =>
      simp only [takes] at ends
      obtain ⟨rfl, rfl⟩ := Prod.mk.inj (Except.ok.inj ends)
      exact ⟨rfl, rfl, r₁.proto.error, rfl⟩

/-- A command leaves the data, or the server has handled its request once, in the chosen database; if
`exec_command` returns true it has, and the output is that of the reply. -/
theorem Holds.execCommand {chosen : Int32} {data : δ} {r r' : Redis2 (Endpoint server)}
    (holds : Holds docs chosen data r) {c c' : RedisCommand}
    (small : (commandText c).length < 2 ^ 31) (isData : c.command.isData = true) {sent : Bool}
    (returns : r.execCommand c = .ok (sent, c', r')) :
    r'.Tracks docs.toDatabases chosen ∧
      ((sent = false ∧ docs.data r'.serverState = data) ∨
      ∃ state, docs.data state = data ∧ docs.db state = chosen ∧
        r'.serverState = (server.handle state (requestOf c)).2 ∧
        (sent = true → Accepts c.commandInfo.replyType (server.handle state (requestOf c)).1 ∧
          c'.out = denoteAs c.commandInfo.replyType (server.handle state (requestOf c)).1)) := by
  obtain ⟨⟨connected, r₁⟩, assures, sends⟩ := bind_returns returns
  obtain ⟨tracks₁, -, selected⟩ := holds.tracks.assureConnect assures
  have data₁ : docs.data r₁.serverState = data :=
    (holds.tracks.plain.assureConnect_data assures).trans holds.data
  cases connected with
  | false =>
    have fails : (.ok (false, c, r₁) : Except Abort _) = .ok (sent, c', r') := sends
    cases fails
    exact ⟨tracks₁, Or.inl ⟨rfl, data₁⟩⟩
  | true =>
    obtain ⟨proto, executes, rfl⟩ := protoExecCommand_returns (r := r₁) sends
    rcases RedisProtocol.execCommand_cases tracks₁.plain.synced small rfl
        (docs.wellFormed _ _) with ⟨-, text, refused⟩ | ⟨-, exchanges⟩
    · cases executes.symm.trans refused
      exact ⟨tracks₁.frame text r₁.proto.blockingMode, Or.inl ⟨rfl, data₁⟩⟩
    · rw [executes] at exchanges
      have tracks := (tracks₁.exchanges (selected rfl) (names_requestOf c)
        (docs.dataRequest isData) exchanges).1
      have db (alive : r₁.proto.tcpClient.fd ≠ -1) : docs.db r₁.serverState = chosen :=
        (selected rfl alive).trans tracks₁.chosen
      have type : r₁.proto.replyType c = c.commandInfo.replyType := by
        rw [RedisProtocol.replyType, tracks₁.plain.mode]
        exact typeRead_declared c.command
      refine ⟨tracks, ?_⟩
      cases exchanges with
      | lost valid fd mode kept reason =>
        rcases kept with unchanged | ⟨alive, next⟩
        · refine Or.inl ⟨rfl, ?_⟩
          rw [serverState, unchanged]
          exact data₁
        · exact Or.inr ⟨r₁.serverState, data₁, db alive, next, fun wrong => by cases wrong⟩
      | accepted synced alive fd mode next accepts =>
        refine Or.inr ⟨r₁.serverState, data₁, db (by omega), next, fun _ => ?_⟩
        rw [← type]
        exact ⟨accepts, rfl⟩
      | refused valid alive fd mode next unread refuses =>
        refine Or.inr ⟨r₁.serverState, data₁, db (by omega), ?_, fun wrong => by cases wrong⟩
        exact congrArg Endpoint.state next

/-- A method leaves the data, or the server has handled its request once, in the chosen database; if
it returns true the server has, and the outputs are those of the reply. -/
theorem Holds.method {chosen : Int32} {data : δ} {r r' : Redis2 (Endpoint server)}
    (holds : Holds docs chosen data r) {c : RedisCommand}
    (small : (commandText c).length < 2 ^ 31) (isData : c.command.isData = true) {α : Type}
    {take : RedisOutput → Option α} {out : Option α}
    (returns : r.method c take = .ok (out, r')) :
    r'.Tracks docs.toDatabases chosen ∧
      ((out = none ∧ docs.data r'.serverState = data) ∨
      ∃ state, docs.data state = data ∧ docs.db state = chosen ∧
        r'.serverState = (server.handle state (requestOf c)).2 ∧
        ∀ outputs, out = some outputs →
          Accepts c.commandInfo.replyType (server.handle state (requestOf c)).1 ∧
          take (denoteAs c.commandInfo.replyType (server.handle state (requestOf c)).1) =
            some outputs) := by
  obtain ⟨sent, c', r₁, executes, ends⟩ := method_returns returns
  obtain ⟨tracks, does⟩ := holds.execCommand small isData executes
  rcases ends with ⟨rfl, rfl, rfl⟩ | ⟨rfl, rfl, text, rfl⟩
  · refine ⟨tracks, does.imp (fun ⟨_, kept⟩ => ⟨rfl, kept⟩) ?_⟩
    rintro ⟨state, data, db, next, -⟩
    exact ⟨state, data, db, next, nofun⟩
  · refine ⟨tracks.frame text r₁.proto.blockingMode, Or.inr ?_⟩
    rcases does with ⟨wrong, -⟩ | ⟨state, data, db, next, output⟩
    · cases wrong
    · refine ⟨state, data, db, next, fun outputs takes => ?_⟩
      obtain ⟨accepts, same⟩ := output rfl
      rw [← same]
      exact ⟨accepts, takes⟩

/-- If a method returns true its request was not too long for an `int`. -/
theorem Holds.method_small {chosen : Int32} {data : δ} {r r' : Redis2 (Endpoint server)}
    (holds : Holds docs chosen data r) {c : RedisCommand} (few : c.args.length + 1 < 2 ^ 31)
    {α : Type} {take : RedisOutput → Option α} {outputs : α}
    (returns : r.method c take = .ok (some outputs, r')) :
    (commandText c).length < 2 ^ 31 := by
  obtain ⟨sent, c', r₁, executes, ends⟩ := method_returns returns
  rcases ends with ⟨-, wrong, -⟩ | ⟨rfl, -, -⟩
  · cases wrong
  · obtain ⟨⟨connected, r₂⟩, assures, sends⟩ := bind_returns executes
    obtain ⟨tracks, -, -⟩ := holds.tracks.assureConnect assures
    cases connected with
    | false =>
      have fails : (.ok (false, c, r₂) : Except Abort _) = .ok (true, c', r₁) := sends
      cases fails
    | true =>
      obtain ⟨proto, sent, -⟩ := protoExecCommand_returns (r := r₂) sends
      exact RedisProtocol.execCommand_small tracks.plain.synced few sent

/-- What a request leaves unchanged, a method leaves unchanged. -/
theorem Holds.method_reads {chosen : Int32} {data : δ} {r r' : Redis2 (Endpoint server)}
    (holds : Holds docs chosen data r) {c : RedisCommand}
    (small : (commandText c).length < 2 ^ 31) (isData : c.command.isData = true)
    (reads : ∀ state, docs.data (server.handle state (requestOf c)).2 = docs.data state) {α : Type}
    {take : RedisOutput → Option α} {out : Option α}
    (returns : r.method c take = .ok (out, r')) : Holds docs chosen data r' := by
  obtain ⟨tracks, ⟨-, kept⟩ | ⟨state, kept, -, next, -⟩⟩ := holds.method small isData returns
  · exact ⟨tracks, kept⟩
  · refine ⟨tracks, ?_⟩
    rw [next, reads, kept]

/-- What a request makes of the data is the same everywhere, so a method makes the same of them
wherever it returns true. -/
theorem method_alike (docs : Documented server δ) {c : RedisCommand} (chosen : Int32) (data : δ)
    (small : (commandText c).length < 2 ^ 31) (isData : c.command.isData = true)
    (alike : ∀ state state', docs.data state = data → docs.db state = chosen →
      docs.data state' = data → docs.db state' = chosen →
      docs.data (server.handle state (requestOf c)).2 =
        docs.data (server.handle state' (requestOf c)).2) {α : Type}
    (take : RedisOutput → Option α) :
    ∃ data', ∀ (r r' : Redis2 (Endpoint server)) outputs, Holds docs chosen data r →
      r.method c take = .ok (some outputs, r') → Holds docs chosen data' r' := by
  by_cases found : ∃ state, docs.data state = data ∧ docs.db state = chosen
  · obtain ⟨state, kept, db⟩ := found
    refine ⟨docs.data (server.handle state (requestOf c)).2, fun r r' outputs holds returns => ?_⟩
    obtain ⟨tracks, ⟨wrong, -⟩ | ⟨state', kept', db', next, -⟩⟩ := holds.method small isData returns
    · cases wrong
    · refine ⟨tracks, ?_⟩
      rw [next]
      exact alike state' state kept' db' kept db
  · refine ⟨data, fun r r' outputs holds returns => ?_⟩
    obtain ⟨-, ⟨wrong, -⟩ | ⟨state', kept', db', -⟩⟩ := holds.method small isData returns
    · cases wrong
    · exact absurd ⟨state', kept', db'⟩ found

/-- Two clients whose servers hold the same data have the same outputs, if the data determine the
reply. -/
theorem method_answers {chosen : Int32} {data : δ} {r₁ r₁' r₂ r₂' : Redis2 (Endpoint server)}
    (first : Holds docs chosen data r₁) (second : Holds docs chosen data r₂) {c : RedisCommand}
    (small : (commandText c).length < 2 ^ 31) (isData : c.command.isData = true)
    (determined : docs.Determined (requestOf c)) {α : Type} {take : RedisOutput → Option α}
    {outputs₁ outputs₂ : α} (returns₁ : r₁.method c take = .ok (some outputs₁, r₁'))
    (returns₂ : r₂.method c take = .ok (some outputs₂, r₂')) : outputs₁ = outputs₂ := by
  obtain ⟨-, ⟨wrong, -⟩ | ⟨state₁, data₁, db₁, -, takes₁⟩⟩ := first.method small isData returns₁
  · cases wrong
  obtain ⟨-, ⟨wrong, -⟩ | ⟨state₂, data₂, db₂, -, takes₂⟩⟩ := second.method small isData returns₂
  · cases wrong
  have same := docs.answers state₁ state₂ _ determined (db₁.trans db₂.symm) (data₁.trans data₂.symm)
  have takes := (takes₁ outputs₁ rfl).2
  rw [same, (takes₂ outputs₂ rfl).2] at takes
  exact (Option.some.inj takes).symm

/-- `keys` leaves the data. -/
theorem Holds.keys {chosen : Int32} {data : δ} {r r' : Redis2 (Endpoint server)}
    (holds : Holds docs chosen data r) {pattern : Bytes}
    (small : (commandText ⟨.keys, [pattern], .none⟩).length < 2 ^ 31) {out : Option Mbulk}
    (returns : r.keys pattern = .ok (out, r')) : Holds docs chosen data r' := by
  have named : commandOf (requestOf ⟨.keys, [pattern], .none⟩) = .keys := commandOf_requestOf rfl
  have reads (state : σ) := docs.reads_data state (requestOf ⟨.keys, [pattern], .none⟩) (by
    rw [named]
    rfl)
  exact holds.method_reads small rfl reads returns

/-- `randomkey` leaves the data. -/
theorem Holds.randomkey {chosen : Int32} {data : δ} {r r' : Redis2 (Endpoint server)}
    (holds : Holds docs chosen data r) {out : Option (Option Bytes)}
    (returns : r.randomkey = .ok (out, r')) : Holds docs chosen data r' := by
  have named : commandOf (requestOf (.new .randomkey)) = .randomkey := commandOf_requestOf rfl
  have reads (state : σ) := docs.reads_data state (requestOf (.new .randomkey)) (by
    rw [named]
    rfl)
  exact holds.method_reads (by decide +kernel) rfl reads returns

/-- A method without outputs is one with an output that says nothing. -/
theorem statusOkMethod_true {π : Type} [Peer π] {r r' : Redis2 π} {c : RedisCommand}
    (returns : r.statusOkMethod c = .ok (true, r')) :
    r.method c RedisOutput.takeStatusOk = .ok (some (), r') := by
  obtain ⟨⟨sent, c', r₁⟩, executes, ends⟩ := bind_returns returns
  rw [Redis2.method, executes]
  cases sent with
  | false => cases ends
  | true =>
    cases status : c'.out.isStatusOk with
    | false =>
      have fails : (.ok (r₁.checkStatusOk c') : Except Abort _) = .ok (true, r') := ends
      rw [checkStatusOk, status] at fails
      cases fails
    | true =>
      have succeeds : (.ok (r₁.checkStatusOk c') : Except Abort _) = .ok (true, r') := ends
      rw [checkStatusOk, status] at succeeds
      cases succeeds
      have takes : RedisOutput.takeStatusOk c'.out = some () := by
        rw [RedisOutput.takeStatusOk, status]
        rfl
      simp only [bind, Except.bind, takes]
      rfl

/-- `flushall` and `flushdb` make the same of the same data. -/
theorem flush_alike (docs : Documented server δ) (chosen : Int32) (data : δ) {c : RedisCommand}
    (flushes : c = .new .flushall ∨ c = .new .flushdb) :
    ∃ data', ∀ r r' : Redis2 (Endpoint server), Holds docs chosen data r →
      r.statusOkMethod c = .ok (true, r') → Holds docs chosen data' r' := by
  have small : (commandText c).length < 2 ^ 31 := by
    rcases flushes with rfl | rfl <;> decide +kernel
  have isData : c.command.isData = true := by
    rcases flushes with rfl | rfl <;> rfl
  have writes : c.command.writesAlike = true := by
    rcases flushes with rfl | rfl <;> rfl
  obtain ⟨data', makes⟩ := method_alike docs chosen data small isData
    (fun state state' data₁ db₁ data₂ db₂ => docs.writes_data state state' _
      (by rw [commandOf_requestOf isData]; exact writes) (db₁.trans db₂.symm)
      (data₁.trans data₂.symm)) RedisOutput.takeStatusOk
  exact ⟨data', fun r r' holds returns => makes r r' () holds (statusOkMethod_true returns)⟩

/-- A `select` that returns true chooses the database and leaves the data. -/
theorem Holds.select {chosen : Int32} {data : δ} {r r' : Redis2 (Endpoint server)}
    (holds : Holds docs chosen data r) {index : Int32}
    (returns : r.select index = .ok (true, r')) : Holds docs index data r' := by
  have kept := (holds.tracks.plain.select_data returns).trans holds.data
  refine ⟨?_, kept⟩
  cases assures : r.proto.assureConnect with
  | mk connected rest =>
    obtain ⟨status, p⟩ := rest
    obtain ⟨plain, -⟩ := protoAssureConnect_data docs holds.tracks.plain assures
    rw [Redis2.select, assures] at returns
    cases connected with
    | false => cases returns
    | true =>
      change Redis2.selectConnected { r with proto := p } index = _ at returns
      obtain ⟨plain', -, ⟨wrong, -⟩ | ⟨wrong, -⟩ | ⟨-, index', -, db⟩⟩ :=
        @selectConnected_cases _ _ docs.toDatabases { r with proto := p } _ plain _ _ returns
      · cases wrong
      · cases wrong
      · exact ⟨plain', index', fun _ => Or.inl (db.trans index'.symm)⟩

/-- What a client keeps of its own check is no part of what it holds. -/
theorem Holds.lastError {chosen : Int32} {data : δ} {r : Redis2 (Endpoint server)}
    (holds : Holds docs chosen data r) (text : Bytes) :
    Holds docs chosen data (r.lastError text) :=
  ⟨holds.tracks.frame text r.proto.blockingMode, holds.data⟩

variable [Doubles]

/-- A method about a key that only reads leaves the data. -/
theorem Holds.call_reads {chosen : Int32} {data : δ} {r r' : Redis2 (Endpoint server)}
    (holds : Holds docs chosen data r) {α : Type} {m : KeyMethod α} {key : Bytes}
    (small : (commandText (m.command key)).length < 2 ^ 31)
    (reads : m.name.readsOnly = true ∨ (m.name = .sort ∧ storesResult 0 m.args = false))
    {out : Option α} (returns : RedisBase2.call r key m = .ok (out, r')) :
    Holds docs chosen data r' := by
  obtain ⟨take, calls⟩ := call_eq m key
  have named : commandOf (requestOf (m.command key)) = m.name := commandOf_requestOf m.isData_name
  rw [calls, checkExpr] at returns
  split at returns
  · refine holds.method_reads small m.isData_name (fun state => ?_) returns
    rcases reads with reads | ⟨sorts, shows⟩
    · exact docs.reads_data state _ (by rw [named]; exact reads)
    · exact docs.sort_data state _ (named.trans sorts) shows
  · cases returns
    exact holds.lastError _

/-- A SORT that stores its result returns false: its reply is no array, as it should be. -/
theorem Holds.call_stores {chosen : Int32} {data : δ} {r r' : Redis2 (Endpoint server)}
    (holds : Holds docs chosen data r) {α : Type} {m : KeyMethod α} {key : Bytes}
    (small : (commandText (m.command key)).length < 2 ^ 31) (sorts : m.name = .sort)
    (stores : storesResult 0 m.args = true) {out : Option α}
    (returns : RedisBase2.call r key m = .ok (out, r')) :
    out = none ∧ ∃ data', Holds docs chosen data' r' := by
  obtain ⟨take, calls⟩ := call_eq m key
  have named : commandOf (requestOf (m.command key)) = m.name := commandOf_requestOf m.isData_name
  rw [calls, checkExpr] at returns
  split at returns
  · obtain ⟨tracks, does⟩ := holds.method small m.isData_name returns
    refine ⟨?_, docs.data r'.serverState, tracks, rfl⟩
    rcases does with ⟨failed, -⟩ | ⟨state, -, -, -, takes⟩
    · exact failed
    · cases out with
      | none => rfl
      | some outputs =>
        have accepts := (takes outputs rfl).1
        have declared : (m.command key).commandInfo.replyType = .multiBulk := by
          change m.name.commandInfo.replyType = .multiBulk
          rw [sorts]
          rfl
        rw [declared] at accepts
        exact absurd accepts.1 (docs.sort_stores state _ (named.trans sorts) stores)
  · cases returns
    exact ⟨rfl, data, holds.lastError _⟩

/-- A method about a key makes the same of the same data, unless SPOP has a choice. -/
theorem call_alike (docs : Documented server δ) (chosen : Int32) (data : δ) {α : Type}
    {m : KeyMethod α} {key : Bytes} (small : (commandText (m.command key)).length < 2 ^ 31)
    (alike : m.name.writesAlike = true ∨
      (m.name = .spop ∧ (docs.members data chosen key).length ≤ 1)) :
    ∃ data', ∀ (r r' : Redis2 (Endpoint server)) outputs, Holds docs chosen data r →
      RedisBase2.call r key m = .ok (some outputs, r') → Holds docs chosen data' r' := by
  obtain ⟨take, calls⟩ := call_eq m key
  have named : commandOf (requestOf (m.command key)) = m.name := commandOf_requestOf m.isData_name
  obtain ⟨data', makes⟩ := method_alike docs chosen data small m.isData_name
    (fun state state' data₁ db₁ data₂ db₂ => by
      have sameDb := db₁.trans db₂.symm
      have sameData := data₁.trans data₂.symm
      rcases alike with writes | ⟨pops, settled⟩
      · exact docs.writes_data state state' _ (by rw [named]; exact writes) sameDb sameData
      · refine docs.spop_data state state' _ (named.trans pops) sameDb sameData ?_
        rw [data₁, db₁]
        exact settled) take
  refine ⟨data', fun r r' outputs holds returns => ?_⟩
  rw [calls, checkExpr] at returns
  split at returns
  · exact makes r r' outputs holds returns
  · cases returns

/-- The outputs of a method about a key are the same for the same data, if these determine them. -/
theorem call_answers {chosen : Int32} {data : δ} {r₁ r₁' r₂ r₂' : Redis2 (Endpoint server)}
    (first : Holds docs chosen data r₁) (second : Holds docs chosen data r₂) {α : Type}
    {m : KeyMethod α} {key : Bytes} (small : (commandText (m.command key)).length < 2 ^ 31)
    (determined : docs.Determined (requestOf (m.command key))) {outputs₁ outputs₂ : α}
    (returns₁ : RedisBase2.call r₁ key m = .ok (some outputs₁, r₁'))
    (returns₂ : RedisBase2.call r₂ key m = .ok (some outputs₂, r₂')) : outputs₁ = outputs₂ := by
  obtain ⟨take, calls⟩ := call_eq m key
  rw [calls, checkExpr] at returns₁ returns₂
  split at returns₁
  · rename_i checked
    rw [if_pos checked] at returns₂
    exact method_answers first second small m.isData_name determined returns₁ returns₂
  · cases returns₁

end Redis2

end LibRedis
