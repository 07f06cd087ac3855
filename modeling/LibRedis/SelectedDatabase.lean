import LibRedis.Redis
import LibRedis.TransactionMode

/-!
# The selected database

Commands are meant to run in the database that the constructor or the last successful `select` has
chosen. The client remembers it, and whether it has been selected on the connection. This is what
`select`, `assure_connect` and a single command do to both, and what they leave true of the server.
-/

namespace LibRedis

open Decimal (ascii)
open Resp (Reply)
open RedisProtocol (commandText requestOf Synced Exchanges)

/-- What a server promises about its databases. -/
structure Databases {σ : Type} (server : Server σ) where
  /-- The database of the connection. -/
  db : σ → Int32
  /-- The requests executed so far but SELECT, each with the database it was executed in. -/
  executed : σ → List (Int32 × List Bytes)
  /-- Replies are well formed. -/
  wellFormed (state : σ) (args : List Bytes) : (server.handle state args).1.WellFormed
  /-- A new connection starts in database 0; what was executed stays so. -/
  fresh (state : σ) : db (server.fresh state) = 0 ∧
    executed (server.fresh state) = executed state
  /-- SELECT changes the database, or it is answered by an error and changes nothing. -/
  select (state : σ) (args : List Bytes) (named : commandOf args = .select) (index : Int32)
    (asks : args.tail = [Decimal.intText index.toInt]) :
    executed (server.handle state args).2 = executed state ∧
      (((server.handle state args).1 = .status (ascii "OK") ∧
        db (server.handle state args).2 = index) ∨
      ((∃ text, (server.handle state args).1 = .error text) ∧
        db (server.handle state args).2 = db state))
  /-- Any other command is executed in the database of the connection. -/
  other (state : σ) (args : List Bytes) (named : commandOf args ≠ .select) :
    db (server.handle state args).2 = db state ∧
      executed (server.handle state args).2 = executed state ++ [(db state, args)]

variable {σ : Type} {server : Server σ}

namespace Redis2

/-- A request for a data command whose reply leaves nothing behind it. -/
def DataRequest (server : Server σ) (c : RedisCommand) (args : List Bytes) : Prop :=
  c.command ≠ .select ∧ c.command ≠ .multi ∧ ∀ state left,
    Refuses (RedisProtocol.typeRead true false c.command) (server.handle state args).1 left →
      left = []

/-- A `select` that keeps the chosen database that of the connection: it finds the connection open, or
the database of a new one is chosen, or the client knows that it is not selected, or SELECT is not
refused. -/
def KeepsSelected (r : Redis2 (Endpoint server)) (index : Int32) : Prop :=
  r.proto.isOpen.1 = true ∨ r.dbIndex = 0 ∨ r.dbIndexSelectFailure = true ∨
    ∀ text, (server.handle (server.fresh r.proto.tcpClient.os.peer.state)
      (requestOf (selectCommand index))).1 ≠ .error text

/-- Nothing is under way, and no transaction is open. -/
structure Plain (p : RedisProtocol (Endpoint server)) : Prop where
  /-- Nothing is under way. -/
  synced : p.Synced
  /-- The transaction mode is off. -/
  mode : p.transactionMode = false

/-- The database that is chosen is that of the connection, or it is going to be selected. -/
structure Tracks (laws : Databases server) (r : Redis2 (Endpoint server)) (chosen : Int32) :
    Prop where
  /-- Nothing is under way. -/
  plain : Plain r.proto
  /-- The client knows which database is chosen. -/
  chosen : r.dbIndex = chosen
  /-- It is that of the connection, or the client knows that it is not selected. -/
  database : r.proto.tcpClient.fd ≠ -1 → laws.db r.proto.tcpClient.os.peer.state = r.dbIndex ∨
    (r.dbIndex ≠ 0 ∧ r.dbIndexSelectFailure = true)

variable {laws : Databases server}

/-- Outside a transaction, only MULTI opens one. -/
theorem modeAfter_plain {command : Command} (notMulti : command ≠ .multi) (r : Reply) :
    RedisProtocol.modeAfter true false command r = false := by
  cases r with
  | status text => simp [RedisProtocol.modeAfter, RedisProtocol.modeAfterStatus, notMulti]
  | _ => rfl

/-- An exchange outside a transaction that leaves nothing behind it. -/
theorem Plain.exchanges {p p' : RedisProtocol (Endpoint server)} (plain : Plain p)
    {c c' : RedisCommand} (notMulti : c.command ≠ .multi) {r : Reply} {next : σ}
    (quiet : ∀ left, Refuses (p.replyType c) r left → left = []) {ok : Bool}
    (exchanges : Exchanges p c r next (.ok (ok, c', p'))) : Plain p' := by
  cases exchanges with
  | lost valid fd mode state reason => exact ⟨RedisProtocol.Valid.synced valid fd, mode⟩
  | accepted synced alive fd mode state accepts =>
    refine ⟨synced, ?_⟩
    rw [mode, plain.mode]
    exact modeAfter_plain notMulti r
  | @refused out _ left valid alive fd mode state unread refuses =>
    refine ⟨⟨valid, fun _ => ?_, fun _ => by rw [state]⟩, mode.trans plain.mode⟩
    rw [unread, quiet left refuses]
    rfl

/-- SELECT has an acceptable argument count. -/
theorem selectCommand_passes (index : Int32) : RedisProtocol.Passes (selectCommand index) := by
  change RedisProtocol.argcMatches 1 (toInt32 1) = true
  decide

/-- How SELECT turns out on the connection: nothing else is executed, and the connection is lost,
or the database stays and the client knows, or it is the one asked for. -/
theorem selectConnected_cases {r r' : Redis2 (Endpoint server)} (plain : Plain r.proto)
    {index : Int32} {ok : Bool} (returns : r.selectConnected index = .ok (ok, r')) :
    Plain r'.proto ∧
      laws.executed r'.proto.tcpClient.os.peer.state =
        laws.executed r.proto.tcpClient.os.peer.state ∧
      ((ok = false ∧ r'.proto.tcpClient.fd = -1 ∧ r'.dbIndex = r.dbIndex) ∨
      (ok = false ∧ r.proto.tcpClient.fd ≠ -1 ∧ r'.dbIndex = r.dbIndex ∧
        r'.dbIndexSelectFailure = r.dbIndexSelectFailure ∧
        laws.db r'.proto.tcpClient.os.peer.state = laws.db r.proto.tcpClient.os.peer.state ∧
        ∃ text, (server.handle r.proto.tcpClient.os.peer.state
          (requestOf (selectCommand index))).1 = .error text) ∨
      (ok = true ∧ r'.dbIndex = index ∧ r'.dbIndexSelectFailure = false ∧
        laws.db r'.proto.tcpClient.os.peer.state = index)) := by
  obtain ⟨answered, c', proto, sends, ends⟩ := selectConnected_returns returns
  have named : commandOf (requestOf (selectCommand index)) = .select :=
    (names_requestOf (selectCommand index) .select (by decide)).mpr rfl
  obtain ⟨same, law⟩ := laws.select r.proto.tcpClient.os.peer.state _ named index rfl
  have quiet := @RedisProtocol.quiet_of_status _ _ r.proto (selectCommand index) rfl
    (server.handle r.proto.tcpClient.os.peer.state (requestOf (selectCommand index))).1
  have other : (selectCommand index).command ≠ .multi := by
    change Command.select ≠ .multi
    decide
  rcases RedisProtocol.execCommand_cases plain.synced (selectCommand_small index) rfl
      (laws.wellFormed _ _) with ⟨refused, -⟩ | ⟨-, exchanges⟩
  · exact absurd (selectCommand_passes index) refused
  rw [sends] at exchanges
  have plain' := plain.exchanges other (fun left refuses => (quiet left refuses).1) exchanges
  cases exchanges with
  | lost valid fd mode state reason =>
    have kept : laws.executed proto.tcpClient.os.peer.state =
        laws.executed r.proto.tcpClient.os.peer.state := by
      rcases state with unchanged | ⟨-, next⟩
      · rw [unchanged]
      · rw [next, same]
    rcases ends with ⟨-, failed, rfl⟩ | ⟨wrong, -⟩
    · exact ⟨plain', kept, Or.inl ⟨failed, fd, rfl⟩⟩
    · cases wrong
  | accepted synced alive fd mode state accepts =>
    have readable := accepts.readable
    rcases law with ⟨status, selected⟩ | ⟨⟨text, error⟩, -⟩
    · rcases ends with ⟨wrong, -⟩ | ⟨-, good, text, rfl⟩
      · cases wrong
      · have yes : ok = true := by
          rw [good, status, RedisProtocol.replyType_status rfl]
          simp [RedisOutput.isStatusOk, denoteAs, denote]
        subst yes
        refine ⟨⟨⟨plain'.synced.valid, plain'.synced.stream, plain'.synced.pending⟩, plain'.mode⟩,
          ?_, Or.inr (Or.inr ⟨rfl, rfl, rfl, ?_⟩)⟩
        · change laws.executed proto.tcpClient.os.peer.state = _
          rw [state, same]
        · change laws.db proto.tcpClient.os.peer.state = _
          rw [state, selected]
    · rw [error] at readable
      cases readable
  | @refused out _ left valid alive fd mode state unread refuses =>
    rcases law with ⟨status, -⟩ | ⟨error, unchanged⟩
    · rw [status] at refuses
      exact absurd refuses (RedisProtocol.not_refuses (by simp) (by simp [IsArray]) left)
    · rcases ends with ⟨-, failed, rfl⟩ | ⟨wrong, -⟩
      · have kept : laws.executed proto.tcpClient.os.peer.state =
            laws.executed r.proto.tcpClient.os.peer.state := by rw [state, same]
        have stays : laws.db proto.tcpClient.os.peer.state =
            laws.db r.proto.tcpClient.os.peer.state := by rw [state, unchanged]
        exact ⟨plain', kept, Or.inr (Or.inl ⟨failed, by omega, rfl, rfl, stays, error⟩)⟩
      · cases wrong

/-- SELECT on a connection keeps the chosen database that of the connection, if the client knows
what it is before, or SELECT is not refused. -/
theorem selectConnected_tracks (r : Redis2 (Endpoint server)) {r' : Redis2 (Endpoint server)}
    {chosen : Int32}
    (plain : Plain r.proto) (same : r.dbIndex = chosen) {index : Int32}
    (known : r.proto.tcpClient.fd ≠ -1 →
      (laws.db r.proto.tcpClient.os.peer.state = r.dbIndex ∨
        (r.dbIndex ≠ 0 ∧ r.dbIndexSelectFailure = true)) ∨
      ∀ text, (server.handle r.proto.tcpClient.os.peer.state
        (requestOf (selectCommand index))).1 ≠ .error text) {ok : Bool}
    (returns : r.selectConnected index = .ok (ok, r')) :
    r'.Tracks laws (if ok then index else chosen) ∧
      laws.executed r'.proto.tcpClient.os.peer.state =
        laws.executed r.proto.tcpClient.os.peer.state ∧
      (ok = true → laws.db r'.proto.tcpClient.os.peer.state = r'.dbIndex) := by
  obtain ⟨plain', executed, ⟨rfl, fd, index'⟩ | ⟨rfl, alive, index', flag, db, text, error⟩ |
    ⟨rfl, index', flag, db⟩⟩ := selectConnected_cases plain returns
  · exact ⟨⟨plain', index'.trans same, fun alive => absurd fd alive⟩, executed, by simp⟩
  · refine ⟨⟨plain', index'.trans same, fun _ => ?_⟩, executed, by simp⟩
    rw [index', flag, db]
    exact (known alive).resolve_right fun accepted => accepted text error
  · exact ⟨⟨plain', index', fun _ => Or.inl (db.trans index'.symm)⟩, executed,
      fun _ => db.trans index'.symm⟩

/-- A look at the connection keeps it plain. -/
theorem Plain.looks {p p' : RedisProtocol (Endpoint server)} (plain : Plain p)
    (looks : p.Looks p') : Plain p' :=
  ⟨looks.synced plain.synced, looks.mode.trans plain.mode⟩

/-- So does a connection that was not made. -/
theorem Plain.shuts {p p' : RedisProtocol (Endpoint server)} (plain : Plain p)
    (shuts : p.Shuts p') : Plain p' :=
  ⟨RedisProtocol.Valid.synced shuts.valid shuts.fd,
    shuts.mode.elim (fun kept => kept.trans plain.mode) id⟩

/-- A new connection is plain. -/
theorem Plain.opens {p p' : RedisProtocol (Endpoint server)} (plain : Plain p)
    (opens : p.Opens p') : Plain p' :=
  ⟨opens.synced, opens.mode.trans plain.mode⟩

/-- A new connection is in database 0, and nothing is executed by making it. -/
theorem opens_database (laws : Databases server) {p p' : RedisProtocol (Endpoint server)}
    (opens : p.Opens p') :
    p'.tcpClient.os.peer.state = server.fresh p.tcpClient.os.peer.state ∧
      laws.db p'.tcpClient.os.peer.state = 0 ∧
      laws.executed p'.tcpClient.os.peer.state = laws.executed p.tcpClient.os.peer.state := by
  have state : p'.tcpClient.os.peer.state = server.fresh p.tcpClient.os.peer.state := by
    rw [opens.peer]
    rfl
  rw [state]
  exact ⟨rfl, laws.fresh _⟩

/-- What SELECT leaves true of the server is true behind a `select` on a connection. -/
theorem Plain.selectConnected_keeps {r r' : Redis2 (Endpoint server)}
    (wellFormed : ∀ state args, (server.handle state args).1.WellFormed) (kept : σ → Prop)
    (plain : Plain r.proto) {index : Int32}
    (selects : ∀ state, kept state → kept (server.handle state (requestOf (selectCommand index))).2)
    (start : kept r.proto.tcpClient.os.peer.state) {ok : Bool}
    (returns : r.selectConnected index = .ok (ok, r')) :
    kept r'.proto.tcpClient.os.peer.state := by
  obtain ⟨answered, c', proto, sends, ends⟩ := selectConnected_returns returns
  have state : r'.proto.tcpClient.os.peer.state = proto.tcpClient.os.peer.state := by
    rcases ends with ⟨-, -, rfl⟩ | ⟨-, -, text, rfl⟩
    · rfl
    · rfl
  rw [state]
  rcases RedisProtocol.execCommand_cases plain.synced (selectCommand_small index) rfl
      (wellFormed _ _) with ⟨refused, -⟩ | ⟨-, exchanges⟩
  · exact absurd (selectCommand_passes index) refused
  · rw [sends] at exchanges
    cases exchanges with
    | lost valid fd mode state reason =>
      rcases state with unchanged | ⟨-, next⟩
      · rw [unchanged]
        exact start
      · rw [next]
        exact selects _ start
    | accepted synced alive fd mode next accepts =>
      rw [next]
      exact selects _ start
    | refused valid alive fd mode next unread refuses =>
      rw [next]
      exact selects _ start

/-- What a new connection leaves true is true once there is one. -/
theorem Plain.assures_keeps {p p' : RedisProtocol (Endpoint server)} (kept : σ → Prop)
    (plain : Plain p) (fresh : ∀ state, kept state → kept (server.fresh state))
    (start : kept p.tcpClient.os.peer.state) {ok : Bool} {status : Int}
    (assures : p.assureConnect = (ok, status, p')) :
    Plain p' ∧ kept p'.tcpClient.os.peer.state := by
  rcases RedisProtocol.assureConnect_cases plain.synced.valid with
    ⟨p₁, same, -, -, looks, -⟩ | ⟨ok₁, status₁, p₁, same, -, -, shuts⟩ | ⟨p₁, same, -, opens⟩
  · cases same.symm.trans assures
    rw [looks.peer]
    exact ⟨plain.looks looks, start⟩
  · cases same.symm.trans assures
    rw [shuts.peer]
    exact ⟨plain.shuts shuts, start⟩
  · cases same.symm.trans assures
    have state : p'.tcpClient.os.peer.state = server.fresh p.tcpClient.os.peer.state := by
      rw [opens.peer]
      rfl
    rw [state]
    exact ⟨plain.opens opens, fresh _ start⟩

section Assured

variable {r r' : Redis2 (Endpoint server)}
  (wellFormed : ∀ state args, (server.handle state args).1.WellFormed) (kept : σ → Prop)
  (plain : Plain r.proto) (fresh : ∀ state, kept state → kept (server.fresh state))
  (start : kept r.proto.tcpClient.os.peer.state)

include wellFormed plain fresh start

/-- What both leave true is true behind `select`. -/
theorem Plain.select_keeps {index : Int32}
    (selects : ∀ state, kept state → kept (server.handle state (requestOf (selectCommand index))).2)
    {ok : Bool} (returns : r.select index = .ok (ok, r')) :
    kept r'.proto.tcpClient.os.peer.state := by
  cases assures : r.proto.assureConnect with
  | mk connected rest =>
    obtain ⟨status, p⟩ := rest
    obtain ⟨plain₁, start₁⟩ := plain.assures_keeps kept fresh start assures
    rw [select, assures] at returns
    cases connected with
    | false =>
      cases returns
      exact start₁
    | true =>
      change Redis2.selectConnected { r with proto := p } index = _ at returns
      exact Plain.selectConnected_keeps (r := { r with proto := p }) wellFormed kept plain₁ selects
        start₁ returns

/-- It is true behind `assure_connect`, which selects no other database than the remembered one. -/
theorem Plain.assureConnect_keeps
    (selects : ∀ state, kept state →
      kept (server.handle state (requestOf (selectCommand r.dbIndex))).2)
    {ok : Bool} (returns : r.assureConnect = .ok (ok, r')) :
    kept r'.proto.tcpClient.os.peer.state := by
  cases assures : r.proto.assureConnect with
  | mk connected rest =>
    obtain ⟨status, p⟩ := rest
    obtain ⟨plain₁, start₁⟩ := plain.assures_keeps kept fresh start assures
    have due {r₁ : Redis2 (Endpoint server)} (returns : r₁.assureDatabase = .ok (ok, r'))
        (same : r₁.proto = p) (index : r₁.dbIndex = r.dbIndex) :
        kept r'.proto.tcpClient.os.peer.state := by
      rw [assureDatabase] at returns
      split at returns
      · rw [index] at returns
        exact Plain.select_keeps wellFormed kept (same ▸ plain₁) fresh (same ▸ start₁) selects returns
      · cases returns
        exact same ▸ start₁
    rw [assureConnect, assures] at returns
    cases connected with
    | false =>
      cases returns
      exact start₁
    | true =>
      change (if status = 1 then assureDatabase (onReset { r with proto := p })
        else assureDatabase { r with proto := p }) = _ at returns
      split at returns
      · exact due returns rfl rfl
      · exact due returns rfl rfl

end Assured

/-- `select` keeps the chosen database that of the connection, unless it is refused on a connection
that it has just made. -/
theorem Tracks.select {r r' : Redis2 (Endpoint server)} {chosen : Int32}
    (tracks : r.Tracks laws chosen) {index : Int32}
    (keeps : r.KeepsSelected index) {ok : Bool}
    (returns : r.select index = .ok (ok, r')) :
    r'.Tracks laws (if ok then index else chosen) ∧
      laws.executed r'.proto.tcpClient.os.peer.state =
        laws.executed r.proto.tcpClient.os.peer.state ∧
      (ok = true → laws.db r'.proto.tcpClient.os.peer.state = r'.dbIndex) := by
  rw [Redis2.select] at returns
  rcases RedisProtocol.assureConnect_cases tracks.plain.synced.valid with
    ⟨p, assured, -, alive, looks, -⟩ | ⟨connected, status, p, assured, -, found, shuts⟩ |
    ⟨p, assured, found, opens⟩
  · rw [assured] at returns
    change Redis2.selectConnected { r with proto := p } index = _ at returns
    rw [← looks.peer]
    refine selectConnected_tracks { r with proto := p } (tracks.plain.looks looks)
      tracks.chosen (fun _ => Or.inl ?_) returns
    rw [looks.peer]
    exact tracks.database alive
  · rw [assured] at returns
    rw [← shuts.peer]
    cases connected with
    | false =>
      cases returns
      exact ⟨⟨tracks.plain.shuts shuts, tracks.chosen, fun alive => absurd shuts.fd alive⟩, rfl,
        by simp⟩
    | true =>
      change Redis2.selectConnected { r with proto := p } index = _ at returns
      exact selectConnected_tracks { r with proto := p } (tracks.plain.shuts shuts)
        tracks.chosen (fun alive => absurd shuts.fd alive) returns
  · rw [assured] at returns
    change Redis2.selectConnected { r with proto := p } index = _ at returns
    obtain ⟨state, db, executed⟩ := opens_database laws opens
    rw [← executed]
    refine selectConnected_tracks { r with proto := p } (tracks.plain.opens opens)
      tracks.chosen (fun _ => ?_) returns
    change (laws.db p.tcpClient.os.peer.state = r.dbIndex ∨ _) ∨ ∀ text,
      (server.handle p.tcpClient.os.peer.state _).1 ≠ _
    rw [db, state]
    by_cases first : r.dbIndex = 0
    · exact Or.inl (Or.inl first.symm)
    · rcases keeps with stillOpen | zero | flag | accepted
      · exact absurd (stillOpen.symm.trans found) (by decide)
      · exact absurd zero first
      · exact Or.inl (Or.inr ⟨first, flag⟩)
      · exact Or.inr accepted

/-- The database is selected if that is due; then it is that of the connection. -/
theorem Tracks.assureDatabase {r r' : Redis2 (Endpoint server)} {chosen : Int32}
    (tracks : r.Tracks laws chosen) {ok : Bool} (returns : r.assureDatabase = .ok (ok, r')) :
    r'.Tracks laws chosen ∧
      laws.executed r'.proto.tcpClient.os.peer.state =
        laws.executed r.proto.tcpClient.os.peer.state ∧
      (ok = true → r'.proto.tcpClient.fd ≠ -1 →
        laws.db r'.proto.tcpClient.os.peer.state = r'.dbIndex) := by
  rw [Redis2.assureDatabase] at returns
  by_cases due : (r.dbIndex != 0 && r.dbIndexSelectFailure) = true
  · rw [if_pos due] at returns
    obtain ⟨-, flag⟩ := Bool.and_eq_true_iff.mp due
    obtain ⟨tracks', executed, selected⟩ :=
      tracks.select (Or.inr (Or.inr (Or.inl flag))) returns
    rw [tracks.chosen, ite_self] at tracks'
    exact ⟨tracks', executed, fun good _ => selected good⟩
  · rw [if_neg due] at returns
    cases returns
    refine ⟨tracks, rfl, fun _ alive => ?_⟩
    rcases tracks.database alive with same | ⟨other, flag⟩
    · exact same
    · exact absurd (by simp [other, flag]) due

/-- After `assure_connect` the chosen database is that of the connection. -/
theorem Tracks.assureConnect {r r' : Redis2 (Endpoint server)} {chosen : Int32}
    (tracks : r.Tracks laws chosen) {ok : Bool} (returns : r.assureConnect = .ok (ok, r')) :
    r'.Tracks laws chosen ∧
      laws.executed r'.proto.tcpClient.os.peer.state =
        laws.executed r.proto.tcpClient.os.peer.state ∧
      (ok = true → r'.proto.tcpClient.fd ≠ -1 →
        laws.db r'.proto.tcpClient.os.peer.state = r'.dbIndex) := by
  rw [Redis2.assureConnect] at returns
  rcases RedisProtocol.assureConnect_cases tracks.plain.synced.valid with
    ⟨p, assured, -, alive, looks, -⟩ | ⟨connected, status, p, assured, one, found, shuts⟩ |
    ⟨p, assured, found, opens⟩
  · rw [assured] at returns
    change Redis2.assureDatabase { r with proto := p } = _ at returns
    have tracks₁ : ({ r with proto := p } : Redis2 (Endpoint server)).Tracks laws chosen := by
      refine ⟨tracks.plain.looks looks, tracks.chosen, fun _ => ?_⟩
      change laws.db p.tcpClient.os.peer.state = _ ∨ _
      rw [looks.peer]
      exact tracks.database alive
    rw [← looks.peer]
    exact tracks₁.assureDatabase returns
  · rw [assured] at returns
    have tracks₁ : ({ r with proto := p } : Redis2 (Endpoint server)).Tracks laws chosen :=
      ⟨tracks.plain.shuts shuts, tracks.chosen, fun alive => absurd shuts.fd alive⟩
    rw [← shuts.peer]
    cases connected with
    | false =>
      cases returns
      exact ⟨tracks₁, rfl, by simp⟩
    | true =>
      rw [one rfl] at returns
      change Redis2.assureDatabase (Redis2.onReset { r with proto := p }) = _ at returns
      have tracks₂ : (Redis2.onReset { r with proto := p }).Tracks laws chosen :=
        ⟨tracks₁.plain, tracks₁.chosen, fun alive => absurd shuts.fd alive⟩
      exact tracks₂.assureDatabase returns
  · rw [assured] at returns
    change Redis2.assureDatabase (Redis2.onReset { r with proto := p }) = _ at returns
    obtain ⟨-, db, executed⟩ := opens_database laws opens
    have tracks₁ : (Redis2.onReset { r with proto := p }).Tracks laws chosen := by
      refine ⟨tracks.plain.opens opens, tracks.chosen, fun _ => ?_⟩
      change laws.db p.tcpClient.os.peer.state = r.dbIndex ∨
        (r.dbIndex ≠ 0 ∧ (r.dbIndex != 0 || r.dbIndexSelectFailure) = true)
      rw [db]
      by_cases first : r.dbIndex = 0
      · exact Or.inl first.symm
      · exact Or.inr ⟨first, by simp [first]⟩
    rw [← executed]
    exact tracks₁.assureDatabase returns

/-- What is executed between two states of the server, all of it in this database. -/
def ExecutesIn (laws : Databases server) (chosen : Int32) (before after : σ) : Prop :=
  ∃ entries, laws.executed after = laws.executed before ++ entries ∧
    ∀ entry ∈ entries, entry.1 = chosen

/-- Nothing is executed. -/
theorem executesIn_nothing {chosen : Int32} {before after : σ}
    (same : laws.executed after = laws.executed before) : ExecutesIn laws chosen before after :=
  ⟨[], by rw [same, List.append_nil], by simp⟩

/-- A request that is no SELECT is executed in the database of the connection. -/
theorem executesIn_request {state : σ} {args : List Bytes} (other : commandOf args ≠ .select) :
    ExecutesIn laws (laws.db state) state (server.handle state args).2 := by
  refine ⟨[(laws.db state, args)], (laws.other state args other).2, fun entry member => ?_⟩
  rw [List.mem_singleton.mp member]

/-- A data command on a connection whose database is the chosen one: the chosen database stays that
of the connection, and the command is executed there if it is executed. -/
theorem Tracks.exchanges {r : Redis2 (Endpoint server)} {chosen : Int32}
    (tracks : r.Tracks laws chosen)
    (selected : r.proto.tcpClient.fd ≠ -1 → laws.db r.proto.tcpClient.os.peer.state = r.dbIndex)
    {c c' : RedisCommand} {args : List Bytes} (names : Names args c)
    (request : DataRequest server c args) {ok : Bool} {proto : RedisProtocol (Endpoint server)}
    (exchanges : Exchanges r.proto c (server.handle r.proto.tcpClient.os.peer.state args).1
      (server.handle r.proto.tcpClient.os.peer.state args).2 (.ok (ok, c', proto))) :
    ({ r with proto := proto } : Redis2 (Endpoint server)).Tracks laws chosen ∧
      ExecutesIn laws chosen r.proto.tcpClient.os.peer.state proto.tcpClient.os.peer.state := by
  obtain ⟨notSelect, notMulti, quiet⟩ := request
  have other : commandOf args ≠ .select := fun named =>
    notSelect ((names .select (by decide)).mp named)
  have executes (alive : r.proto.tcpClient.fd ≠ -1) : ExecutesIn laws chosen
      r.proto.tcpClient.os.peer.state (server.handle r.proto.tcpClient.os.peer.state args).2 := by
    have here := @executesIn_request _ _ laws r.proto.tcpClient.os.peer.state args other
    rw [selected alive, tracks.chosen] at here
    exact here
  have type : r.proto.replyType c = RedisProtocol.typeRead true false c.command := by
    rw [RedisProtocol.replyType, tracks.plain.mode]
  have plain := tracks.plain.exchanges notMulti
    (fun left refuses => quiet _ left (by rw [← type]; exact refuses)) exchanges
  have stays (alive : r.proto.tcpClient.fd ≠ -1)
      (state : proto.tcpClient.os.peer.state =
        (server.handle r.proto.tcpClient.os.peer.state args).2) :
      laws.db proto.tcpClient.os.peer.state = r.dbIndex := by
    rw [state, (laws.other _ args other).1, selected alive]
  cases exchanges with
  | lost valid fd mode state reason =>
    refine ⟨⟨plain, tracks.chosen, fun alive => absurd fd alive⟩, ?_⟩
    rcases state with unchanged | ⟨alive, next⟩
    · exact executesIn_nothing (by rw [unchanged])
    · rw [next]
      exact executes alive
  | accepted synced alive fd mode state accepts =>
    refine ⟨⟨plain, tracks.chosen, fun _ => Or.inl (stays (by omega) state)⟩, ?_⟩
    rw [state]
    exact executes (by omega)
  | @refused out _ left valid alive fd mode state unread refuses =>
    have next : proto.tcpClient.os.peer.state =
        (server.handle r.proto.tcpClient.os.peer.state args).2 := by rw [state]
    refine ⟨⟨plain, tracks.chosen, fun _ => Or.inl (stays (by omega) next)⟩, ?_⟩
    rw [next]
    exact executes (by omega)

/-- The error text and the blocking mode are no part of what is tracked. -/
theorem Tracks.frame {r : Redis2 (Endpoint server)} {chosen : Int32}
    (tracks : r.Tracks laws chosen) (error : Bytes) (blockingMode : Bool) :
    ({ r with proto := { r.proto with error := error, blockingMode := blockingMode } } :
      Redis2 (Endpoint server)).Tracks laws chosen :=
  ⟨⟨⟨tracks.plain.synced.valid, tracks.plain.synced.stream, tracks.plain.synced.pending⟩,
    tracks.plain.mode⟩, tracks.chosen, tracks.database⟩

/-- A data command that is sent is executed in the chosen database. -/
theorem Tracks.protoExecCommand {r r' : Redis2 (Endpoint server)} {chosen : Int32}
    (tracks : r.Tracks laws chosen)
    (selected : r.proto.tcpClient.fd ≠ -1 → laws.db r.proto.tcpClient.os.peer.state = r.dbIndex)
    {c c' : RedisCommand} (small : (commandText c).length < 2 ^ 31)
    (request : DataRequest server c (requestOf c)) {ok : Bool}
    (returns : r.protoExecCommand c = .ok (ok, c', r')) :
    r'.Tracks laws chosen ∧
      ExecutesIn laws chosen r.proto.tcpClient.os.peer.state r'.proto.tcpClient.os.peer.state := by
  obtain ⟨proto, sends, rfl⟩ := protoExecCommand_returns returns
  rcases RedisProtocol.execCommand_cases tracks.plain.synced small rfl (laws.wellFormed _ _) with
    ⟨-, text, refused⟩ | ⟨-, exchanges⟩
  · cases sends.symm.trans refused
    exact ⟨tracks.frame text r.proto.blockingMode, executesIn_nothing rfl⟩
  · rw [sends] at exchanges
    exact tracks.exchanges selected (names_requestOf c) request exchanges

/-- So is one that is made from a text. -/
theorem Tracks.protoExecCommandv {r r' : Redis2 (Endpoint server)} {chosen : Int32}
    (tracks : r.Tracks laws chosen)
    (selected : r.proto.tcpClient.fd ≠ -1 → laws.db r.proto.tcpClient.os.peer.state = r.dbIndex)
    {c c' : RedisCommand} {buf : Bytes}
    (small : (RedisProtocol.commandvText (RedisProtocol.splitWords buf)).length < 2 ^ 31)
    (request : DataRequest server (RedisProtocol.commandvOf c buf) (RedisProtocol.splitWords buf))
    {ok : Bool} (returns : r.protoExecCommandv c buf = .ok (ok, c', r')) :
    r'.Tracks laws chosen ∧
      ExecutesIn laws chosen r.proto.tcpClient.os.peer.state r'.proto.tcpClient.os.peer.state := by
  obtain ⟨proto, sends, rfl⟩ := protoExecCommandv_returns returns
  rcases RedisProtocol.execCommandv_cases tracks.plain.synced c small rfl (laws.wellFormed _ _) with
    ⟨text, c₁, refused⟩ | exchanges
  · cases sends.symm.trans refused
    exact ⟨tracks.frame text r.proto.blockingMode, executesIn_nothing rfl⟩
  · rw [sends] at exchanges
    exact tracks.exchanges selected (names_commandvOf c buf) request exchanges

/-- A call that first assures the connection executes in the chosen database what it executes
there. -/
theorem Tracks.assured {r r' : Redis2 (Endpoint server)} {chosen : Int32}
    (tracks : r.Tracks laws chosen) (c : RedisCommand) {c' : RedisCommand}
    (rest : Redis2 (Endpoint server) →
      Except Abort (Bool × RedisCommand × Redis2 (Endpoint server))) {ok : Bool}
    (returns : (r.assureConnect >>= fun (ok, r) => if !ok then pure (false, c, r) else rest r) =
      .ok (ok, c', r'))
    (sends : ∀ r₁ : Redis2 (Endpoint server), r₁.Tracks laws chosen →
      (r₁.proto.tcpClient.fd ≠ -1 → laws.db r₁.proto.tcpClient.os.peer.state = r₁.dbIndex) →
      rest r₁ = .ok (ok, c', r') → r'.Tracks laws chosen ∧
        ExecutesIn laws chosen r₁.proto.tcpClient.os.peer.state r'.proto.tcpClient.os.peer.state) :
    r'.Tracks laws chosen ∧
      ExecutesIn laws chosen r.proto.tcpClient.os.peer.state r'.proto.tcpClient.os.peer.state := by
  obtain ⟨⟨connected, r₁⟩, assures, ends⟩ := bind_returns returns
  obtain ⟨tracks₁, executed, selected⟩ := tracks.assureConnect assures
  cases connected with
  | false =>
    have fails : (.ok (false, c, r₁) : Except Abort _) = .ok (ok, c', r') := ends
    cases fails
    exact ⟨tracks₁, executesIn_nothing executed⟩
  | true =>
    obtain ⟨tracks', entries, more, all⟩ := sends r₁ tracks₁ (selected rfl) ends
    exact ⟨tracks', entries, by rw [more, executed], all⟩

/-- A client that has not connected yet knows which database is chosen. -/
theorem new_tracks (laws : Databases server) (host port : Bytes) (dbIndex : Int32) (timeout : Int)
    {os : Os (Endpoint server)} (silent : os.incoming = []) :
    (new host port dbIndex timeout os).Tracks laws dbIndex := by
  have valid : (RedisProtocol.new host port timeout os).Valid :=
    TcpClient.closed_valid rfl TcpClientBuffer.new_valid TcpClientBuffer.new_unread silent
  exact ⟨⟨RedisProtocol.Valid.synced valid rfl, rfl⟩, rfl, fun alive => absurd rfl alive⟩

/-- A server with the databases 0 and 1, that remembers what it has executed. -/
def twoDatabases : Server (Int32 × List (Int32 × List Bytes)) where
  fresh state := (0, state.2)
  handle state args :=
    if commandOf args = .select then
      if args.tail = [Decimal.intText 0] then (.status (ascii "OK"), 0, state.2)
      else if args.tail = [Decimal.intText 1] then (.status (ascii "OK"), 1, state.2)
      else (.error (ascii "ERR"), state)
    else (.bulk [], state.1, state.2 ++ [(state.1, args)])

/-- It keeps the promises about its databases. -/
def twoDatabasesLaws : Databases twoDatabases where
  db := Prod.fst
  executed := Prod.snd
  wellFormed state args := by
    have ok : (Reply.status (ascii "OK")).WellFormed := .status (by decide)
    have error : (Reply.error (ascii "ERR")).WellFormed := .error (by decide)
    simp only [twoDatabases]
    split_ifs
    · exact ok
    · exact ok
    · exact error
    · exact .bulk []
  fresh state := ⟨rfl, rfl⟩
  select state args named index asks := by
    have selects (number : Int32) (asked : args.tail = [Decimal.intText number.toInt]) :
        number = index := by
      have same := Decimal.intText_injective (List.singleton_inj.mp (asked.symm.trans asks))
      exact Int32.toInt_inj.mp same
    simp only [twoDatabases, if_pos named]
    split_ifs with zero one
    · exact ⟨rfl, Or.inl ⟨rfl, selects 0 zero⟩⟩
    · exact ⟨rfl, Or.inl ⟨rfl, selects 1 one⟩⟩
    · exact ⟨rfl, Or.inr ⟨⟨_, rfl⟩, rfl⟩⟩
  other state args named := by
    simp only [twoDatabases, if_neg named, and_self]

/-- A client of such a server that has not connected yet. -/
def twoDatabasesClient : Redis2 (Endpoint twoDatabases) :=
  new (ascii "localhost") (ascii "6379") 0 1000 (.start ⟨[], 0, []⟩ [])

/-- `GET k`. -/
def getKey : RedisCommand := ⟨.get, [ascii "k"], .none⟩

end Redis2

end LibRedis
