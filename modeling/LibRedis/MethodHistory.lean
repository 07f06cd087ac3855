import LibRedis.OneServerMethods
import LibRedis.WorkQueue

/-!
# Methods in the history of a server

A method sends one command and takes the reply apart: its request is in the history of the server once
or not at all, and what it returns is taken from the reply. So it is in every run of the methods that
only the client for one server has, whatever connections fail.
-/

namespace LibRedis

open RedisOutput (takeI takeBulk takeBulk2 takeMbulks takeMoved takePop takeStatusOk takeStatusPong)
open RedisProtocol (commandText requestOf)

namespace Redis2

section Pieces

variable {σ : Type} {server : Server σ}

/-- The piece of a history for a method: its request is executed once or not at all, and what it
returns is taken from the reply. -/
def MethodPiece {α : Type} (c : RedisCommand) (take : RedisOutput → Option α) (out : Option α)
    (entries : List Entry) : Prop :=
  ∃ selects own, entries = selects ++ own ∧ Selected selects ∧ ((own = [] ∧ out = none) ∨
    ∃ reply, own = [(requestOf c, reply)] ∧
      ∀ value, out = some value → take (denoteAs c.commandInfo.replyType reply) = some value)

variable {r r' : Redis2 (Endpoint server)} {c : RedisCommand} {α : Type}
  {take : RedisOutput → Option α} {out : Option α}

/-- A call of a command over a server that answers whole, and what a method makes of it. -/
theorem methodPiece_of_send (whole : AnswersWhole server) (synced : r.proto.Synced)
    {sending : Sending} (same : sending = .exec c ∨ sending = .blocking c) (small : sending.Small)
    (own : c.commandInfo.replyType = .status ∨ ∀ text, take (.status text) = none) {ok : Bool}
    {output : RedisOutput}
    {r₁ : Redis2 (Endpoint server)} (sends : r.send sending = .ok (ok, output, r₁))
    (ends : (ok = false ∧ out = none ∧ r' = r₁) ∨ (ok = true ∧ out = take output ∧ ∃ text,
      r' = { r₁ with proto := { r₁.proto with error := text } })) :
    r'.proto.Synced ∧ ∃ entries, server.History r.proto.served entries r'.proto.served ∧
      MethodPiece c take out entries := by
  obtain ⟨synced₁, entries, history, accounts⟩ := send_accounts whole synced small sends
  have falls : ∃ selects own, entries = selects ++ own ∧ Selected selects ∧
      Executed c.command (requestOf c) ok output own := by
    rcases same with rfl | rfl
    · exact accounts
    · exact accounts
  obtain ⟨selects, request, rfl, selected, executed⟩ := falls
  have leaves : r'.proto.Synced ∧ r'.proto.served = r₁.proto.served := by
    rcases ends with ⟨-, -, rfl⟩ | ⟨-, -, text, rfl⟩
    · exact ⟨synced₁, rfl⟩
    · exact ⟨⟨synced₁.valid, synced₁.stream, synced₁.pending⟩, rfl⟩
  refine ⟨leaves.1, selects ++ request, leaves.2 ▸ history, selects, request, rfl, selected, ?_⟩
  rcases executed with ⟨rfl, rfl⟩ | ⟨reply, rfl, succeeds⟩
  · rcases ends with ⟨-, failed, -⟩ | ⟨wrong, -⟩
    · exact Or.inl ⟨rfl, failed⟩
    · cases wrong
  · refine Or.inr ⟨reply, rfl, fun value is => ?_⟩
    rcases ends with ⟨-, failed, -⟩ | ⟨yes, taken, -⟩
    · cases failed.symm.trans is
    · obtain ⟨mode, accepts, rfl⟩ := succeeds yes
      rcases typeRead_cases mode c.command with status | declared
      · rcases own with declared | noStatus
        · rw [status, ← declared] at taken
          exact taken.symm.trans is
        · rw [status] at accepts taken
          obtain ⟨text, rfl⟩ := accepts
          cases (taken.trans (noStatus text)).symm.trans is
      · rw [declared] at taken
        exact taken.symm.trans is

/-- A method has its piece of the history. -/
theorem method_piece (whole : AnswersWhole server) (synced : r.proto.Synced)
    (small : (Sending.exec c).Small)
    (own : c.commandInfo.replyType = .status ∨ ∀ text, take (.status text) = none)
    (returns : r.method c take = .ok (out, r')) :
    r'.proto.Synced ∧ ∃ entries, server.History r.proto.served entries r'.proto.served ∧
      MethodPiece c take out entries := by
  obtain ⟨ok, c', r₁, executes, ends⟩ := method_returns returns
  have sends : r.send (.exec c) = .ok (ok, c'.out, r₁) := by
    rw [send, executes]
    rfl
  exact methodPiece_of_send whole synced (Or.inl rfl) small own sends ends

/-- So has a method that blocks. -/
theorem blockingMethod_piece (whole : AnswersWhole server) (synced : r.proto.Synced)
    (small : (Sending.blocking c).Small)
    (own : c.commandInfo.replyType = .status ∨ ∀ text, take (.status text) = none)
    (returns : r.blockingMethod c take = .ok (out, r')) :
    r'.proto.Synced ∧ ∃ entries, server.History r.proto.served entries r'.proto.served ∧
      MethodPiece c take out entries := by
  obtain ⟨ok, c', r₁, executes, ends⟩ := blockingMethod_returns returns
  have sends : r.send (.blocking c) = .ok (ok, c'.out, r₁) := by
    rw [send, executes]
    rfl
  exact methodPiece_of_send whole synced (Or.inr rfl) small own sends ends

end Pieces

/-- A call of a method that only the client for one server has. -/
inductive OneServerCall where
  /-- `del` of several keys. -/
  | delKeys (keys : List Bytes)
  /-- `mget`. -/
  | mget (keys : List Bytes)
  /-- `mset`. -/
  | mset (keys values : List Bytes)
  /-- `rename`. -/
  | rename (key newkey : Bytes)
  /-- `renamenx`. -/
  | renamenx (key newkey : Bytes)
  /-- `sdiff`. -/
  | sdiff (keys : List Bytes)
  /-- `sdiffstore`. -/
  | sdiffstore (destination : Bytes) (keys : List Bytes)
  /-- `sinter`. -/
  | sinter (keys : List Bytes)
  /-- `sinterstore`. -/
  | sinterstore (destination : Bytes) (keys : List Bytes)
  /-- `smove`. -/
  | smove (source destination member : Bytes)
  /-- `sunion`. -/
  | sunion (keys : List Bytes)
  /-- `sunionstore`. -/
  | sunionstore (destination : Bytes) (keys : List Bytes)
  /-- `zinterstore`. -/
  | zinterstore (destination : Bytes) (keys : List Bytes) (weights : Option (List Double))
      (agg : ZUnionstoreAggregate)
  /-- `zunionstore`. -/
  | zunionstore (destination : Bytes) (keys : List Bytes) (weights : Option (List Double))
      (agg : ZUnionstoreAggregate)
  /-- `blpop`. -/
  | blpop (keys : List Bytes) (timeout : Int64)
  /-- `brpop`. -/
  | brpop (keys : List Bytes) (timeout : Int64)
  /-- `brpoplpush`. -/
  | brpoplpush (source destination : Bytes) (timeout : Int64)
  /-- `rpoplpush`. -/
  | rpoplpush (source destination : Bytes)
  /-- `publish`. -/
  | publish (channel message : Bytes)
  /-- `ping`. -/
  | ping
  /-- `bgrewriteaof`. -/
  | bgrewriteaof
  /-- `bgsave`. -/
  | bgsave
  /-- `dbsize`. -/
  | dbsize
  /-- `info`. -/
  | info
  /-- `info` of a type. -/
  | infoOf (type : Bytes)
  /-- `lastsave`. -/
  | lastsave
  /-- `slaveof`. -/
  | slaveof (host port : Bytes)

/-- What such a call returns with true. -/
inductive OneServerResult where
  /-- Nothing more. -/
  | done
  /-- A number. -/
  | number (value : Int)
  /-- A text. -/
  | text (bytes : Bytes)
  /-- A bulk, or nil. -/
  | bulk (value : Option Bytes)
  /-- A vector of bulks. -/
  | bulks (values : Mbulk)
  /-- A key and a member, or expired. -/
  | popped (value : Option (Bytes × Bytes))

/-- What a method returns, as the result of a call. -/
def answering {π α : Type} (result : α → OneServerResult) (answer : Answer (Redis2 π) α) :
    Answer (Redis2 π) OneServerResult :=
  answer.map fun (out, r) => (out.map result, r)

/-- What a call returns and leaves. -/
def performOneServer {π : Type} [Peer π] [Doubles] (r : Redis2 π) :
    OneServerCall → Answer (Redis2 π) OneServerResult
  | .delKeys keys => answering .number (r.delKeys keys)
  | .mget keys => answering .bulks (r.mget keys)
  | .mset keys values => answering (fun _ => .done) (r.mset keys values)
  | .rename key newkey => answering (fun _ => .done) (r.rename key newkey)
  | .renamenx key newkey => answering .number (r.renamenx key newkey)
  | .sdiff keys => answering .bulks (r.sdiff keys)
  | .sdiffstore destination keys => answering .number (r.sdiffstore destination keys)
  | .sinter keys => answering .bulks (r.sinter keys)
  | .sinterstore destination keys => answering .number (r.sinterstore destination keys)
  | .smove source destination member => answering .number (r.smove source destination member)
  | .sunion keys => answering .bulks (r.sunion keys)
  | .sunionstore destination keys => answering .number (r.sunionstore destination keys)
  | .zinterstore destination keys weights agg =>
    answering .number (r.zinterstore destination keys weights agg)
  | .zunionstore destination keys weights agg =>
    answering .number (r.zunionstore destination keys weights agg)
  | .blpop keys timeout => answering .popped (r.blpopKeys keys timeout)
  | .brpop keys timeout => answering .popped (r.brpopKeys keys timeout)
  | .brpoplpush source destination timeout =>
    answering .bulk (r.brpoplpush source destination timeout)
  | .rpoplpush source destination => answering .bulk (r.rpoplpush source destination)
  | .publish channel message => answering .number (r.publish channel message)
  | .ping => answering (fun _ => .done) r.ping
  | .bgrewriteaof => r.bgrewriteaof.map fun (ok, r) => (if ok then some .done else none, r)
  | .bgsave => answering (fun _ => .done) r.bgsave
  | .dbsize => answering .number r.dbsize
  | .info => answering .text r.info
  | .infoOf type => answering .text (r.infoOf type)
  | .lastsave => answering .number r.lastsave
  | .slaveof host port => answering (fun _ => .done) (r.slaveof host port)

/-- The command that a call sends, unless its vectors have different sizes. -/
def OneServerCall.command [Doubles] : OneServerCall → Option RedisCommand
  | .delKeys keys => some (withKeys .del [] keys)
  | .mget keys => some (withKeys .mget [] keys)
  | .mset keys values =>
    if keys.length = values.length then some (withKeys .mset [] (interleave keys values)) else none
  | .rename key newkey => some ((keyed .rename key).pushArg newkey)
  | .renamenx key newkey => some ((keyed .renamenx key).pushArg newkey)
  | .sdiff keys => some (withKeys .sdiff [] keys)
  | .sdiffstore destination keys => some (withKeys .sdiffstore [destination] keys)
  | .sinter keys => some (withKeys .sinter [] keys)
  | .sinterstore destination keys => some (withKeys .sinterstore [destination] keys)
  | .smove source destination member =>
    some (((keyed .smove source).pushArg destination).pushArg member)
  | .sunion keys => some (withKeys .sunion [] keys)
  | .sunionstore destination keys => some (withKeys .sunionstore [destination] keys)
  | .zinterstore destination keys weights agg =>
    some (zxxxxxstoreCommand true destination keys weights agg)
  | .zunionstore destination keys weights agg =>
    some (zxxxxxstoreCommand false destination keys weights agg)
  | .blpop keys timeout => some (bxpopCommand true keys timeout)
  | .brpop keys timeout => some (bxpopCommand false keys timeout)
  | .brpoplpush source destination timeout =>
    some (((keyed .brpoplpush source).pushArg destination).pushInt timeout.toInt)
  | .rpoplpush source destination => some ((keyed .rpoplpush source).pushArg destination)
  | .publish channel message => some ((keyed .publish channel).pushArg message)
  | .ping => some (.new .ping)
  | .bgrewriteaof => some (.new .bgrewriteaof)
  | .bgsave => some (.new .bgsave)
  | .dbsize => some (.new .dbsize)
  | .info => some (.new .info)
  | .infoOf type => some (keyed .info type)
  | .lastsave => some (.new .lastsave)
  | .slaveof host port => some ((keyed .slaveof host).pushArg port)

/-- What a call takes out of the reply. -/
def OneServerCall.take : OneServerCall → RedisOutput → Option OneServerResult
  | .delKeys _ | .renamenx _ _ | .sdiffstore _ _ | .sinterstore _ _ | .smove _ _ _
  | .sunionstore _ _ | .zinterstore _ _ _ _ | .zunionstore _ _ _ _ | .publish _ _ | .dbsize
  | .lastsave => fun output => (takeI output).map .number
  | .mget _ | .sdiff _ | .sinter _ | .sunion _ => fun output => (takeMbulks output).map .bulks
  | .mset _ _ | .rename _ _ | .bgsave | .slaveof _ _ =>
    fun output => (takeStatusOk output).map fun _ => .done
  | .blpop _ _ | .brpop _ _ => fun output => (takePop output).map .popped
  | .brpoplpush _ _ _ => fun output => (takeMoved output).map .bulk
  | .rpoplpush _ _ => fun output => (takeBulk output).map .bulk
  | .ping => fun output => (takeStatusPong output).map fun _ => .done
  | .bgrewriteaof => fun output => if output.isStatus then some .done else none
  | .info | .infoOf _ => fun output => (takeBulk2 output).map .text

/-- A call whose request fits into an `int`. -/
def OneServerCall.Small [Doubles] (call : OneServerCall) : Prop :=
  ∀ c, call.command = some c → (commandText c).length < 2 ^ 31

/-- The piece of a history for a call: nothing for vectors of different sizes, and otherwise that of a
method. -/
def OneServerCall.Accounts [Doubles] (call : OneServerCall) (out : Option OneServerResult)
    (entries : List Entry) : Prop :=
  match call.command with
  | none => entries = [] ∧ out = none
  | some c => MethodPiece c call.take out entries

/-- A call that returns. -/
def PerformsOneServer {σ : Type} {server : Server σ} [Doubles] (r : Redis2 (Endpoint server))
    (label : OneServerCall × Option OneServerResult) (r' : Redis2 (Endpoint server)) : Prop :=
  label.1.Small ∧ r.performOneServer label.1 = .ok (label.2, r')

section Calls

variable {σ : Type} {server : Server σ} {r r' : Redis2 (Endpoint server)}

/-- What a method returns is taken from the reply as the result of the call, too. -/
theorem answering_piece {α : Type} {answer : Answer (Redis2 (Endpoint server)) α} {c : RedisCommand}
    {take : RedisOutput → Option α} {result : α → OneServerResult} {out : Option OneServerResult}
    (piece : ∀ {out : Option α}, answer = .ok (out, r') → r'.proto.Synced ∧ ∃ entries,
      server.History r.proto.served entries r'.proto.served ∧ MethodPiece c take out entries)
    (returns : answering result answer = .ok (out, r')) :
    r'.proto.Synced ∧ ∃ entries, server.History r.proto.served entries r'.proto.served ∧
      MethodPiece c (fun output => (take output).map result) out entries := by
  obtain ⟨⟨taken, r₁⟩, answers, same⟩ := map_returns returns
  cases same
  obtain ⟨synced, entries, history, selects, own, falls, selected, executed⟩ := piece answers
  refine ⟨synced, entries, history, selects, own, falls, selected, ?_⟩
  rcases executed with ⟨nothing, failed⟩ | ⟨reply, once, told⟩
  · exact Or.inl ⟨nothing, by rw [failed]; rfl⟩
  · refine Or.inr ⟨reply, once, fun value is => ?_⟩
    obtain ⟨outputs, some, rfl⟩ := Option.map_eq_some_iff.mp is
    exact Option.map_eq_some_iff.mpr ⟨outputs, told outputs some, rfl⟩

/-- Every call adds its piece to the history: there is one case for each way to take the reply
apart. -/
theorem performOneServer_accounts [Doubles] (whole : AnswersWhole server) (synced : r.proto.Synced)
    {call : OneServerCall} (small : call.Small) {out : Option OneServerResult}
    (returns : r.performOneServer call = .ok (out, r')) :
    r'.proto.Synced ∧ ∃ entries, server.History r.proto.served entries r'.proto.served ∧
      call.Accounts out entries := by
  cases call with
  | delKeys | renamenx | sdiffstore | sinterstore | smove | sunionstore | zinterstore | zunionstore
  | publish | dbsize | lastsave | mget | sdiff | sinter | sunion | rpoplpush | info | infoOf =>
    exact answering_piece (method_piece whole synced (small _ rfl) (Or.inr fun _ => rfl)) returns
  | rename | bgsave | slaveof | ping =>
    exact answering_piece (method_piece whole synced (small _ rfl) (Or.inl rfl)) returns
  | blpop | brpop | brpoplpush =>
    exact answering_piece (blockingMethod_piece whole synced (small _ rfl) (Or.inr fun _ => rfl))
      returns
  | mset keys values =>
    by_cases equal : keys.length = values.length
    · have command : (OneServerCall.mset keys values).command =
          some (withKeys .mset [] (interleave keys values)) := if_pos equal
      have sends : r.mset keys values =
          r.method (withKeys .mset [] (interleave keys values)) takeStatusOk := by
        rw [mset, checkExpr, if_pos (by simpa using equal)]
      unfold OneServerCall.Accounts
      rw [command]
      change answering _ (r.mset keys values) = _ at returns
      rw [sends] at returns
      exact answering_piece (method_piece whole synced (small _ command) (Or.inl rfl)) returns
    · have command : (OneServerCall.mset keys values).command = none := if_neg equal
      unfold OneServerCall.Accounts
      rw [command]
      change answering _ (r.mset keys values) = _ at returns
      rw [mset, checkExpr, if_neg (by simpa using equal)] at returns
      cases returns
      exact ⟨⟨synced.valid, synced.stream, synced.pending⟩, [], .idle _, rfl, rfl⟩
  | bgrewriteaof =>
    obtain ⟨⟨ok, r₁⟩, rewrites, same⟩ := map_returns returns
    cases same
    obtain ⟨⟨sent, c, r₂⟩, executes, ends⟩ := bind_returns rewrites
    have sends : r.send (.exec (.new .bgrewriteaof)) = .ok (sent, c.out, r₂) := by
      rw [send, executes]
      rfl
    refine methodPiece_of_send whole synced (Or.inl rfl) (small _ rfl) (Or.inl rfl) sends ?_
    cases sent with
    | false =>
      cases ends
      exact Or.inl ⟨rfl, rfl, rfl⟩
    | true =>
      cases ends
      exact Or.inr ⟨rfl, rfl, _, rfl⟩

/-- In every run of a new client, whatever connections fail, the history of the server falls into one
piece for each call, in the order of the calls: its request is executed once or not at all, and what
it returns is taken from the reply. -/
theorem methods_executed_once [Doubles] (whole : AnswersWhole server) (host port : Bytes)
    (dbIndex : Int32) (timeout : Int) {os : Os (Endpoint server)} (silent : os.incoming = [])
    {labels : List (OneServerCall × Option OneServerResult)}
    (run : Simulation.Run PerformsOneServer (new host port dbIndex timeout os) labels r') :
    ∃ pieces, List.Forall₂ (fun label entries => label.1.Accounts label.2 entries) labels pieces ∧
      server.History os.peer.state pieces.flatten r'.proto.served :=
  run.pieces (fun r entries r' => server.History r.proto.served entries r'.proto.served)
    (fun r => .idle r.proto.served) (fun before behind => before.append behind)
    (fun _ _ _ synced performs => performOneServer_accounts whole synced performs.1 performs.2)
    (new_synced host port dbIndex timeout silent)

/-- A call about several keys that is given none. -/
def OneServerCall.WithoutKeys : OneServerCall → Prop
  | .delKeys keys | .mget keys | .sdiff keys | .sinter keys | .sunion keys
  | .sdiffstore _ keys | .sinterstore _ keys | .sunionstore _ keys => keys = []
  | _ => False

/-- Without a key a method about several returns false, and no request of its own is executed. -/
theorem performOneServer_without_keys [Doubles] (whole : AnswersWhole server)
    (synced : r.proto.Synced) {call : OneServerCall} (without : call.WithoutKeys)
    {out : Option OneServerResult} (returns : r.performOneServer call = .ok (out, r')) :
    out = none ∧ ∃ entries, server.History r.proto.served entries r'.proto.served ∧
      Selected entries := by
  have refused {command : Command} (before : List Bytes) {α : Type}
      {take : RedisOutput → Option α} {result : α → OneServerResult}
      (asks : command.commandInfo.argc = -((before.length : Int) + 1))
      (checked : command.commandInfo.argc ≠ argcNoChecking) (few : before.length < 2 ^ 31)
      (returns : answering result (r.method (withKeys command before []) take) = .ok (out, r')) :
      out = none ∧ ∃ entries, server.History r.proto.served entries r'.proto.served ∧
        Selected entries := by
    obtain ⟨⟨taken, r₁⟩, answers, same⟩ := map_returns returns
    cases same
    obtain ⟨rfl, ok, connected, assures, kept⟩ := method_without_keys asks checked few answers
    obtain ⟨-, entries, history, selected⟩ := assureConnect_accounts whole synced assures
    have same : r'.proto.served = connected.proto.served :=
      congrArg (fun client => client.os.peer.state) kept
    exact ⟨rfl, entries, same ▸ history, selected⟩
  cases call with
  | delKeys keys | mget keys | sdiff keys | sinter keys | sunion keys =>
    subst without
    exact refused [] rfl (by decide) (by decide) returns
  | sdiffstore destination keys | sinterstore destination keys | sunionstore destination keys =>
    subst without
    exact refused [destination] rfl (by decide) (by simp) returns
  | _ => cases without

end Calls

end Redis2

end LibRedis
