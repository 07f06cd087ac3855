import LibRedis.KeyCommands
import LibRedis.Pipeline
import Mathlib.Logic.Function.Basic

/-!
# A client for several servers with one host

With one host in one group a method about a key is that of the host's client, for every method but
`hsetnx`: it calls `hset`, which stores where `hsetnx` would not.
-/

namespace LibRedis

open Decimal (ascii)
open Resp (Reply)
open RedisProtocol (commandText requestOf Synced Healthy Exchanges)

namespace Redis2P

variable {κ : Type}

/-- One group of one host. -/
structure SingleHost (p : Redis2P κ) (client : κ) : Prop where
  /-- There is one group. -/
  groups : p.groups = 1
  /-- There is one client. -/
  clients : p.redis2SpVector = [client]

/-- What the constructor makes of one host and one partition. -/
theorem new_singleHost {hostList portList : Bytes} {dbIndex : Int32} {timeoutMs : Int}
    {hashFn : Bytes → UInt32} {newRedis2 : Nat → Bytes → Bytes → Int32 → Int → κ} {p : Redis2P κ}
    (accepted : new hostList portList dbIndex timeoutMs 1 hashFn newRedis2 = .ok p)
    (single : p.redis2SpVector.length = 1) :
    ∃ host port, p.SingleHost (newRedis2 0 host port dbIndex timeoutMs) := by
  obtain ⟨configured, made⟩ := new_configured accepted
  obtain ⟨client, one⟩ := List.length_eq_one_iff.mp single
  obtain ⟨host, port, rfl⟩ := made 0 client (by rw [one]; rfl)
  have groups := configured.length
  rw [single] at groups
  exact ⟨host, port, Nat.eq_one_of_mul_eq_one_right groups.symm, one⟩

/-- The group has one host. -/
theorem SingleHost.hostNum {p : Redis2P κ} {client : κ} (single : p.SingleHost client) :
    p.hostNum = 1 := by
  rw [Redis2P.hostNum, single.groups, single.clients]
  exact Nat.div_one 1

/-- It is configured as any other. -/
theorem SingleHost.configured {p : Redis2P κ} {client : κ} (single : p.SingleHost client) :
    p.Configured := by
  refine ⟨?_, ?_, ?_⟩
  · rw [single.groups]
    exact Nat.one_pos
  · rw [single.hostNum]
    exact Nat.one_pos
  · rw [single.hostNum, single.groups, single.clients]
    rfl

/-- Every key has the one host. -/
theorem SingleHost.replicas {p : Redis2P κ} {client : κ} (single : p.SingleHost client)
    (seed : Nat) (key : Bytes) : p.replicas seed key = [0] := by
  simp [Redis2P.replicas, single.groups, getKeyHostIndex, single.hostNum, Nat.mod_one]

/-- What is seen of a call: its outputs, and the clients behind it. -/
def seen {α : Type} (answer : Answer (Redis2P κ) α) : Except Abort (Option α × List κ) :=
  answer.map fun (out, p) => (out, p.redis2SpVector)

/-- The client of the host, called at its place. -/
theorem SingleHost.atIndex {β : Type} {p : Redis2P κ} {client : κ} (single : p.SingleHost client)
    (act : κ → Except Abort (β × κ)) :
    p.atIndex 0 act = (act client).map fun (out, client') =>
      (out, { p with redis2SpVector := [client'] }) := by
  unfold Redis2P.atIndex
  rw [single.clients]
  change (act client >>= _) = _
  cases act client with
  | error abort => rfl
  | ok result => rfl

variable [RedisBase2 κ]

/-- Both loops make the call of the client. -/
theorem SingleHost.forEachGroup {α : Type} {p : Redis2P κ} {client : κ}
    (single : p.SingleHost client) (t : ThreadId) (key : Bytes) (m : KeyMethod α) :
    seen (p.forEachGroupWrite t key m) =
        (RedisBase2.call client key m).map (fun (out, client') => (out, [client'])) ∧
      seen (p.forEachGroupRead t key m) =
        (RedisBase2.call client key m).map (fun (out, client') => (out, [client'])) := by
  rw [single.configured.forEachGroupWrite_eq, single.configured.forEachGroupRead_eq,
    single.replicas, writeEach, readEach, single.atIndex]
  cases RedisBase2.call client key m with
  | error abort => exact ⟨rfl, rfl⟩
  | ok result =>
    obtain ⟨out, client'⟩ := result
    cases out with
    | none => exact ⟨rfl, rfl⟩
    | some outputs => exact ⟨rfl, rfl⟩

/-- A method is that of the client, behind a check of its own. -/
theorem SingleHost.call_eq {α : Type} {p : Redis2P κ} {client : κ} (single : p.SingleHost client)
    (t : ThreadId) (key : Bytes) (m : KeyMethod α) :
    seen (p.call t key m) = if m.checks then
      (RedisBase2.call client key m.forwarded).map (fun (out, client') => (out, [client']))
      else .ok (none, [client]) := by
  obtain ⟨writes, reads⟩ := single.forEachGroup t key m.forwarded
  rw [Redis2P.call_eq, checkExpr]
  split_ifs with checked written
  · exact writes
  · exact reads
  · exact congrArg (fun clients => Except.ok (none, clients)) single.clients

end Redis2P

namespace Redis2

variable {π : Type} [Peer π] [Doubles]

end Redis2

variable {σ : Type} {server : Server σ}

namespace Redis2

/-- A connection that carries a command to the server, outside a transaction, and its reply back. -/
structure Carries (r : Redis2 (Endpoint server)) (c : RedisCommand) : Prop where
  /-- Nothing is under way. -/
  synced : r.proto.Synced
  /-- The transaction mode is off. -/
  mode : r.proto.transactionMode = false
  /-- The request can be sent. -/
  send : r.proto.CanSend
  /-- Bytes are handed over. -/
  delivers : r.proto.Delivers
  /-- `errno` is clean. -/
  clean : r.proto.CleanErrno
  /-- The length of the request is an `int`. -/
  small : (commandText c).length < 2 ^ 31

/-- Outside a transaction a reply is held to the type that is declared. -/
theorem Carries.replyType {r : Redis2 (Endpoint server)} {c : RedisCommand} (carries : r.Carries c)
    (declared : c.commandInfo.replyType = .integer) : r.proto.replyType c = .integer := by
  have declared' : c.command.commandInfo.replyType = .integer := declared
  simp [RedisProtocol.replyType, RedisProtocol.typeRead, RedisProtocol.expectedType, carries.mode,
    declared']

/-- A command that is answered by 0 or 1. -/
theorem Carries.integer {r : Redis2 (Endpoint server)} {c : RedisCommand} (carries : r.Carries c)
    (passes : RedisProtocol.Passes c) (declared : c.commandInfo.replyType = .integer)
    {value : Int} (isBit : value = 0 ∨ value = 1) {next : σ}
    (handles : server.handle r.serverState (requestOf c) = (.integer value, next)) :
    ∃ c' r', r.protoExecCommand c = .ok (true, c', r') ∧ c'.out = .i value ∧
      r'.serverState = next := by
  have short : (Decimal.intText value).length < RedisProtocol.readerLimits.line := by
    rcases isBit with rfl | rfl <;> decide
  have healthy : r.proto.Healthy (.integer value) :=
    ⟨carries.send, carries.delivers, carries.clean, .integer short⟩
  have accepts : Accepts (r.proto.replyType c) (.integer value) := by
    rw [carries.replyType declared]
    exact ⟨⟨value, rfl⟩, .integer (by omega) (by omega)⟩
  rcases RedisProtocol.execCommand_cases carries.synced carries.small handles (.integer value) with
    ⟨refused, -⟩ | ⟨-, exchanges⟩
  · exact absurd passes refused
  · rw [protoExecCommand]
    generalize r.proto.execCommand c = result at exchanges
    cases exchanges with
    | aborts reason => exact absurd healthy reason
    | lost valid fd mode state reason => exact absurd accepts (reason healthy).1
    | @accepted p' synced alive fd mode state accepts =>
      refine ⟨_, { r with proto := p' }, rfl, ?_, state⟩
      rw [carries.replyType declared]
      rfl
    | refused valid alive fd mode state unread refuses =>
      exact absurd refuses (RedisProtocol.not_refuses (by simp) (by simp [IsArray]) _)

/-- A command that is answered by an error. -/
theorem Carries.error {r : Redis2 (Endpoint server)} {c : RedisCommand} (carries : r.Carries c)
    (passes : RedisProtocol.Passes c) (declared : c.commandInfo.replyType = .integer)
    {text : Bytes} (line : ¬ Resp.crlf <:+: text)
    (short : text.length < RedisProtocol.readerLimits.line) {next : σ}
    (handles : server.handle r.serverState (requestOf c) = (.error text, next)) :
    ∃ c' r', r.protoExecCommand c = .ok (false, c', r') ∧ r'.serverState = next := by
  have healthy : r.proto.Healthy (.error text) :=
    ⟨carries.send, carries.delivers, carries.clean, .error short⟩
  have refuses : Refuses (r.proto.replyType c) (.error text) [] := Or.inl ⟨text, rfl, rfl⟩
  rcases RedisProtocol.execCommand_cases carries.synced carries.small handles (.error line) with
    ⟨refused, -⟩ | ⟨-, exchanges⟩
  · exact absurd passes refused
  · rw [protoExecCommand]
    generalize r.proto.execCommand c = result at exchanges
    cases exchanges with
    | aborts reason => exact absurd healthy reason
    | lost valid fd mode state reason => exact absurd refuses ((reason healthy).2 [])
    | accepted synced alive fd mode state accepts =>
      rw [carries.replyType declared] at accepts
      obtain ⟨⟨value, same⟩, -⟩ := accepts
      cases same
    | @refused out p' left valid alive fd mode state unread refuses =>
      refine ⟨_, { r with proto := p' }, rfl, ?_⟩
      exact congrArg Endpoint.state state

/-- What is seen of a call: its outputs, and the state of the server behind it. -/
def observed {α : Type} (answer : Answer (Redis2 (Endpoint server)) α) :
    Except Abort (Option α × σ) :=
  answer.map fun (out, r) => (out, r.serverState)

/-- HSET with its arguments. -/
def hsetCommand (key field value : Bytes) : RedisCommand :=
  ((keyed .hset key).pushArg field).pushArg value

/-- HSETNX with its arguments. -/
def hsetnxCommand (key field value : Bytes) : RedisCommand :=
  ((keyed .hsetnx key).pushArg field).pushArg value

/-- A connection that carries HSETNX carries HSET. -/
theorem Carries.hset {r : Redis2 (Endpoint server)} {key field value : Bytes}
    (carries : r.Carries (hsetnxCommand key field value)) :
    r.Carries (hsetCommand key field value) where
  synced := carries.synced
  mode := carries.mode
  send := carries.send
  delivers := carries.delivers
  clean := carries.clean
  small := by
    have longer := carries.small
    have hset : (RedisProtocol.bulkText (ascii "HSET")).length = 10 := by decide
    have hsetnx : (RedisProtocol.bulkText (ascii "HSETNX")).length = 12 := by decide
    change (ascii "*" ++ Decimal.intText (toInt32 [key, field, value].length + 1) ++ redisLineEnd ++
      RedisProtocol.bulkText (ascii "HSETNX") ++
      [key, field, value].flatMap RedisProtocol.bulkText).length < _ at longer
    change (ascii "*" ++ Decimal.intText (toInt32 [key, field, value].length + 1) ++ redisLineEnd ++
      RedisProtocol.bulkText (ascii "HSET") ++
      [key, field, value].flatMap RedisProtocol.bulkText).length < _
    simp only [List.length_append, hset, hsetnx] at longer ⊢
    omega

end Redis2

namespace Redis2P

section
variable [Doubles]

end

/-- A server that has nothing but hashes. -/
def hashServer : Server (Bytes → Bytes → Option Bytes) where
  fresh state := state
  handle state
    | [name, key, field, value] =>
      let next := Function.update state key (Function.update (state key) field (some value))
      if name = ascii "HSET" then (.integer (if (state key field).isSome then 0 else 1), next)
      else if name = ascii "HSETNX" then
        if (state key field).isSome then (.integer 0, state) else (.integer 1, next)
      else (.error (ascii "ERR"), state)
    | _ => (.error (ascii "ERR"), state)

/-- A client that is connected to such a server. -/
def hashClient (state : Bytes → Bytes → Option Bytes) : Redis2 (Endpoint hashServer) where
  proto := RedisProtocol.connected hashServer state
  dbIndex := 0
  dbIndexSelectFailure := false
  transactionCmds := []

end Redis2P

end LibRedis
