import LibRedis.RedisMethods
import LibRedis.Request

/-!
# Methods that only the client for one server has

The methods about several keys send one command with all of them, and the methods about the server
none. A vector of keys without a key is refused before anything is sent.
-/

namespace LibRedis

open Decimal (ascii)

namespace RedisOutput

/-- `CHECK_STATUS_PONG`. -/
def takeStatusPong : RedisOutput → Option Unit
  | .status text => if text == ascii "PONG" then some () else Option.none
  | _ => Option.none

/-- `is_status`. -/
def isStatus : RedisOutput → Bool
  | .status _ => true
  | _ => false

/-- `GET_BULK_REPLY2`. -/
def takeBulk2 : RedisOutput → Option Bytes
  | .bulk bytes => some bytes
  | _ => Option.none

end RedisOutput

/-- A command with some arguments and a vector of keys. -/
def withKeys (command : Command) (before keys : List Bytes) : RedisCommand :=
  ((RedisCommand.new command).pushArgs before).pushArgs keys

/-- Its argument count is acceptable if there is a key, for a command of the table that asks for one.
-/
theorem withKeys_passes_iff {command : Command} {before keys : List Bytes}
    (asks : command.commandInfo.argc = -((before.length : Int) + 1))
    (checked : command.commandInfo.argc ≠ argcNoChecking)
    (few : before.length + keys.length < 2 ^ 31) :
    RedisProtocol.Passes (withKeys command before keys) ↔ keys ≠ [] := by
  have length : (withKeys command before keys).args.length = before.length + keys.length := by
    simp [withKeys, RedisCommand.new, RedisCommand.pushArgs]
  have given : toInt32 (withKeys command before keys).args.length = before.length + keys.length := by
    rw [length, Os.toInt32_small few]
    push_cast
    rfl
  change RedisProtocol.argcMatches command.commandInfo.argc _ = true ↔ _
  rw [given, RedisProtocol.argcMatches, if_neg checked, if_neg (by omega), ← List.length_pos_iff]
  simp only [Bool.not_eq_true', decide_eq_false_iff_not, asks]
  omega

/-- Without a key a method about several returns false, and sends no more than connecting sends. -/
theorem Redis2.method_without_keys {π : Type} [Peer π] {command : Command} {before : List Bytes}
    (asks : command.commandInfo.argc = -((before.length : Int) + 1))
    (checked : command.commandInfo.argc ≠ argcNoChecking) (few : before.length < 2 ^ 31)
    {α : Type} {take : RedisOutput → Option α} {r r' : Redis2 π} {out : Option α}
    (returns : r.method (withKeys command before []) take = .ok (out, r')) :
    out = none ∧ ∃ ok connected, r.assureConnect = .ok (ok, connected) ∧
      r'.proto.tcpClient = connected.proto.tcpClient := by
  obtain ⟨⟨ok, c, r₁⟩, executes, taken⟩ := bind_returns returns
  obtain ⟨⟨connects, connected⟩, assures, goesOn⟩ := bind_returns executes
  have fails : ok = false ∧ r₁.proto.tcpClient = connected.proto.tcpClient := by
    cases connects with
    | false =>
      cases goesOn
      exact ⟨rfl, rfl⟩
    | true =>
      have refused : ¬ RedisProtocol.Passes (withKeys command before []) := fun passes =>
        (withKeys_passes_iff asks checked (by simpa using few)).mp passes rfl
      obtain ⟨text, write⟩ := RedisProtocol.writeCommand_refused refused connected.proto
      have execute : connected.protoExecCommand (withKeys command before []) = .ok (false,
          { withKeys command before [] with out := .error text },
          { connected with proto := { connected.proto with error := text } }) := by
        rw [protoExecCommand, RedisProtocol.execCommand, write]
        rfl
      cases execute.symm.trans goesOn
      exact ⟨rfl, rfl⟩
  obtain ⟨rfl, same⟩ := fails
  cases taken
  exact ⟨rfl, _, _, assures, same⟩

/-- `kZUnionstoreAggregate`. -/
inductive ZUnionstoreAggregate where
  | sum
  | min
  | max

namespace Redis2

open RedisOutput (takeI takeBulk takeMbulks takeStatusOk takeStatusPong takeBulk2)

variable {π : Type} [Peer π]

/-- `del` of several keys. -/
def delKeys (r : Redis2 π) (keys : List Bytes) : Answer (Redis2 π) Int :=
  r.method (withKeys .del [] keys) takeI

/-- `mget`. -/
def mget (r : Redis2 π) (keys : List Bytes) : Answer (Redis2 π) Mbulk :=
  r.method (withKeys .mget [] keys) takeMbulks

/-- `mset`. -/
def mset (r : Redis2 π) (keys values : List Bytes) : Answer (Redis2 π) Unit :=
  r.checkExpr (keys.length = values.length)
    (r.method (withKeys .mset [] (interleave keys values)) takeStatusOk)

/-- `rename`. -/
def rename (r : Redis2 π) (key newkey : Bytes) : Answer (Redis2 π) Unit :=
  r.method ((keyed .rename key).pushArg newkey) takeStatusOk

/-- `renamenx`. -/
def renamenx (r : Redis2 π) (key newkey : Bytes) : Answer (Redis2 π) Int :=
  r.method ((keyed .renamenx key).pushArg newkey) takeI

/-- `sdiff`. -/
def sdiff (r : Redis2 π) (keys : List Bytes) : Answer (Redis2 π) Mbulk :=
  r.method (withKeys .sdiff [] keys) takeMbulks

/-- `sdiffstore`. -/
def sdiffstore (r : Redis2 π) (destination : Bytes) (keys : List Bytes) : Answer (Redis2 π) Int :=
  r.method (withKeys .sdiffstore [destination] keys) takeI

/-- `sinter`. -/
def sinter (r : Redis2 π) (keys : List Bytes) : Answer (Redis2 π) Mbulk :=
  r.method (withKeys .sinter [] keys) takeMbulks

/-- `sinterstore`. -/
def sinterstore (r : Redis2 π) (destination : Bytes) (keys : List Bytes) : Answer (Redis2 π) Int :=
  r.method (withKeys .sinterstore [destination] keys) takeI

/-- `smove`. -/
def smove (r : Redis2 π) (source destination member : Bytes) : Answer (Redis2 π) Int :=
  r.method (((keyed .smove source).pushArg destination).pushArg member) takeI

/-- `sunion`. -/
def sunion (r : Redis2 π) (keys : List Bytes) : Answer (Redis2 π) Mbulk :=
  r.method (withKeys .sunion [] keys) takeMbulks

/-- `sunionstore`. -/
def sunionstore (r : Redis2 π) (destination : Bytes) (keys : List Bytes) : Answer (Redis2 π) Int :=
  r.method (withKeys .sunionstore [destination] keys) takeI

/-- The command of `zxxxxxstore`. -/
def zxxxxxstoreCommand [Doubles] (isZinterstore : Bool) (destination : Bytes) (keys : List Bytes)
    (weights : Option (List Double)) (agg : ZUnionstoreAggregate) : RedisCommand :=
  let c := withKeys (if isZinterstore then .zinterstore else .zunionstore)
    [destination, Decimal.text keys.length] keys
  let c := match weights with
    | some weights => (c.pushArg (ascii "WEIGHTS")).pushArgs (weights.map Doubles.text)
    | none => c
  match agg with
  | .sum => c
  | .min => (c.pushArg (ascii "AGGREGATE")).pushArg (ascii "MIN")
  | .max => (c.pushArg (ascii "AGGREGATE")).pushArg (ascii "MAX")

/-- `zxxxxxstore`. -/
def zxxxxxstore [Doubles] (r : Redis2 π) (isZinterstore : Bool) (destination : Bytes)
    (keys : List Bytes) (weights : Option (List Double)) (agg : ZUnionstoreAggregate) :
    Answer (Redis2 π) Int :=
  r.method (zxxxxxstoreCommand isZinterstore destination keys weights agg) takeI

/-- `zinterstore`. -/
def zinterstore [Doubles] (r : Redis2 π) (destination : Bytes) (keys : List Bytes)
    (weights : Option (List Double)) (agg : ZUnionstoreAggregate) : Answer (Redis2 π) Int :=
  r.zxxxxxstore true destination keys weights agg

/-- `zunionstore`. -/
def zunionstore [Doubles] (r : Redis2 π) (destination : Bytes) (keys : List Bytes)
    (weights : Option (List Double)) (agg : ZUnionstoreAggregate) : Answer (Redis2 π) Int :=
  r.zxxxxxstore false destination keys weights agg

/-- `publish`. -/
def publish (r : Redis2 π) (channel message : Bytes) : Answer (Redis2 π) Int :=
  r.method ((keyed .publish channel).pushArg message) takeI

/-- `ping`. -/
def ping (r : Redis2 π) : Answer (Redis2 π) Unit := r.method (.new .ping) takeStatusPong

/-- `bgrewriteaof`, which accepts any status. -/
def bgrewriteaof (r : Redis2 π) : Except Abort (Bool × Redis2 π) := do
  let (ok, c, r) ← r.execCommand (.new .bgrewriteaof)
  if !ok then return (false, r) else return (c.out.isStatus, r)

/-- `bgsave`, which accepts the status OK only. -/
def bgsave (r : Redis2 π) : Answer (Redis2 π) Unit := r.method (.new .bgsave) takeStatusOk

/-- `dbsize`. -/
def dbsize (r : Redis2 π) : Answer (Redis2 π) Int := r.method (.new .dbsize) takeI

/-- `info`. -/
def info (r : Redis2 π) : Answer (Redis2 π) Bytes := r.method (.new .info) takeBulk2

/-- `info` of a type. -/
def infoOf (r : Redis2 π) (type : Bytes) : Answer (Redis2 π) Bytes :=
  r.method (keyed .info type) takeBulk2

/-- `lastsave`. -/
def lastsave (r : Redis2 π) : Answer (Redis2 π) Int := r.method (.new .lastsave) takeI

/-- `slaveof`. -/
def slaveof (r : Redis2 π) (host port : Bytes) : Answer (Redis2 π) Unit :=
  r.method ((keyed .slaveof host).pushArg port) takeStatusOk

end Redis2

end LibRedis
