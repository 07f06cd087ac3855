import LibRedis.Os

/-!
# Commands and replies as values

The tables and value types of `redis_cmd`: which commands there are, how many arguments each takes
and what kind of reply it expects, the command object with its arguments and its output, and the
conversions between the two kinds of multi-bulk output.
-/

namespace LibRedis

open Decimal (ascii)

/-- `kCommand`. -/
inductive Command where
  | noop | append | auth | bgrewriteaof | bgsave | bitcount | bitop | blpop | brpop | brpoplpush
  | config | dbsize | debug | decr | decrby | del | discard | dump | echo | eval | evalsha | exec
  | exists | expire | expireat | flushall | flushdb | get | getbit | getrange | getset | hdel
  | hexists | hget | hgetall | hincrby | hincrbyfloat | hkeys | hlen | hmget | hmset | hset
  | hsetnx | hvals | incr | incrby | incrbyfloat | info | keys | lastsave | lindex | linsert
  | llen | lpop | lpush | lpushx | lrange | lrem | lset | ltrim | mget | migrate | monitor | move
  | mset | msetnx | multi | object | persist | pexpire | pexpireat | ping | psetex | psubscribe
  | pttl | publish | punsubscribe | quit | randomkey | rename | renamenx | restore | rpop
  | rpoplpush | rpush | rpushx | sadd | save | scard | script | sdiff | sdiffstore | select | set
  | setbit | setex | setnx | setrange | shutdown | sinter | sinterstore | sismember | slaveof
  | slowlog | smembers | smove | sort | spop | srandmember | srem | strlen | subscribe | sunion
  | sunionstore | sync | time | ttl | type | unsubscribe | unwatch | watch | zadd | zcard
  | zcount | zincrby | zinterstore | zrange | zrangebyscore | zrank | zrem | zremrangebyrank
  | zremrangebyscore | zrevrange | zrevrangebyscore | zrevrank | zscore | zunionstore
  | commandMax
  deriving DecidableEq, Repr

/-- `kReplyType`. -/
inductive ReplyType where
  | none | status | error | integer | bulk | multiBulk | specialMultiBulk | depends
  deriving DecidableEq, Repr

namespace ReplyType

/-- `to_string`. -/
def toText : ReplyType → Bytes
  | .status => ascii "status reply"
  | .error => ascii "error reply"
  | .integer => ascii "integer reply"
  | .bulk => ascii "bulk reply"
  | .multiBulk => ascii "multi-bulk reply"
  | .specialMultiBulk => ascii "special multi-bulk reply"
  | .depends => ascii "non-defined reply"
  | .none => ascii "none type reply"

end ReplyType

/-- `ARGC_NO_CHECKING`. -/
def argcNoChecking : Int := -65535

/-- `CommandInfo`, without the command it is stored under. -/
structure CommandInfo where
  /-- `command_str`. -/
  commandStr : Bytes
  /-- `argc`: the exact number of arguments, or minus the least number of them. -/
  argc : Int
  /-- `reply_type`. -/
  replyType : ReplyType
  deriving DecidableEq, Repr

namespace Command

/-- `s_command_map`. -/
def commandInfo : Command → CommandInfo
  | .noop => ⟨ascii "NOOP", argcNoChecking, .none⟩
  | .append => ⟨ascii "APPEND", 2, .integer⟩
  | .auth => ⟨ascii "AUTH", 1, .status⟩
  | .bgrewriteaof => ⟨ascii "BGREWRITEAOF", 0, .status⟩
  | .bgsave => ⟨ascii "BGSAVE", 0, .status⟩
  | .bitcount => ⟨ascii "BITCOUNT", -1, .integer⟩
  | .bitop => ⟨ascii "BITOP", -3, .integer⟩
  | .blpop => ⟨ascii "BLPOP", -2, .multiBulk⟩
  | .brpop => ⟨ascii "BRPOP", -2, .multiBulk⟩
  | .brpoplpush => ⟨ascii "BRPOPLPUSH", 3, .depends⟩
  | .config => ⟨ascii "CONFIG", -1, .depends⟩
  | .dbsize => ⟨ascii "DBSIZE", 0, .integer⟩
  | .debug => ⟨ascii "DEBUG", -1, .depends⟩
  | .decr => ⟨ascii "DECR", 1, .integer⟩
  | .decrby => ⟨ascii "DECRBY", 2, .integer⟩
  | .del => ⟨ascii "DEL", -1, .integer⟩
  | .discard => ⟨ascii "DISCARD", 0, .status⟩
  | .dump => ⟨ascii "DUMP", 1, .bulk⟩
  | .echo => ⟨ascii "ECHO", 1, .bulk⟩
  | .eval => ⟨ascii "EVAL", -2, .depends⟩
  | .evalsha => ⟨ascii "EVALSHA", -2, .depends⟩
  | .exec => ⟨ascii "EXEC", 0, .specialMultiBulk⟩
  | .exists => ⟨ascii "EXISTS", 1, .integer⟩
  | .expire => ⟨ascii "EXPIRE", 2, .integer⟩
  | .expireat => ⟨ascii "EXPIREAT", 2, .integer⟩
  | .flushall => ⟨ascii "FLUSHALL", 0, .status⟩
  | .flushdb => ⟨ascii "FLUSHDB", 0, .status⟩
  | .get => ⟨ascii "GET", 1, .bulk⟩
  | .getbit => ⟨ascii "GETBIT", 2, .integer⟩
  | .getrange => ⟨ascii "GETRANGE", 3, .bulk⟩
  | .getset => ⟨ascii "GETSET", 2, .bulk⟩
  | .hdel => ⟨ascii "HDEL", -2, .integer⟩
  | .hexists => ⟨ascii "HEXISTS", 2, .integer⟩
  | .hget => ⟨ascii "HGET", 2, .bulk⟩
  | .hgetall => ⟨ascii "HGETALL", 1, .multiBulk⟩
  | .hincrby => ⟨ascii "HINCRBY", 3, .integer⟩
  | .hincrbyfloat => ⟨ascii "HINCRBYFLOAT", 3, .bulk⟩
  | .hkeys => ⟨ascii "HKEYS", 1, .multiBulk⟩
  | .hlen => ⟨ascii "HLEN", 1, .integer⟩
  | .hmget => ⟨ascii "HMGET", -2, .multiBulk⟩
  | .hmset => ⟨ascii "HMSET", -3, .status⟩
  | .hset => ⟨ascii "HSET", 3, .integer⟩
  | .hsetnx => ⟨ascii "HSETNX", 3, .integer⟩
  | .hvals => ⟨ascii "HVALS", 1, .multiBulk⟩
  | .incr => ⟨ascii "INCR", 1, .integer⟩
  | .incrby => ⟨ascii "INCRBY", 2, .integer⟩
  | .incrbyfloat => ⟨ascii "INCRBYFLOAT", 2, .bulk⟩
  | .info => ⟨ascii "INFO", argcNoChecking, .bulk⟩
  | .keys => ⟨ascii "KEYS", 1, .multiBulk⟩
  | .lastsave => ⟨ascii "LASTSAVE", 0, .integer⟩
  | .lindex => ⟨ascii "LINDEX", 2, .bulk⟩
  | .linsert => ⟨ascii "LINSERT", 4, .integer⟩
  | .llen => ⟨ascii "LLEN", 1, .integer⟩
  | .lpop => ⟨ascii "LPOP", 1, .bulk⟩
  | .lpush => ⟨ascii "LPUSH", -2, .integer⟩
  | .lpushx => ⟨ascii "LPUSHX", 2, .integer⟩
  | .lrange => ⟨ascii "LRANGE", 3, .multiBulk⟩
  | .lrem => ⟨ascii "LREM", 3, .integer⟩
  | .lset => ⟨ascii "LSET", 3, .status⟩
  | .ltrim => ⟨ascii "LTRIM", 3, .status⟩
  | .mget => ⟨ascii "MGET", -1, .multiBulk⟩
  | .migrate => ⟨ascii "MIGRATE", 5, .status⟩
  | .monitor => ⟨ascii "MONITOR", 0, .depends⟩
  | .move => ⟨ascii "MOVE", 2, .integer⟩
  | .mset => ⟨ascii "MSET", -2, .status⟩
  | .msetnx => ⟨ascii "MSETNX", -2, .integer⟩
  | .multi => ⟨ascii "MULTI", 0, .status⟩
  | .object => ⟨ascii "OBJECT", -1, .depends⟩
  | .persist => ⟨ascii "PERSIST", 1, .integer⟩
  | .pexpire => ⟨ascii "PEXPIRE", 2, .integer⟩
  | .pexpireat => ⟨ascii "PEXPIREAT", 2, .integer⟩
  | .ping => ⟨ascii "PING", 0, .status⟩
  | .psetex => ⟨ascii "PSETEX", 3, .status⟩
  | .psubscribe => ⟨ascii "PSUBSCRIBE", -1, .specialMultiBulk⟩
  | .pttl => ⟨ascii "PTTL", 1, .integer⟩
  | .publish => ⟨ascii "PUBLISH", 2, .integer⟩
  | .punsubscribe => ⟨ascii "PUNSUBSCRIBE", argcNoChecking, .specialMultiBulk⟩
  | .quit => ⟨ascii "QUIT", 0, .status⟩
  | .randomkey => ⟨ascii "RANDOMKEY", 0, .bulk⟩
  | .rename => ⟨ascii "RENAME", 2, .status⟩
  | .renamenx => ⟨ascii "RENAMENX", 2, .integer⟩
  | .restore => ⟨ascii "RESTORE", 3, .status⟩
  | .rpop => ⟨ascii "RPOP", 1, .bulk⟩
  | .rpoplpush => ⟨ascii "RPOPLPUSH", 2, .bulk⟩
  | .rpush => ⟨ascii "RPUSH", -2, .integer⟩
  | .rpushx => ⟨ascii "RPUSHX", 2, .integer⟩
  | .sadd => ⟨ascii "SADD", -2, .integer⟩
  | .save => ⟨ascii "SAVE", 0, .depends⟩
  | .scard => ⟨ascii "SCARD", 1, .integer⟩
  | .script => ⟨ascii "SCRIPT", -1, .depends⟩
  | .sdiff => ⟨ascii "SDIFF", -1, .multiBulk⟩
  | .sdiffstore => ⟨ascii "SDIFFSTORE", -2, .integer⟩
  | .select => ⟨ascii "SELECT", 1, .status⟩
  | .set => ⟨ascii "SET", 2, .status⟩
  | .setbit => ⟨ascii "SETBIT", 3, .integer⟩
  | .setex => ⟨ascii "SETEX", 3, .status⟩
  | .setnx => ⟨ascii "SETNX", 2, .integer⟩
  | .setrange => ⟨ascii "SETRANGE", 3, .integer⟩
  | .shutdown => ⟨ascii "SHUTDOWN", argcNoChecking, .status⟩
  | .sinter => ⟨ascii "SINTER", -1, .multiBulk⟩
  | .sinterstore => ⟨ascii "SINTERSTORE", -2, .integer⟩
  | .sismember => ⟨ascii "SISMEMBER", 2, .integer⟩
  | .slaveof => ⟨ascii "SLAVEOF", 2, .status⟩
  | .slowlog => ⟨ascii "SLOWLOG", 1, .depends⟩
  | .smembers => ⟨ascii "SMEMBERS", 1, .multiBulk⟩
  | .smove => ⟨ascii "SMOVE", 3, .integer⟩
  | .sort => ⟨ascii "SORT", -1, .multiBulk⟩
  | .spop => ⟨ascii "SPOP", 1, .bulk⟩
  | .srandmember => ⟨ascii "SRANDMEMBER", 1, .bulk⟩
  | .srem => ⟨ascii "SREM", -2, .integer⟩
  | .strlen => ⟨ascii "STRLEN", 1, .integer⟩
  | .subscribe => ⟨ascii "SUBSCRIBE", -1, .specialMultiBulk⟩
  | .sunion => ⟨ascii "SUNION", -1, .multiBulk⟩
  | .sunionstore => ⟨ascii "SUNIONSTORE", -2, .integer⟩
  | .sync => ⟨ascii "SYNC", argcNoChecking, .depends⟩
  | .time => ⟨ascii "TIME", 0, .multiBulk⟩
  | .ttl => ⟨ascii "TTL", 1, .integer⟩
  | .type => ⟨ascii "TYPE", 1, .status⟩
  | .unsubscribe => ⟨ascii "UNSUBSCRIBE", argcNoChecking, .specialMultiBulk⟩
  | .unwatch => ⟨ascii "UNWATCH", 0, .status⟩
  | .watch => ⟨ascii "WATCH", -1, .status⟩
  | .zadd => ⟨ascii "ZADD", -3, .integer⟩
  | .zcard => ⟨ascii "ZCARD", 1, .integer⟩
  | .zcount => ⟨ascii "ZCOUNT", 3, .integer⟩
  | .zincrby => ⟨ascii "ZINCRBY", 3, .bulk⟩
  | .zinterstore => ⟨ascii "ZINTERSTORE", -3, .integer⟩
  | .zrange => ⟨ascii "ZRANGE", -3, .multiBulk⟩
  | .zrangebyscore => ⟨ascii "ZRANGEBYSCORE", -3, .multiBulk⟩
  | .zrank => ⟨ascii "ZRANK", 2, .depends⟩
  | .zrem => ⟨ascii "ZREM", -2, .integer⟩
  | .zremrangebyrank => ⟨ascii "ZREMRANGEBYRANK", 3, .integer⟩
  | .zremrangebyscore => ⟨ascii "ZREMRANGEBYSCORE", 3, .integer⟩
  | .zrevrange => ⟨ascii "ZREVRANGE", -3, .multiBulk⟩
  | .zrevrangebyscore => ⟨ascii "ZREVRANGEBYSCORE", -3, .multiBulk⟩
  | .zrevrank => ⟨ascii "ZREVRANK", 2, .depends⟩
  | .zscore => ⟨ascii "ZSCORE", 2, .bulk⟩
  | .zunionstore => ⟨ascii "ZUNIONSTORE", -3, .integer⟩
  | .commandMax => ⟨ascii "COMMAND_MAX", argcNoChecking, .none⟩

/-- The commands of `s_command_rev_map`: all but the two place holders. -/
def named : List Command :=
  [.append, .auth, .bgrewriteaof, .bgsave, .bitcount, .bitop, .blpop, .brpop, .brpoplpush,
    .config, .dbsize, .debug, .decr, .decrby, .del, .discard, .dump, .echo, .eval, .evalsha,
    .exec, .exists, .expire, .expireat, .flushall, .flushdb, .get, .getbit, .getrange, .getset,
    .hdel, .hexists, .hget, .hgetall, .hincrby, .hincrbyfloat, .hkeys, .hlen, .hmget, .hmset,
    .hset, .hsetnx, .hvals, .incr, .incrby, .incrbyfloat, .info, .keys, .lastsave, .lindex,
    .linsert, .llen, .lpop, .lpush, .lpushx, .lrange, .lrem, .lset, .ltrim, .mget, .migrate,
    .monitor, .move, .mset, .msetnx, .multi, .object, .persist, .pexpire, .pexpireat, .ping,
    .psetex, .psubscribe, .pttl, .publish, .punsubscribe, .quit, .randomkey, .rename, .renamenx,
    .restore, .rpop, .rpoplpush, .rpush, .rpushx, .sadd, .save, .scard, .script, .sdiff,
    .sdiffstore, .select, .set, .setbit, .setex, .setnx, .setrange, .shutdown, .sinter,
    .sinterstore, .sismember, .slaveof, .slowlog, .smembers, .smove, .sort, .spop, .srandmember,
    .srem, .strlen, .subscribe, .sunion, .sunionstore, .sync, .time, .ttl, .type, .unsubscribe,
    .unwatch, .watch, .zadd, .zcard, .zcount, .zincrby, .zinterstore, .zrange, .zrangebyscore,
    .zrank, .zrem, .zremrangebyrank, .zremrangebyscore, .zrevrange, .zrevrangebyscore, .zrevrank,
    .zscore, .zunionstore]

end Command

/-- `::toupper` in the C locale. -/
def toUpper (byte : UInt8) : UInt8 := if 97 ≤ byte ∧ byte ≤ 122 then byte - 32 else byte

/-- Lookup of a command by its name: `RedisInput::set_command`. -/
def Command.ofName (name : Bytes) : Command :=
  (Command.named.find? fun command => command.commandInfo.commandStr == name.map toUpper).getD .noop

/-- The table is in the order of the names. -/
theorem Command.named_sorted : Command.named.Pairwise fun command other =>
    command.commandInfo.commandStr < other.commandInfo.commandStr := by
  have chain : (Command.named.map fun command =>
      command.commandInfo.commandStr).IsChain (· < ·) := by
    decide +kernel
  exact List.pairwise_map.mp (List.isChain_iff_pairwise.mp chain)

/-- Names are in upper case. -/
theorem Command.map_toUpper : ∀ command ∈ Command.named,
    command.commandInfo.commandStr.map toUpper = command.commandInfo.commandStr := by
  decide +kernel

/-- Every command with a name is found by its name: those before it have other names. -/
theorem Command.ofName_named :
    ∀ command ∈ Command.named, Command.ofName command.commandInfo.commandStr = command := by
  intro command member
  have found : Command.named.find? (fun other =>
      other.commandInfo.commandStr == command.commandInfo.commandStr) = some command := by
    have sorted := Command.named_sorted
    generalize Command.named = commands at member sorted
    induction sorted with
    | nil => cases member
    | @cons first rest before sorted ih =>
      rcases List.mem_cons.mp member with rfl | later
      · exact List.find?_cons_of_pos (by simp)
      · have other : first.commandInfo.commandStr ≠ command.commandInfo.commandStr := by
          intro same
          have less := before command later
          rw [same] at less
          exact List.lt_irrefl _ less
        rw [List.find?_cons_of_neg (by simpa using other)]
        exact ih later
  rw [Command.ofName, Command.map_toUpper command member, found]
  rfl

/-- The two commands that have no name are not in the table. -/
theorem Command.mem_named (command : Command) :
    command ∈ Command.named ∨ command = .noop ∨ command = .commandMax := by
  cases command <;> decide

/-- No command has an empty name. -/
theorem Command.ofName_nil : Command.ofName [] = .noop := by
  decide +kernel

/-- Different commands have different names. -/
theorem Command.ofName_eq_iff {command other : Command} (named : other ∈ Command.named) :
    Command.ofName command.commandInfo.commandStr = other ↔ command = other := by
  have unnamed (nameless : command = .noop ∨ command = .commandMax) :
      Command.ofName command.commandInfo.commandStr = .noop := by
    rcases nameless with rfl | rfl
    · decide +kernel
    · decide +kernel
  have absent : Command.noop ∉ Command.named ∧ Command.commandMax ∉ Command.named := by decide
  rcases Command.mem_named command with found | nameless
  · rw [Command.ofName_named command found]
  · rw [unnamed nameless]
    constructor
    · rintro rfl
      exact absurd named absent.1
    · rintro rfl
      rcases nameless with rfl | rfl
      · exact absurd named absent.1
      · exact absurd named absent.2

/-- `RedisOutput`: each reply type with its pointer set, and with it null where a reader can leave
it so. -/
inductive RedisOutput where
  /-- `kNone`. -/
  | none
  /-- `kStatus`. -/
  | status (text : Bytes)
  /-- `kError`. -/
  | error (text : Bytes)
  /-- `kInteger`. -/
  | i (value : Int)
  /-- `kBulk`. -/
  | bulk (bytes : Bytes)
  /-- `kBulk` without a bulk. -/
  | nilBulk
  /-- `kMultiBulk`, its null elements nil bulks. -/
  | mbulks (elements : List (Option Bytes))
  /-- `kMultiBulk` without elements to speak of. -/
  | nilMbulks
  /-- `kSpecialMultiBulk`. -/
  | smbulks (elements : List RedisOutput)
  /-- `kSpecialMultiBulk` without elements to speak of. -/
  | nilSmbulks

/-- `RedisCommand`: the input and the output of one command. -/
structure RedisCommand where
  /-- `in.command()`. -/
  command : Command
  /-- `in.args()`. -/
  args : List Bytes
  /-- `out`. -/
  out : RedisOutput

namespace RedisOutput

/-- The `reply_type` of an output. -/
def replyType : RedisOutput → ReplyType
  | .none => .none
  | .status _ => .status
  | .error _ => .error
  | .i _ => .integer
  | .bulk _ => .bulk
  | .nilBulk => .bulk
  | .mbulks _ => .multiBulk
  | .nilMbulks => .multiBulk
  | .smbulks _ => .specialMultiBulk
  | .nilSmbulks => .specialMultiBulk

/-- `is_status_ok`. -/
def isStatusOk : RedisOutput → Bool
  | .status text => text == ascii "OK"
  | _ => false

/-- `get_smbulks`: the elements, or none if it returns false. -/
def getSmbulks : RedisOutput → Option (List RedisOutput)
  | .smbulks elements => some elements
  | _ => Option.none

/-- `convertible_2_mbulks`. -/
def convertible2Mbulks (elements : List RedisOutput) : Bool :=
  elements.all fun output => output.replyType == .bulk

/-- The bulk of an output, or none for a nil bulk. -/
def toBulk : RedisOutput → Option Bytes
  | .bulk bytes => some bytes
  | _ => Option.none

end RedisOutput

namespace RedisCommand

/-- A command without arguments. -/
def new (command : Command) : RedisCommand := ⟨command, [], .none⟩

/-- `command_info`. -/
def commandInfo (c : RedisCommand) : CommandInfo := c.command.commandInfo

/-- `push_arg`. -/
def pushArg (c : RedisCommand) (arg : Bytes) : RedisCommand := { c with args := c.args ++ [arg] }

/-- `push_arg` of a vector. -/
def pushArgs (c : RedisCommand) (args : List Bytes) : RedisCommand :=
  { c with args := c.args ++ args }

/-- `push_arg` of an integer. -/
def pushInt (c : RedisCommand) (value : Int) : RedisCommand := c.pushArg (Decimal.intText value)

end RedisCommand

end LibRedis
