import LibRedis.KeyRouting
import LibRedis.RedisMethods
import LibRedis.RespServer

/-!
# The commands behind the methods about a key

A method about a key is its command, with the key and the rest of its arguments: `call_eq` says so
of the client for one server, whose methods are written out one by one. What the commands have in
common is then a fact about a table.
-/

namespace LibRedis

open Decimal (ascii intText)

namespace KeyMethod

variable {α : Type}

/-- The command of a method. -/
def name : KeyMethod α → Command
  | .del => .del
  | .dump => .dump
  | .exists => .exists
  | .expire _ => .expire
  | .expireat _ => .expireat
  | .move _ => .move
  | .persist => .persist
  | .pexpire _ => .pexpire
  | .pexpireat _ => .pexpireat
  | .pttl => .pttl
  | .restore _ _ => .restore
  | .sort _ => .sort
  | .ttl => .ttl
  | .type => .type
  | .append _ => .append
  | .decr => .decr
  | .decrby _ => .decrby
  | .get => .get
  | .getbit _ => .getbit
  | .getrange _ _ => .getrange
  | .getset _ => .getset
  | .incr => .incr
  | .incrby _ => .incrby
  | .incrbyfloat _ => .incrbyfloat
  | .psetex _ _ => .psetex
  | .set _ => .set
  | .setbit _ _ => .setbit
  | .setex _ _ => .setex
  | .setnx _ => .setnx
  | .setrange _ _ => .setrange
  | .strlen => .strlen
  | .hdel _ | .hdelFields _ => .hdel
  | .hexists _ => .hexists
  | .hget _ => .hget
  | .hgetall => .hgetall
  | .hincr _ | .hincrby _ _ => .hincrby
  | .hincrbyfloat _ _ => .hincrbyfloat
  | .hkeys => .hkeys
  | .hlen => .hlen
  | .hmget _ => .hmget
  | .hmset _ _ => .hmset
  | .hset _ _ => .hset
  | .hsetnx _ _ => .hsetnx
  | .hvals => .hvals
  | .lindex _ => .lindex
  | .linsert _ _ _ => .linsert
  | .llen => .llen
  | .lpop => .lpop
  | .lpush _ | .lpushValues _ => .lpush
  | .lpushx _ => .lpushx
  | .lrange _ _ => .lrange
  | .lrem _ _ => .lrem
  | .lset _ _ => .lset
  | .ltrim _ _ => .ltrim
  | .rpop => .rpop
  | .rpush _ | .rpushValues _ => .rpush
  | .rpushx _ => .rpushx
  | .sadd _ | .saddMembers _ => .sadd
  | .scard => .scard
  | .sismember _ => .sismember
  | .smembers => .smembers
  | .spop => .spop
  | .srandmember => .srandmember
  | .srem _ | .sremMembers _ => .srem
  | .zadd _ _ | .zaddMembers _ _ => .zadd
  | .zcard => .zcard
  | .zcount _ _ => .zcount
  | .zincrby _ _ => .zincrby
  | .zrange _ _ _ => .zrange
  | .zrevrange _ _ _ => .zrevrange
  | .zrangebyscore _ _ _ _ => .zrangebyscore
  | .zrevrangebyscore _ _ _ _ => .zrevrangebyscore
  | .zrank _ => .zrank
  | .zrevrank _ => .zrevrank
  | .zrem _ | .zremMembers _ => .zrem
  | .zremrangebyrank _ _ => .zremrangebyrank
  | .zremrangebyscore _ _ => .zremrangebyscore
  | .zscore _ => .zscore

/-- The arguments of a method behind the key. -/
def args [Doubles] : KeyMethod α → List Bytes
  | .expire number | .expireat number | .pexpire number | .pexpireat number | .decrby number
  | .getbit number | .incrby number | .lindex number => [intText number.toInt]
  | .move db => [intText db.toInt]
  | .restore number value | .psetex number value | .setex number value | .setrange number value
  | .lrem number value | .lset number value => [intText number.toInt, value]
  | .getrange first second | .setbit first second | .lrange first second | .ltrim first second
  | .zremrangebyrank first second => [intText first.toInt, intText second.toInt]
  | .append value | .getset value | .set value | .setnx value | .hdel value | .hexists value
  | .hget value | .lpush value | .lpushx value | .rpush value | .rpushx value | .sadd value
  | .sismember value | .srem value | .zrank value | .zrevrank value | .zrem value
  | .zscore value => [value]
  | .hdelFields values | .hmget values | .lpushValues values | .rpushValues values
  | .saddMembers values | .sremMembers values | .zremMembers values => values
  | .hset first second | .hsetnx first second | .zcount first second
  | .zremrangebyscore first second => [first, second]
  | .sort phrases => phrases.getD []
  | .incrbyfloat inc => [Doubles.text inc]
  | .hincr field => [field, intText (1 : Int64).toInt]
  | .hincrby field inc => [field, intText inc.toInt]
  | .hincrbyfloat field inc => [field, Doubles.text inc]
  | .hmset fields values => interleave fields values
  | .linsert before pivot value =>
    [if before then ascii "BEFORE" else ascii "AFTER", pivot, value]
  | .zadd score member | .zincrby score member => [Doubles.text score, member]
  | .zaddMembers scores members => interleave (scores.map Doubles.text) members
  | .zrange start stop withscores | .zrevrange start stop withscores =>
    [intText start.toInt, intText stop.toInt] ++ if withscores then [ascii "WITHSCORES"] else []
  | .zrangebyscore first second withscores limit
  | .zrevrangebyscore first second withscores limit =>
    [first, second] ++ (if withscores then [ascii "WITHSCORES"] else []) ++ match limit with
      | some limit => [ascii "LIMIT", intText limit.offset.toInt, intText limit.count.toInt]
      | none => []
  | _ => []

/-- The command of a method with its arguments. -/
def command [Doubles] (m : KeyMethod α) (key : Bytes) : RedisCommand :=
  ⟨m.name, key :: m.args, .none⟩

end KeyMethod

/-- The state of the server that a client is for. -/
def Redis2.serverState {σ : Type} {server : Server σ} (r : Redis2 (Endpoint server)) : σ :=
  r.proto.tcpClient.os.peer.state

/-- A method of the client for one server sends its command, behind a check of its own. -/
theorem Redis2.call_eq [Doubles] {α : Type} (m : KeyMethod α) (key : Bytes) :
    ∃ take : RedisOutput → Option α, ∀ (π : Type) [Peer π] (r : Redis2 π),
      RedisBase2.call r key m = r.checkExpr m.checks (r.method (m.command key) take) := by
  cases m with
  | zrange start stop withscores => cases withscores <;> exact ⟨_, fun π _ r => rfl⟩
  | zrevrange start stop withscores => cases withscores <;> exact ⟨_, fun π _ r => rfl⟩
  | zrangebyscore min max withscores limit =>
    cases withscores <;> cases limit <;> exact ⟨_, fun π _ r => rfl⟩
  | zrevrangebyscore max min withscores limit =>
    cases withscores <;> cases limit <;> exact ⟨_, fun π _ r => rfl⟩
  | _ => exact ⟨_, fun π _ r => rfl⟩

/-- The commands that the documentation says to read only. -/
def Command.readsOnly : Command → Bool
  | .dump | .exists | .keys | .pttl | .randomkey | .ttl | .type => true
  | .bitcount | .get | .getbit | .getrange | .mget | .strlen => true
  | .hexists | .hget | .hgetall | .hkeys | .hlen | .hmget | .hvals => true
  | .lindex | .llen | .lrange => true
  | .scard | .sdiff | .sinter | .sismember | .smembers | .srandmember | .sunion => true
  | .zcard | .zcount | .zrange | .zrangebyscore | .zrank | .zrevrange | .zrevrangebyscore
  | .zrevrank | .zscore => true
  | _ => false

/-- The commands that the documentation says to do the same to the same data. -/
def Command.writesAlike : Command → Bool
  | .del | .expire | .expireat | .flushall | .flushdb | .move | .persist | .pexpire | .pexpireat
  | .restore => true
  | .append | .decr | .decrby | .getset | .incr | .incrby | .incrbyfloat | .psetex | .set | .setbit
  | .setex | .setnx | .setrange => true
  | .hdel | .hincrby | .hincrbyfloat | .hmset | .hset | .hsetnx => true
  | .linsert | .lpop | .lpush | .lpushx | .lrem | .lset | .ltrim | .rpop | .rpush | .rpushx => true
  | .sadd | .srem => true
  | .zadd | .zincrby | .zrem | .zremrangebyrank | .zremrangebyscore => true
  | _ => false

/-- A method that one replica answers only reads, or it is `sort`. -/
theorem KeyMethod.readsOnly_of_reads {α : Type} {m : KeyMethod α} (reads : m.writes = false) :
    m.name.readsOnly = true ∨ m.name = .sort := by
  cases m <;> first | exact Or.inl rfl | exact Or.inr rfl | cases reads

/-- Such a method calls the method of its name. -/
theorem KeyMethod.forwarded_of_reads {α : Type} {m : KeyMethod α} (reads : m.writes = false) :
    m.forwarded = m := by
  apply KeyMethod.forwarded_eq
  cases m <;> first | rfl | cases reads

/-- A method that all replicas get does the same to the same data, or it is `spop`. -/
theorem KeyMethod.writesAlike_of_writes {α : Type} {m : KeyMethod α} (writes : m.writes = true) :
    m.forwarded.name.writesAlike = true ∨ m.forwarded.name = .spop := by
  cases m <;> first | exact Or.inl rfl | exact Or.inr rfl | cases writes

/-- A command of the table that neither selects a database nor opens a transaction, whose replies are
no arrays of anything. -/
def Command.isData (command : Command) : Bool :=
  command ∈ Command.named && command != .select && command != .multi &&
    (command.commandInfo.replyType ∈ [.status, .integer, .bulk, .multiBulk] ||
      command == .zrank || command == .zrevrank)

/-- Every method about a key sends such a command. -/
theorem KeyMethod.isData_name {α : Type} (m : KeyMethod α) : m.name.isData = true := by
  have named : m.name ∈ Command.named := by
    rcases Command.mem_named m.name with named | wrong | wrong
    · exact named
    · cases m <;> cases wrong
    · cases m <;> cases wrong
  rw [Command.isData, decide_eq_true named, Bool.true_and]
  cases m <;> rfl

end LibRedis
