import LibRedis.Redis
import LibRedis.RedisBase2

/-!
# The methods of the client for one server

Every method sends one command and takes the reply apart in one of a few ways. Those about one key
differ in the command, its arguments and the way.
-/

namespace LibRedis

open Decimal (ascii)

namespace RedisOutput

/-- `GET_INTEGER_REPLY`. -/
def takeI : RedisOutput → Option Int
  | .i value => some value
  | _ => Option.none

/-- `GET_BULK_REPLY`. -/
def takeBulk : RedisOutput → Option (Option Bytes)
  | .bulk bytes => some (some bytes)
  | .nilBulk => some Option.none
  | _ => Option.none

/-- `GET_MBULKS_REPLY`. -/
def takeMbulks : RedisOutput → Option Mbulk
  | .mbulks elements => some elements
  | _ => Option.none

/-- `CHECK_STATUS_OK`. -/
def takeStatusOk (output : RedisOutput) : Option Unit :=
  if output.isStatusOk then some () else Option.none

/-- The end of `type`. -/
def takeStatus : RedisOutput → Option Bytes
  | .status text => some text
  | _ => Option.none

/-- The end of `incrbyfloat`, `hincrbyfloat` and `zincrby`. -/
def takeDouble [Doubles] : RedisOutput → Option (Option Double)
  | .bulk bytes => some (Doubles.cast bytes)
  | _ => Option.none

/-- The end of `zxxxrank`. -/
def takeRank : RedisOutput → Option (Option Int)
  | .i value => some (some value)
  | .nilBulk => some Option.none
  | _ => Option.none

/-- The end of `zscore`. -/
def takeScore [Doubles] : RedisOutput → Option (Option (Option Double))
  | .bulk bytes => some (some (Doubles.cast bytes))
  | .nilBulk => some Option.none
  | _ => Option.none

end RedisOutput

/-- A command with a key. -/
def keyed (command : Command) (key : Bytes) : RedisCommand := (RedisCommand.new command).pushArg key

/-- Arguments in turn from two vectors. -/
def interleave (first second : List Bytes) : List Bytes :=
  (first.zip second).flatMap fun (left, right) => [left, right]

namespace Redis2

open RedisOutput (takeI takeBulk takeMbulks takeStatusOk takeStatus takeDouble takeRank takeScore)

variable {π : Type} [Peer π]

/-- A method: the command is sent, and the reply taken apart. -/
def method {α : Type} (r : Redis2 π) (c : RedisCommand) (take : RedisOutput → Option α) :
    Except Abort (Option α × Redis2 π) := do
  let (ok, c, r) ← r.execCommand c
  if !ok then return (none, r)
  else
    match take c.out with
    | some outputs => return (some outputs, r)
    | none => return (none, r.onReplyTypeError c)

/-- `CHECK_EXPR`. -/
def checkExpr {α : Type} (r : Redis2 π) (holds : Bool) (rest : Answer (Redis2 π) α) :
    Answer (Redis2 π) α :=
  if holds then rest else .ok (none, r.lastError (ascii "EINVAL"))

/-- `keys`. -/
def keys (r : Redis2 π) (pattern : Bytes) : Answer (Redis2 π) Mbulk :=
  r.method ((RedisCommand.new .keys).pushArg pattern) takeMbulks

/-- `randomkey`. -/
def randomkey (r : Redis2 π) : Answer (Redis2 π) (Option Bytes) :=
  r.method (.new .randomkey) takeBulk

/-- `flushall`. -/
def flushall (r : Redis2 π) : Except Abort (Bool × Redis2 π) := r.statusOkMethod (.new .flushall)

/-- `flushdb`. -/
def flushdb (r : Redis2 π) : Except Abort (Bool × Redis2 π) := r.statusOkMethod (.new .flushdb)

variable [Doubles]

/-- `zxxxrange`. -/
def zxxxrange (r : Redis2 π) (rev : Bool) (key : Bytes) (start stop : Int64) (withscores : Bool) :
    Answer (Redis2 π) Mbulk :=
  let c := ((keyed (if rev then .zrevrange else .zrange) key).pushInt start.toInt).pushInt stop.toInt
  r.method (if withscores then c.pushArg (ascii "WITHSCORES") else c) takeMbulks

/-- `zxxxrangebyscore`. -/
def zxxxrangebyscore (r : Redis2 π) (rev : Bool) (key min max : Bytes) (withscores : Bool)
    (limit : Option ZRangebyscoreLimit) : Answer (Redis2 π) Mbulk :=
  let command := if rev then .zrevrangebyscore else .zrangebyscore
  let c := ((keyed command key).pushArg min).pushArg max
  let c := if withscores then c.pushArg (ascii "WITHSCORES") else c
  let c := match limit with
    | some limit =>
      ((c.pushArg (ascii "LIMIT")).pushInt limit.offset.toInt).pushInt limit.count.toInt
    | none => c
  r.method c takeMbulks

/-- `zxxxrank`. -/
def zxxxrank (r : Redis2 π) (rev : Bool) (key member : Bytes) :
    Answer (Redis2 π) (Option Int) :=
  r.method ((keyed (if rev then .zrevrank else .zrank) key).pushArg member) takeRank

/-- `del`. -/
def del (r : Redis2 π) (key : Bytes) : Answer (Redis2 π) Int := r.method (keyed .del key) takeI

/-- `dump`. -/
def dump (r : Redis2 π) (key : Bytes) : Answer (Redis2 π) (Option Bytes) :=
  r.method (keyed .dump key) takeBulk

/-- `exists`. -/
def exists_ (r : Redis2 π) (key : Bytes) : Answer (Redis2 π) Int :=
  r.method (keyed .exists key) takeI

/-- `expire`. -/
def expire (r : Redis2 π) (key : Bytes) (seconds : Int64) : Answer (Redis2 π) Int :=
  r.method ((keyed .expire key).pushInt seconds.toInt) takeI

/-- `expireat`. -/
def expireat (r : Redis2 π) (key : Bytes) (absSeconds : Int64) : Answer (Redis2 π) Int :=
  r.method ((keyed .expireat key).pushInt absSeconds.toInt) takeI

/-- `move`. -/
def move (r : Redis2 π) (key : Bytes) (db : Int32) : Answer (Redis2 π) Int :=
  r.method ((keyed .move key).pushInt db.toInt) takeI

/-- `persist`. -/
def persist (r : Redis2 π) (key : Bytes) : Answer (Redis2 π) Int :=
  r.method (keyed .persist key) takeI

/-- `pexpire`. -/
def pexpire (r : Redis2 π) (key : Bytes) (milliseconds : Int64) : Answer (Redis2 π) Int :=
  r.method ((keyed .pexpire key).pushInt milliseconds.toInt) takeI

/-- `pexpireat`. -/
def pexpireat (r : Redis2 π) (key : Bytes) (absMilliseconds : Int64) : Answer (Redis2 π) Int :=
  r.method ((keyed .pexpireat key).pushInt absMilliseconds.toInt) takeI

/-- `pttl`. -/
def pttl (r : Redis2 π) (key : Bytes) : Answer (Redis2 π) Int := r.method (keyed .pttl key) takeI

/-- `restore`. -/
def restore (r : Redis2 π) (key : Bytes) (ttl : Int64) (value : Bytes) : Answer (Redis2 π) Unit :=
  r.method (((keyed .restore key).pushInt ttl.toInt).pushArg value) takeStatusOk

/-- `sort`. -/
def sort (r : Redis2 π) (key : Bytes) (phrases : Option (List Bytes)) : Answer (Redis2 π) Mbulk :=
  r.method ((keyed .sort key).pushArgs (phrases.getD [])) takeMbulks

/-- `ttl`. -/
def ttl (r : Redis2 π) (key : Bytes) : Answer (Redis2 π) Int := r.method (keyed .ttl key) takeI

/-- `type`. -/
def type (r : Redis2 π) (key : Bytes) : Answer (Redis2 π) Bytes :=
  r.method (keyed .type key) takeStatus

/-- `append`. -/
def append (r : Redis2 π) (key value : Bytes) : Answer (Redis2 π) Int :=
  r.method ((keyed .append key).pushArg value) takeI

/-- `decr`. -/
def decr (r : Redis2 π) (key : Bytes) : Answer (Redis2 π) Int := r.method (keyed .decr key) takeI

/-- `decrby`. -/
def decrby (r : Redis2 π) (key : Bytes) (dec : Int64) : Answer (Redis2 π) Int :=
  r.method ((keyed .decrby key).pushInt dec.toInt) takeI

/-- `get`. -/
def get (r : Redis2 π) (key : Bytes) : Answer (Redis2 π) (Option Bytes) :=
  r.method (keyed .get key) takeBulk

/-- `getbit`. -/
def getbit (r : Redis2 π) (key : Bytes) (offset : Int64) : Answer (Redis2 π) Int :=
  r.method ((keyed .getbit key).pushInt offset.toInt) takeI

/-- `getrange`. -/
def getrange (r : Redis2 π) (key : Bytes) (start stop : Int64) : Answer (Redis2 π) (Option Bytes) :=
  r.method (((keyed .getrange key).pushInt start.toInt).pushInt stop.toInt) takeBulk

/-- `getset`. -/
def getset (r : Redis2 π) (key value : Bytes) : Answer (Redis2 π) (Option Bytes) :=
  r.method ((keyed .getset key).pushArg value) takeBulk

/-- `incr`. -/
def incr (r : Redis2 π) (key : Bytes) : Answer (Redis2 π) Int := r.method (keyed .incr key) takeI

/-- `incrby`. -/
def incrby (r : Redis2 π) (key : Bytes) (inc : Int64) : Answer (Redis2 π) Int :=
  r.method ((keyed .incrby key).pushInt inc.toInt) takeI

/-- `incrbyfloat`. -/
def incrbyfloat (r : Redis2 π) (key : Bytes) (inc : Double) : Answer (Redis2 π) (Option Double) :=
  r.method ((keyed .incrbyfloat key).pushArg (Doubles.text inc)) takeDouble

/-- `psetex`. -/
def psetex (r : Redis2 π) (key : Bytes) (milliseconds : Int64) (value : Bytes) :
    Answer (Redis2 π) Unit :=
  r.method (((keyed .psetex key).pushInt milliseconds.toInt).pushArg value) takeStatusOk

/-- `set`. -/
def set (r : Redis2 π) (key value : Bytes) : Answer (Redis2 π) Unit :=
  r.method ((keyed .set key).pushArg value) takeStatusOk

/-- `setbit`. -/
def setbit (r : Redis2 π) (key : Bytes) (offset value : Int64) : Answer (Redis2 π) Int :=
  r.method (((keyed .setbit key).pushInt offset.toInt).pushInt value.toInt) takeI

/-- `setex`. -/
def setex (r : Redis2 π) (key : Bytes) (seconds : Int64) (value : Bytes) : Answer (Redis2 π) Unit :=
  r.method (((keyed .setex key).pushInt seconds.toInt).pushArg value) takeStatusOk

/-- `setnx`. -/
def setnx (r : Redis2 π) (key value : Bytes) : Answer (Redis2 π) Int :=
  r.method ((keyed .setnx key).pushArg value) takeI

/-- `setrange`. -/
def setrange (r : Redis2 π) (key : Bytes) (offset : Int64) (value : Bytes) :
    Answer (Redis2 π) Int :=
  r.method (((keyed .setrange key).pushInt offset.toInt).pushArg value) takeI

/-- `strlen`. -/
def strlen (r : Redis2 π) (key : Bytes) : Answer (Redis2 π) Int :=
  r.method (keyed .strlen key) takeI

/-- `hdel`. -/
def hdel (r : Redis2 π) (key field : Bytes) : Answer (Redis2 π) Int :=
  r.method ((keyed .hdel key).pushArg field) takeI

/-- `hdel` of several fields. -/
def hdelFields (r : Redis2 π) (key : Bytes) (fields : List Bytes) : Answer (Redis2 π) Int :=
  r.method ((keyed .hdel key).pushArgs fields) takeI

/-- `hexists`. -/
def hexists (r : Redis2 π) (key field : Bytes) : Answer (Redis2 π) Int :=
  r.method ((keyed .hexists key).pushArg field) takeI

/-- `hget`. -/
def hget (r : Redis2 π) (key field : Bytes) : Answer (Redis2 π) (Option Bytes) :=
  r.method ((keyed .hget key).pushArg field) takeBulk

/-- `hgetall`. -/
def hgetall (r : Redis2 π) (key : Bytes) : Answer (Redis2 π) Mbulk :=
  r.method (keyed .hgetall key) takeMbulks

/-- `hincrby`. -/
def hincrby (r : Redis2 π) (key field : Bytes) (inc : Int64) : Answer (Redis2 π) Int :=
  r.method (((keyed .hincrby key).pushArg field).pushInt inc.toInt) takeI

/-- `hincr`. -/
def hincr (r : Redis2 π) (key field : Bytes) : Answer (Redis2 π) Int := r.hincrby key field 1

/-- `hincrbyfloat`. -/
def hincrbyfloat (r : Redis2 π) (key field : Bytes) (inc : Double) :
    Answer (Redis2 π) (Option Double) :=
  r.method (((keyed .hincrbyfloat key).pushArg field).pushArg (Doubles.text inc)) takeDouble

/-- `hkeys`. -/
def hkeys (r : Redis2 π) (key : Bytes) : Answer (Redis2 π) Mbulk :=
  r.method (keyed .hkeys key) takeMbulks

/-- `hlen`. -/
def hlen (r : Redis2 π) (key : Bytes) : Answer (Redis2 π) Int := r.method (keyed .hlen key) takeI

/-- `hmget`. -/
def hmget (r : Redis2 π) (key : Bytes) (fields : List Bytes) : Answer (Redis2 π) Mbulk :=
  r.method ((keyed .hmget key).pushArgs fields) takeMbulks

/-- `hmset`. -/
def hmset (r : Redis2 π) (key : Bytes) (fields values : List Bytes) : Answer (Redis2 π) Unit :=
  r.checkExpr (fields.length = values.length)
    (r.method ((keyed .hmset key).pushArgs (interleave fields values)) takeStatusOk)

/-- `hset`. -/
def hset (r : Redis2 π) (key field value : Bytes) : Answer (Redis2 π) Int :=
  r.method (((keyed .hset key).pushArg field).pushArg value) takeI

/-- `hsetnx`. -/
def hsetnx (r : Redis2 π) (key field value : Bytes) : Answer (Redis2 π) Int :=
  r.method (((keyed .hsetnx key).pushArg field).pushArg value) takeI

/-- `hvals`. -/
def hvals (r : Redis2 π) (key : Bytes) : Answer (Redis2 π) Mbulk :=
  r.method (keyed .hvals key) takeMbulks

/-- `lindex`. -/
def lindex (r : Redis2 π) (key : Bytes) (index : Int64) : Answer (Redis2 π) (Option Bytes) :=
  r.method ((keyed .lindex key).pushInt index.toInt) takeBulk

/-- `linsert`. -/
def linsert (r : Redis2 π) (key : Bytes) (before : Bool) (pivot value : Bytes) :
    Answer (Redis2 π) Int :=
  let side := if before then ascii "BEFORE" else ascii "AFTER"
  r.method ((((keyed .linsert key).pushArg side).pushArg pivot).pushArg value) takeI

/-- `llen`. -/
def llen (r : Redis2 π) (key : Bytes) : Answer (Redis2 π) Int := r.method (keyed .llen key) takeI

/-- `lpop`. -/
def lpop (r : Redis2 π) (key : Bytes) : Answer (Redis2 π) (Option Bytes) :=
  r.method (keyed .lpop key) takeBulk

/-- `lpush`. -/
def lpush (r : Redis2 π) (key value : Bytes) : Answer (Redis2 π) Int :=
  r.method ((keyed .lpush key).pushArg value) takeI

/-- `lpush` of several values. -/
def lpushValues (r : Redis2 π) (key : Bytes) (values : List Bytes) : Answer (Redis2 π) Int :=
  r.method ((keyed .lpush key).pushArgs values) takeI

/-- `lpushx`. -/
def lpushx (r : Redis2 π) (key value : Bytes) : Answer (Redis2 π) Int :=
  r.method ((keyed .lpushx key).pushArg value) takeI

/-- `lrange`. -/
def lrange (r : Redis2 π) (key : Bytes) (start stop : Int64) : Answer (Redis2 π) Mbulk :=
  r.method (((keyed .lrange key).pushInt start.toInt).pushInt stop.toInt) takeMbulks

/-- `lrem`. -/
def lrem (r : Redis2 π) (key : Bytes) (count : Int64) (value : Bytes) : Answer (Redis2 π) Int :=
  r.method (((keyed .lrem key).pushInt count.toInt).pushArg value) takeI

/-- `lset`. -/
def lset (r : Redis2 π) (key : Bytes) (index : Int64) (value : Bytes) : Answer (Redis2 π) Unit :=
  r.method (((keyed .lset key).pushInt index.toInt).pushArg value) takeStatusOk

/-- `ltrim`. -/
def ltrim (r : Redis2 π) (key : Bytes) (start stop : Int64) : Answer (Redis2 π) Unit :=
  r.method (((keyed .ltrim key).pushInt start.toInt).pushInt stop.toInt) takeStatusOk

/-- `rpop`. -/
def rpop (r : Redis2 π) (key : Bytes) : Answer (Redis2 π) (Option Bytes) :=
  r.method (keyed .rpop key) takeBulk

/-- `rpush`. -/
def rpush (r : Redis2 π) (key value : Bytes) : Answer (Redis2 π) Int :=
  r.method ((keyed .rpush key).pushArg value) takeI

/-- `rpush` of several values. -/
def rpushValues (r : Redis2 π) (key : Bytes) (values : List Bytes) : Answer (Redis2 π) Int :=
  r.method ((keyed .rpush key).pushArgs values) takeI

/-- `rpushx`. -/
def rpushx (r : Redis2 π) (key value : Bytes) : Answer (Redis2 π) Int :=
  r.method ((keyed .rpushx key).pushArg value) takeI

/-- `sadd`. -/
def sadd (r : Redis2 π) (key member : Bytes) : Answer (Redis2 π) Int :=
  r.method ((keyed .sadd key).pushArg member) takeI

/-- `sadd` of several members. -/
def saddMembers (r : Redis2 π) (key : Bytes) (members : List Bytes) : Answer (Redis2 π) Int :=
  r.method ((keyed .sadd key).pushArgs members) takeI

/-- `scard`. -/
def scard (r : Redis2 π) (key : Bytes) : Answer (Redis2 π) Int := r.method (keyed .scard key) takeI

/-- `sismember`. -/
def sismember (r : Redis2 π) (key member : Bytes) : Answer (Redis2 π) Int :=
  r.method ((keyed .sismember key).pushArg member) takeI

/-- `smembers`. -/
def smembers (r : Redis2 π) (key : Bytes) : Answer (Redis2 π) Mbulk :=
  r.method (keyed .smembers key) takeMbulks

/-- `spop`. -/
def spop (r : Redis2 π) (key : Bytes) : Answer (Redis2 π) (Option Bytes) :=
  r.method (keyed .spop key) takeBulk

/-- `srandmember`. -/
def srandmember (r : Redis2 π) (key : Bytes) : Answer (Redis2 π) (Option Bytes) :=
  r.method (keyed .srandmember key) takeBulk

/-- `srem`. -/
def srem (r : Redis2 π) (key member : Bytes) : Answer (Redis2 π) Int :=
  r.method ((keyed .srem key).pushArg member) takeI

/-- `srem` of several members. -/
def sremMembers (r : Redis2 π) (key : Bytes) (members : List Bytes) : Answer (Redis2 π) Int :=
  r.method ((keyed .srem key).pushArgs members) takeI

/-- `zadd`. -/
def zadd (r : Redis2 π) (key : Bytes) (score : Double) (member : Bytes) : Answer (Redis2 π) Int :=
  r.method (((keyed .zadd key).pushArg (Doubles.text score)).pushArg member) takeI

/-- `zadd` of several members. -/
def zaddMembers (r : Redis2 π) (key : Bytes) (scores : List Double) (members : List Bytes) :
    Answer (Redis2 π) Int :=
  r.checkExpr (scores.length = members.length)
    (r.method ((keyed .zadd key).pushArgs (interleave (scores.map Doubles.text) members)) takeI)

/-- `zcard`. -/
def zcard (r : Redis2 π) (key : Bytes) : Answer (Redis2 π) Int := r.method (keyed .zcard key) takeI

/-- `zcount`. -/
def zcount (r : Redis2 π) (key min max : Bytes) : Answer (Redis2 π) Int :=
  r.method (((keyed .zcount key).pushArg min).pushArg max) takeI

/-- `zincrby`. -/
def zincrby (r : Redis2 π) (key : Bytes) (increment : Double) (member : Bytes) :
    Answer (Redis2 π) (Option Double) :=
  r.method (((keyed .zincrby key).pushArg (Doubles.text increment)).pushArg member) takeDouble

/-- `zrange`. -/
def zrange (r : Redis2 π) (key : Bytes) (start stop : Int64) (withscores : Bool) :
    Answer (Redis2 π) Mbulk :=
  r.zxxxrange false key start stop withscores

/-- `zrevrange`. -/
def zrevrange (r : Redis2 π) (key : Bytes) (start stop : Int64) (withscores : Bool) :
    Answer (Redis2 π) Mbulk :=
  r.zxxxrange true key start stop withscores

/-- `zrangebyscore`. -/
def zrangebyscore (r : Redis2 π) (key min max : Bytes) (withscores : Bool) (limit : Option
    ZRangebyscoreLimit) :
    Answer (Redis2 π) Mbulk :=
  r.zxxxrangebyscore false key min max withscores limit

/-- `zrevrangebyscore`. -/
def zrevrangebyscore (r : Redis2 π) (key max min : Bytes) (withscores : Bool) (limit : Option
    ZRangebyscoreLimit) :
    Answer (Redis2 π) Mbulk :=
  r.zxxxrangebyscore true key max min withscores limit

/-- `zrank`. -/
def zrank (r : Redis2 π) (key member : Bytes) : Answer (Redis2 π) (Option Int) :=
  r.zxxxrank false key member

/-- `zrevrank`. -/
def zrevrank (r : Redis2 π) (key member : Bytes) : Answer (Redis2 π) (Option Int) :=
  r.zxxxrank true key member

/-- `zrem`. -/
def zrem (r : Redis2 π) (key member : Bytes) : Answer (Redis2 π) Int :=
  r.method ((keyed .zrem key).pushArg member) takeI

/-- `zrem` of several members. -/
def zremMembers (r : Redis2 π) (key : Bytes) (members : List Bytes) : Answer (Redis2 π) Int :=
  r.method ((keyed .zrem key).pushArgs members) takeI

/-- `zremrangebyrank`. -/
def zremrangebyrank (r : Redis2 π) (key : Bytes) (start stop : Int64) : Answer (Redis2 π) Int :=
  r.method (((keyed .zremrangebyrank key).pushInt start.toInt).pushInt stop.toInt) takeI

/-- `zremrangebyscore`. -/
def zremrangebyscore (r : Redis2 π) (key min max : Bytes) : Answer (Redis2 π) Int :=
  r.method (((keyed .zremrangebyscore key).pushArg min).pushArg max) takeI

/-- `zscore`. -/
def zscore (r : Redis2 π) (key member : Bytes) : Answer (Redis2 π) (Option (Option Double)) :=
  r.method ((keyed .zscore key).pushArg member) takeScore

instance : RedisBase2 (Redis2 π) where
  call r key
    | .del => r.del key
    | .dump => r.dump key
    | .exists => r.exists_ key
    | .expire seconds => r.expire key seconds
    | .expireat absSeconds => r.expireat key absSeconds
    | .move db => r.move key db
    | .persist => r.persist key
    | .pexpire milliseconds => r.pexpire key milliseconds
    | .pexpireat absMilliseconds => r.pexpireat key absMilliseconds
    | .pttl => r.pttl key
    | .restore ttl value => r.restore key ttl value
    | .sort phrases => r.sort key phrases
    | .ttl => r.ttl key
    | .type => r.type key
    | .append value => r.append key value
    | .decr => r.decr key
    | .decrby dec => r.decrby key dec
    | .get => r.get key
    | .getbit offset => r.getbit key offset
    | .getrange start stop => r.getrange key start stop
    | .getset value => r.getset key value
    | .incr => r.incr key
    | .incrby inc => r.incrby key inc
    | .incrbyfloat inc => r.incrbyfloat key inc
    | .psetex milliseconds value => r.psetex key milliseconds value
    | .set value => r.set key value
    | .setbit offset value => r.setbit key offset value
    | .setex seconds value => r.setex key seconds value
    | .setnx value => r.setnx key value
    | .setrange offset value => r.setrange key offset value
    | .strlen => r.strlen key
    | .hdel field => r.hdel key field
    | .hdelFields fields => r.hdelFields key fields
    | .hexists field => r.hexists key field
    | .hget field => r.hget key field
    | .hgetall => r.hgetall key
    | .hincr field => r.hincr key field
    | .hincrby field inc => r.hincrby key field inc
    | .hincrbyfloat field inc => r.hincrbyfloat key field inc
    | .hkeys => r.hkeys key
    | .hlen => r.hlen key
    | .hmget fields => r.hmget key fields
    | .hmset fields values => r.hmset key fields values
    | .hset field value => r.hset key field value
    | .hsetnx field value => r.hsetnx key field value
    | .hvals => r.hvals key
    | .lindex index => r.lindex key index
    | .linsert before pivot value => r.linsert key before pivot value
    | .llen => r.llen key
    | .lpop => r.lpop key
    | .lpush value => r.lpush key value
    | .lpushValues values => r.lpushValues key values
    | .lpushx value => r.lpushx key value
    | .lrange start stop => r.lrange key start stop
    | .lrem count value => r.lrem key count value
    | .lset index value => r.lset key index value
    | .ltrim start stop => r.ltrim key start stop
    | .rpop => r.rpop key
    | .rpush value => r.rpush key value
    | .rpushValues values => r.rpushValues key values
    | .rpushx value => r.rpushx key value
    | .sadd member => r.sadd key member
    | .saddMembers members => r.saddMembers key members
    | .scard => r.scard key
    | .sismember member => r.sismember key member
    | .smembers => r.smembers key
    | .spop => r.spop key
    | .srandmember => r.srandmember key
    | .srem member => r.srem key member
    | .sremMembers members => r.sremMembers key members
    | .zadd score member => r.zadd key score member
    | .zaddMembers scores members => r.zaddMembers key scores members
    | .zcard => r.zcard key
    | .zcount min max => r.zcount key min max
    | .zincrby increment member => r.zincrby key increment member
    | .zrange start stop withscores => r.zrange key start stop withscores
    | .zrevrange start stop withscores => r.zrevrange key start stop withscores
    | .zrangebyscore min max withscores limit => r.zrangebyscore key min max withscores limit
    | .zrevrangebyscore max min withscores limit => r.zrevrangebyscore key max min withscores limit
    | .zrank member => r.zrank key member
    | .zrevrank member => r.zrevrank key member
    | .zrem member => r.zrem key member
    | .zremMembers members => r.zremMembers key members
    | .zremrangebyrank start stop => r.zremrangebyrank key start stop
    | .zremrangebyscore min max => r.zremrangebyscore key min max
    | .zscore member => r.zscore key member
  keys := keys
  randomkey := randomkey
  select := select
  flushall := flushall
  flushdb := flushdb
  getHost r := r.proto.host
  getPort r := r.proto.port
  lastError r := r.proto.error

end Redis2

end LibRedis
