import LibRedis.RedisCmd
import LibRedis.Os

/-!
# The interface of the clients

`RedisBase2` is what the client for one server and the client for several have in common. A method
returns false, or true with its outputs. The methods that are about one key are collected in
`KeyMethod`, with the arguments behind the key and the type of the outputs.
-/

namespace LibRedis

/-- A `double`, as its bits. -/
abbrev Double := UInt64

/-- How doubles are printed and read by `boost::lexical_cast`, which throws where this is none. -/
class Doubles where
  text : Double → Bytes
  cast : Bytes → Option Double

/-- `mbulk_t`: bulk strings, a null pointer none. -/
abbrev Mbulk := List (Option Bytes)

/-- `ZRangebyscoreLimit`. -/
structure ZRangebyscoreLimit where
  offset : Int64
  count : Int64

/-- The methods about one key. A nil output is none, and so is a double that cannot be read. -/
inductive KeyMethod : Type → Type
  -- Keys
  | del : KeyMethod Int
  | dump : KeyMethod (Option Bytes)
  | exists : KeyMethod Int
  | expire (seconds : Int64) : KeyMethod Int
  | expireat (absSeconds : Int64) : KeyMethod Int
  | move (db : Int32) : KeyMethod Int
  | persist : KeyMethod Int
  | pexpire (milliseconds : Int64) : KeyMethod Int
  | pexpireat (absMilliseconds : Int64) : KeyMethod Int
  | pttl : KeyMethod Int
  | restore (ttl : Int64) (value : Bytes) : KeyMethod Unit
  | sort (phrases : Option (List Bytes)) : KeyMethod Mbulk
  | ttl : KeyMethod Int
  | type : KeyMethod Bytes
  -- Strings
  | append (value : Bytes) : KeyMethod Int
  | decr : KeyMethod Int
  | decrby (dec : Int64) : KeyMethod Int
  | get : KeyMethod (Option Bytes)
  | getbit (offset : Int64) : KeyMethod Int
  | getrange (start stop : Int64) : KeyMethod (Option Bytes)
  | getset (value : Bytes) : KeyMethod (Option Bytes)
  | incr : KeyMethod Int
  | incrby (inc : Int64) : KeyMethod Int
  | incrbyfloat (inc : Double) : KeyMethod (Option Double)
  | psetex (milliseconds : Int64) (value : Bytes) : KeyMethod Unit
  | set (value : Bytes) : KeyMethod Unit
  | setbit (offset value : Int64) : KeyMethod Int
  | setex (seconds : Int64) (value : Bytes) : KeyMethod Unit
  | setnx (value : Bytes) : KeyMethod Int
  | setrange (offset : Int64) (value : Bytes) : KeyMethod Int
  | strlen : KeyMethod Int
  -- Hashes
  | hdel (field : Bytes) : KeyMethod Int
  | hdelFields (fields : List Bytes) : KeyMethod Int
  | hexists (field : Bytes) : KeyMethod Int
  | hget (field : Bytes) : KeyMethod (Option Bytes)
  | hgetall : KeyMethod Mbulk
  | hincr (field : Bytes) : KeyMethod Int
  | hincrby (field : Bytes) (inc : Int64) : KeyMethod Int
  | hincrbyfloat (field : Bytes) (inc : Double) : KeyMethod (Option Double)
  | hkeys : KeyMethod Mbulk
  | hlen : KeyMethod Int
  | hmget (fields : List Bytes) : KeyMethod Mbulk
  | hmset (fields values : List Bytes) : KeyMethod Unit
  | hset (field value : Bytes) : KeyMethod Int
  | hsetnx (field value : Bytes) : KeyMethod Int
  | hvals : KeyMethod Mbulk
  -- Lists
  | lindex (index : Int64) : KeyMethod (Option Bytes)
  | linsert (before : Bool) (pivot value : Bytes) : KeyMethod Int
  | llen : KeyMethod Int
  | lpop : KeyMethod (Option Bytes)
  | lpush (value : Bytes) : KeyMethod Int
  | lpushValues (values : List Bytes) : KeyMethod Int
  | lpushx (value : Bytes) : KeyMethod Int
  | lrange (start stop : Int64) : KeyMethod Mbulk
  | lrem (count : Int64) (value : Bytes) : KeyMethod Int
  | lset (index : Int64) (value : Bytes) : KeyMethod Unit
  | ltrim (start stop : Int64) : KeyMethod Unit
  | rpop : KeyMethod (Option Bytes)
  | rpush (value : Bytes) : KeyMethod Int
  | rpushValues (values : List Bytes) : KeyMethod Int
  | rpushx (value : Bytes) : KeyMethod Int
  -- Sets
  | sadd (member : Bytes) : KeyMethod Int
  | saddMembers (members : List Bytes) : KeyMethod Int
  | scard : KeyMethod Int
  | sismember (member : Bytes) : KeyMethod Int
  | smembers : KeyMethod Mbulk
  | spop : KeyMethod (Option Bytes)
  | srandmember : KeyMethod (Option Bytes)
  | srem (member : Bytes) : KeyMethod Int
  | sremMembers (members : List Bytes) : KeyMethod Int
  -- Sorted sets
  | zadd (score : Double) (member : Bytes) : KeyMethod Int
  | zaddMembers (scores : List Double) (members : List Bytes) : KeyMethod Int
  | zcard : KeyMethod Int
  | zcount (min max : Bytes) : KeyMethod Int
  | zincrby (increment : Double) (member : Bytes) : KeyMethod (Option Double)
  | zrange (start stop : Int64) (withscores : Bool) : KeyMethod Mbulk
  | zrevrange (start stop : Int64) (withscores : Bool) : KeyMethod Mbulk
  | zrangebyscore (min max : Bytes) (withscores : Bool) (limit : Option ZRangebyscoreLimit) :
    KeyMethod Mbulk
  | zrevrangebyscore (max min : Bytes) (withscores : Bool) (limit : Option ZRangebyscoreLimit) :
    KeyMethod Mbulk
  | zrank (member : Bytes) : KeyMethod (Option Int)
  | zrevrank (member : Bytes) : KeyMethod (Option Int)
  | zrem (member : Bytes) : KeyMethod Int
  | zremMembers (members : List Bytes) : KeyMethod Int
  | zremrangebyrank (start stop : Int64) : KeyMethod Int
  | zremrangebyscore (min max : Bytes) : KeyMethod Int
  | zscore (member : Bytes) : KeyMethod (Option (Option Double))

/-- What a method returns: its outputs, or none if it returns false, and the client behind it. -/
abbrev Answer (κ α : Type) : Type := Except Abort (Option α × κ)

/-- `RedisBase2`, as far as a client for several servers uses it. -/
class RedisBase2 (κ : Type) where
  /-- A method about a key. -/
  call {α : Type} : κ → Bytes → KeyMethod α → Answer κ α
  keys : κ → Bytes → Answer κ Mbulk
  randomkey : κ → Answer κ (Option Bytes)
  select : κ → Int32 → Except Abort (Bool × κ)
  flushall : κ → Except Abort (Bool × κ)
  flushdb : κ → Except Abort (Bool × κ)
  getHost : κ → Bytes
  getPort : κ → Bytes
  lastError : κ → Bytes

end LibRedis
