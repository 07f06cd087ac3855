import LibRedis.RedisBase2
import LibRedis.Lib.Decimal
import Mathlib.Data.List.Basic

/-!
# The client for several servers

`Redis2P` spreads keys over the hosts of a group by a hash, and keeps every group a copy of the
others: what writes goes to the host of its key in each group, and what reads goes to the first of
them that answers, beginning with a group that depends on the thread.
-/

namespace LibRedis

open Decimal (ascii)

/-- What `get_thread_id` returns: a positive `int`. -/
structure ThreadId where
  value : Int32
  positive : 0 < value

/-- `Redis2P`. -/
structure Redis2P (κ : Type) where
  /-- `hosts_`. -/
  hosts : List Bytes
  /-- `ports_`. -/
  ports : List Bytes
  /-- `hash_fn_`. -/
  hashFn : Bytes → UInt32
  /-- `groups_`. -/
  groups : Nat
  /-- `redis2_sp_vector_`. -/
  redis2SpVector : List κ
  /-- `error_`. -/
  error : Bytes

/-- `__get_seed`. -/
def ThreadId.seed (t : ThreadId) : Nat := t.value.toInt.toNat

namespace Redis2P

variable {κ : Type}

/-- `RedisBase2Multi::__inner_init`: the hosts and the ports, which it makes match. -/
def parseHosts (hostList portList : Bytes) : Except Bytes (List Bytes × List Bytes) :=
  let hosts := hostList.splitOn 44
  let ports := portList.splitOn 44
  if hosts.length ≠ ports.length ∧ ports.length ≠ 1 then
    .error (ascii "the number of hosts and ports do not match: " ++ Decimal.text hosts.length ++
      ascii " vs " ++ Decimal.text ports.length)
  else if ports.length = 1 ∧ hosts.length ≠ 1 then
    .ok (hosts, ports ++ List.replicate (hosts.length - 1) (ports.headD []))
  else .ok (hosts, ports)

/-- `inner_init`: how many groups there are. -/
def countGroups (hosts partitions : Nat) : Except Bytes Nat :=
  if partitions = 0 then .error (ascii "the number of partition must be not zero")
  else
    let groups := hosts / partitions
    if groups = 0 then .error (ascii "the number of group must be not zero")
    else if hosts % groups ≠ 0 then
      .error (ascii "invalid group number, hosts: " ++ Decimal.text hosts ++ ascii ", groups: " ++
        Decimal.text groups ++ ascii ", partitions: " ++ Decimal.text partitions)
    else .ok groups

/-- The constructor, with the text of the exception that it throws. Each client is made for its own
place in the vector. -/
def new (hostList portList : Bytes) (dbIndex : Int32) (timeoutMs : Int) (partitions : Int32)
    (hashFn : Bytes → UInt32) (newRedis2 : Nat → Bytes → Bytes → Int32 → Int → κ) :
    Except Bytes (Redis2P κ) := do
  let (hosts, ports) ← parseHosts hostList portList
  -- a negative number becomes a large `size_t`
  let groups ← countGroups hosts.length (partitions.toInt % 2 ^ 64).toNat
  let clients := (hosts.zip ports).mapIdx fun i (host, port) =>
    newRedis2 i host port dbIndex timeoutMs
  return ⟨hosts, ports, hashFn, groups, clients, []⟩

/-- The number of hosts in a group. -/
def hostNum (r : Redis2P κ) : Nat := r.redis2SpVector.length / r.groups

/-- `__get_key_host_index`. -/
def getKeyHostIndex (r : Redis2P κ) (key : Bytes) : Nat := (r.hashFn key).toNat % r.hostNum

/-- End of the functions that choose clients: there must be one. -/
def orUnavailable {β : Type} (r : Redis2P κ) (indexes : List β) : Bool × List β × Redis2P κ :=
  if indexes.isEmpty then (false, [], { r with error := ascii "no available redis server" })
  else (true, indexes, r)

/-- `__get_key_client`. -/
def getKeyClient (r : Redis2P κ) (t : ThreadId) (key : Bytes) (write : Bool) :
    Bool × List Nat × Redis2P κ :=
  let hostIndex := r.getKeyHostIndex key
  if !write then r.orUnavailable [hostIndex + r.hostNum * (t.seed % r.groups)]
  else
    r.orUnavailable ((List.range r.groups).map fun i =>
      hostIndex + r.hostNum * ((t.seed + i) % r.groups))

/-- `__get_keys_client`. Without `write` it stores into a vector that it has only reserved. -/
def getKeysClient (r : Redis2P κ) (keys : List Bytes) (write : Bool) :
    Except Abort (Bool × List (List Nat) × Redis2P κ) :=
  if !write && !keys.isEmpty then .error .outOfBounds
  else
    .ok (r.orUnavailable (keys.map fun key => (List.range r.groups).map fun j =>
      r.getKeyHostIndex key + r.hostNum * j))

/-- `__get_group_client`. -/
def getGroupClient (r : Redis2P κ) (t : ThreadId) : Bool × List Nat × Redis2P κ :=
  let hostIndex := if 1 < r.groups then t.seed % r.groups * r.hostNum else 0
  r.orUnavailable ((List.range r.hostNum).map fun i => hostIndex + i)

/-- A call of one client. -/
def atIndex {β : Type} (r : Redis2P κ) (i : Nat) (act : κ → Except Abort (β × κ)) :
    Except Abort (β × Redis2P κ) :=
  match r.redis2SpVector[i]? with
  | none => .error .outOfBounds
  | some client => do
    let (out, client) ← act client
    return (out, { r with redis2SpVector := r.redis2SpVector.set i client })

/-- `CHECK_EXPR`. -/
def checkExpr {α : Type} (r : Redis2P κ) (holds : Bool) (rest : Answer (Redis2P κ) α) :
    Answer (Redis2P κ) α :=
  if holds then rest else .ok (none, { r with error := ascii "EINVAL" })

variable [RedisBase2 κ]

/-- `__set_index_error`. -/
def setIndexError (r : Redis2P κ) (i : Nat) : Except Abort (Redis2P κ) :=
  match r.redis2SpVector[i]? with
  | none => .error .assertion
  | some client =>
    let text := ascii "[" ++ r.hosts.getD i [] ++ ascii ":" ++ r.ports.getD i [] ++ ascii "] " ++
      RedisBase2.lastError client
    .ok { r with error := text }

/-- `__set_host_error`. -/
def setHostError (r : Redis2P κ) (host : κ) : Redis2P κ :=
  let text := ascii "[" ++ RedisBase2.getHost host ++ ascii ":" ++ RedisBase2.getPort host ++
    ascii "] " ++ RedisBase2.lastError host
  { r with error := text }

/-- Loop of `FOR_EACH_GROUP_WRITE`: every client must succeed. The outputs are those of the last. -/
def writeEach {α : Type} (key : Bytes) (m : KeyMethod α) :
    List Nat → Option α → Redis2P κ → Except Abort (Option α × Redis2P κ)
  | [], last, r => return (last, r)
  | i :: rest, _, r => do
    let (out, r) ← r.atIndex i fun client => RedisBase2.call client key m
    if out.isNone then return (none, ← r.setIndexError i) else writeEach key m rest out r

/-- Loop of `FOR_EACH_GROUP_READ`: one client must succeed. -/
def readEach {α : Type} (key : Bytes) (m : KeyMethod α) :
    List Nat → Redis2P κ → Except Abort (Option α × Redis2P κ)
  | [], r => return (none, r)
  | i :: rest, r => do
    let (out, r) ← r.atIndex i fun client => RedisBase2.call client key m
    if out.isNone then readEach key m rest (← r.setIndexError i) else return (out, r)

/-- `FOR_EACH_GROUP_WRITE`. -/
def forEachGroupWrite {α : Type} (r : Redis2P κ) (t : ThreadId) (key : Bytes) (m : KeyMethod α) :
    Answer (Redis2P κ) α :=
  let (ok, indexes, r) := r.getKeyClient t key true
  if !ok then .ok (none, r) else writeEach key m indexes none r

/-- `FOR_EACH_GROUP_READ`. -/
def forEachGroupRead {α : Type} (r : Redis2P κ) (t : ThreadId) (key : Bytes) (m : KeyMethod α) :
    Answer (Redis2P κ) α :=
  let (ok, indexes, r) := r.getKeyClient t key true
  if !ok then .ok (none, r) else readEach key m indexes r

/-- `del`. -/
def del (r : Redis2P κ) (t : ThreadId) (key : Bytes) : Answer (Redis2P κ) Int :=
  r.forEachGroupWrite t key .del

/-- `dump`. -/
def dump (r : Redis2P κ) (t : ThreadId) (key : Bytes) : Answer (Redis2P κ) (Option Bytes) :=
  r.forEachGroupRead t key .dump

/-- `exists`. -/
def exists_ (r : Redis2P κ) (t : ThreadId) (key : Bytes) : Answer (Redis2P κ) Int :=
  r.forEachGroupRead t key .exists

/-- `expire`. -/
def expire (r : Redis2P κ) (t : ThreadId) (key : Bytes) (seconds : Int64) :
    Answer (Redis2P κ) Int :=
  r.forEachGroupWrite t key (.expire seconds)

/-- `expireat`. -/
def expireat (r : Redis2P κ) (t : ThreadId) (key : Bytes) (absSeconds : Int64) :
    Answer (Redis2P κ) Int :=
  r.forEachGroupWrite t key (.expireat absSeconds)

/-- `move`. -/
def move (r : Redis2P κ) (t : ThreadId) (key : Bytes) (db : Int32) : Answer (Redis2P κ) Int :=
  r.forEachGroupWrite t key (.move db)

/-- `persist`. -/
def persist (r : Redis2P κ) (t : ThreadId) (key : Bytes) : Answer (Redis2P κ) Int :=
  r.forEachGroupWrite t key .persist

/-- `pexpire`. -/
def pexpire (r : Redis2P κ) (t : ThreadId) (key : Bytes) (milliseconds : Int64) :
    Answer (Redis2P κ) Int :=
  r.forEachGroupWrite t key (.pexpire milliseconds)

/-- `pexpireat`. -/
def pexpireat (r : Redis2P κ) (t : ThreadId) (key : Bytes) (absMilliseconds : Int64) :
    Answer (Redis2P κ) Int :=
  r.forEachGroupWrite t key (.pexpireat absMilliseconds)

/-- `pttl`. -/
def pttl (r : Redis2P κ) (t : ThreadId) (key : Bytes) : Answer (Redis2P κ) Int :=
  r.forEachGroupRead t key .pttl

/-- `restore`. -/
def restore (r : Redis2P κ) (t : ThreadId) (key : Bytes) (ttl : Int64) (value : Bytes) :
    Answer (Redis2P κ) Unit :=
  r.forEachGroupWrite t key (.restore ttl value)

/-- `sort`. -/
def sort (r : Redis2P κ) (t : ThreadId) (key : Bytes) (phrases : Option (List Bytes)) :
    Answer (Redis2P κ) Mbulk :=
  r.forEachGroupRead t key (.sort phrases)

/-- `ttl`. -/
def ttl (r : Redis2P κ) (t : ThreadId) (key : Bytes) : Answer (Redis2P κ) Int :=
  r.forEachGroupRead t key .ttl

/-- `type`. -/
def type (r : Redis2P κ) (t : ThreadId) (key : Bytes) : Answer (Redis2P κ) Bytes :=
  r.forEachGroupRead t key .type

/-- `append`. -/
def append (r : Redis2P κ) (t : ThreadId) (key value : Bytes) : Answer (Redis2P κ) Int :=
  r.forEachGroupWrite t key (.append value)

/-- `decr`. -/
def decr (r : Redis2P κ) (t : ThreadId) (key : Bytes) : Answer (Redis2P κ) Int :=
  r.forEachGroupWrite t key .decr

/-- `decrby`. -/
def decrby (r : Redis2P κ) (t : ThreadId) (key : Bytes) (dec : Int64) : Answer (Redis2P κ) Int :=
  r.forEachGroupWrite t key (.decrby dec)

/-- `get`. -/
def get (r : Redis2P κ) (t : ThreadId) (key : Bytes) : Answer (Redis2P κ) (Option Bytes) :=
  r.forEachGroupRead t key .get

/-- `getbit`. -/
def getbit (r : Redis2P κ) (t : ThreadId) (key : Bytes) (offset : Int64) : Answer (Redis2P κ) Int :=
  r.forEachGroupRead t key (.getbit offset)

/-- `getrange`. -/
def getrange (r : Redis2P κ) (t : ThreadId) (key : Bytes) (start stop : Int64) :
    Answer (Redis2P κ) (Option Bytes) :=
  r.forEachGroupRead t key (.getrange start stop)

/-- `getset`. -/
def getset (r : Redis2P κ) (t : ThreadId) (key value : Bytes) : Answer (Redis2P κ) (Option Bytes) :=
  r.forEachGroupWrite t key (.getset value)

/-- `incr`. -/
def incr (r : Redis2P κ) (t : ThreadId) (key : Bytes) : Answer (Redis2P κ) Int :=
  r.forEachGroupWrite t key .incr

/-- `incrby`. -/
def incrby (r : Redis2P κ) (t : ThreadId) (key : Bytes) (inc : Int64) : Answer (Redis2P κ) Int :=
  r.forEachGroupWrite t key (.incrby inc)

/-- `incrbyfloat`. -/
def incrbyfloat (r : Redis2P κ) (t : ThreadId) (key : Bytes) (inc : Double) :
    Answer (Redis2P κ) (Option Double) :=
  r.forEachGroupWrite t key (.incrbyfloat inc)

/-- `psetex`. -/
def psetex (r : Redis2P κ) (t : ThreadId) (key : Bytes) (milliseconds : Int64) (value : Bytes) :
    Answer (Redis2P κ) Unit :=
  r.forEachGroupWrite t key (.psetex milliseconds value)

/-- `set`. -/
def set (r : Redis2P κ) (t : ThreadId) (key value : Bytes) : Answer (Redis2P κ) Unit :=
  r.forEachGroupWrite t key (.set value)

/-- `setbit`. -/
def setbit (r : Redis2P κ) (t : ThreadId) (key : Bytes) (offset value : Int64) :
    Answer (Redis2P κ) Int :=
  r.forEachGroupWrite t key (.setbit offset value)

/-- `setex`. -/
def setex (r : Redis2P κ) (t : ThreadId) (key : Bytes) (seconds : Int64) (value : Bytes) :
    Answer (Redis2P κ) Unit :=
  r.forEachGroupWrite t key (.setex seconds value)

/-- `setnx`. -/
def setnx (r : Redis2P κ) (t : ThreadId) (key value : Bytes) : Answer (Redis2P κ) Int :=
  r.forEachGroupWrite t key (.setnx value)

/-- `setrange`. -/
def setrange (r : Redis2P κ) (t : ThreadId) (key : Bytes) (offset : Int64) (value : Bytes) :
    Answer (Redis2P κ) Int :=
  r.forEachGroupWrite t key (.setrange offset value)

/-- `strlen`. -/
def strlen (r : Redis2P κ) (t : ThreadId) (key : Bytes) : Answer (Redis2P κ) Int :=
  r.forEachGroupRead t key .strlen

/-- `hdel`. -/
def hdel (r : Redis2P κ) (t : ThreadId) (key field : Bytes) : Answer (Redis2P κ) Int :=
  r.forEachGroupWrite t key (.hdel field)

/-- `hdel` of several fields. -/
def hdelFields (r : Redis2P κ) (t : ThreadId) (key : Bytes) (fields : List Bytes) :
    Answer (Redis2P κ) Int :=
  r.forEachGroupWrite t key (.hdelFields fields)

/-- `hexists`. -/
def hexists (r : Redis2P κ) (t : ThreadId) (key field : Bytes) : Answer (Redis2P κ) Int :=
  r.forEachGroupRead t key (.hexists field)

/-- `hget`. -/
def hget (r : Redis2P κ) (t : ThreadId) (key field : Bytes) : Answer (Redis2P κ) (Option Bytes) :=
  r.forEachGroupRead t key (.hget field)

/-- `hgetall`. -/
def hgetall (r : Redis2P κ) (t : ThreadId) (key : Bytes) : Answer (Redis2P κ) Mbulk :=
  r.forEachGroupRead t key .hgetall

/-- `hincr`. -/
def hincr (r : Redis2P κ) (t : ThreadId) (key field : Bytes) : Answer (Redis2P κ) Int :=
  r.forEachGroupWrite t key (.hincr field)

/-- `hincrby`. -/
def hincrby (r : Redis2P κ) (t : ThreadId) (key field : Bytes) (inc : Int64) :
    Answer (Redis2P κ) Int :=
  r.forEachGroupWrite t key (.hincrby field inc)

/-- `hincrbyfloat`. -/
def hincrbyfloat (r : Redis2P κ) (t : ThreadId) (key field : Bytes) (inc : Double) :
    Answer (Redis2P κ) (Option Double) :=
  r.forEachGroupWrite t key (.hincrbyfloat field inc)

/-- `hkeys`. -/
def hkeys (r : Redis2P κ) (t : ThreadId) (key : Bytes) : Answer (Redis2P κ) Mbulk :=
  r.forEachGroupRead t key .hkeys

/-- `hlen`. -/
def hlen (r : Redis2P κ) (t : ThreadId) (key : Bytes) : Answer (Redis2P κ) Int :=
  r.forEachGroupRead t key .hlen

/-- `hmget`. -/
def hmget (r : Redis2P κ) (t : ThreadId) (key : Bytes) (fields : List Bytes) :
    Answer (Redis2P κ) Mbulk :=
  r.forEachGroupRead t key (.hmget fields)

/-- `hmset`. -/
def hmset (r : Redis2P κ) (t : ThreadId) (key : Bytes) (fields values : List Bytes) :
    Answer (Redis2P κ) Unit :=
  r.checkExpr (fields.length = values.length) (r.forEachGroupWrite t key (.hmset fields values))

/-- `hset`. -/
def hset (r : Redis2P κ) (t : ThreadId) (key field value : Bytes) : Answer (Redis2P κ) Int :=
  r.forEachGroupWrite t key (.hset field value)

/-- `hsetnx`. It forwards to `hset`. -/
def hsetnx (r : Redis2P κ) (t : ThreadId) (key field value : Bytes) : Answer (Redis2P κ) Int :=
  r.forEachGroupWrite t key (.hset field value)

/-- `hvals`. -/
def hvals (r : Redis2P κ) (t : ThreadId) (key : Bytes) : Answer (Redis2P κ) Mbulk :=
  r.forEachGroupRead t key .hvals

/-- `lindex`. -/
def lindex (r : Redis2P κ) (t : ThreadId) (key : Bytes) (index : Int64) :
    Answer (Redis2P κ) (Option Bytes) :=
  r.forEachGroupRead t key (.lindex index)

/-- `linsert`. -/
def linsert (r : Redis2P κ) (t : ThreadId) (key : Bytes) (before : Bool) (pivot value : Bytes) :
    Answer (Redis2P κ) Int :=
  r.forEachGroupWrite t key (.linsert before pivot value)

/-- `llen`. -/
def llen (r : Redis2P κ) (t : ThreadId) (key : Bytes) : Answer (Redis2P κ) Int :=
  r.forEachGroupRead t key .llen

/-- `lpop`. -/
def lpop (r : Redis2P κ) (t : ThreadId) (key : Bytes) : Answer (Redis2P κ) (Option Bytes) :=
  r.forEachGroupWrite t key .lpop

/-- `lpush`. -/
def lpush (r : Redis2P κ) (t : ThreadId) (key value : Bytes) : Answer (Redis2P κ) Int :=
  r.forEachGroupWrite t key (.lpush value)

/-- `lpush` of several values. -/
def lpushValues (r : Redis2P κ) (t : ThreadId) (key : Bytes) (values : List Bytes) :
    Answer (Redis2P κ) Int :=
  r.forEachGroupWrite t key (.lpushValues values)

/-- `lpushx`. -/
def lpushx (r : Redis2P κ) (t : ThreadId) (key value : Bytes) : Answer (Redis2P κ) Int :=
  r.forEachGroupWrite t key (.lpushx value)

/-- `lrange`. -/
def lrange (r : Redis2P κ) (t : ThreadId) (key : Bytes) (start stop : Int64) :
    Answer (Redis2P κ) Mbulk :=
  r.forEachGroupRead t key (.lrange start stop)

/-- `lrem`. -/
def lrem (r : Redis2P κ) (t : ThreadId) (key : Bytes) (count : Int64) (value : Bytes) :
    Answer (Redis2P κ) Int :=
  r.forEachGroupWrite t key (.lrem count value)

/-- `lset`. -/
def lset (r : Redis2P κ) (t : ThreadId) (key : Bytes) (index : Int64) (value : Bytes) :
    Answer (Redis2P κ) Unit :=
  r.forEachGroupWrite t key (.lset index value)

/-- `ltrim`. -/
def ltrim (r : Redis2P κ) (t : ThreadId) (key : Bytes) (start stop : Int64) :
    Answer (Redis2P κ) Unit :=
  r.forEachGroupWrite t key (.ltrim start stop)

/-- `rpop`. -/
def rpop (r : Redis2P κ) (t : ThreadId) (key : Bytes) : Answer (Redis2P κ) (Option Bytes) :=
  r.forEachGroupWrite t key .rpop

/-- `rpush`. -/
def rpush (r : Redis2P κ) (t : ThreadId) (key value : Bytes) : Answer (Redis2P κ) Int :=
  r.forEachGroupWrite t key (.rpush value)

/-- `rpush` of several values. -/
def rpushValues (r : Redis2P κ) (t : ThreadId) (key : Bytes) (values : List Bytes) :
    Answer (Redis2P κ) Int :=
  r.forEachGroupWrite t key (.rpushValues values)

/-- `rpushx`. -/
def rpushx (r : Redis2P κ) (t : ThreadId) (key value : Bytes) : Answer (Redis2P κ) Int :=
  r.forEachGroupWrite t key (.rpushx value)

/-- `sadd`. -/
def sadd (r : Redis2P κ) (t : ThreadId) (key member : Bytes) : Answer (Redis2P κ) Int :=
  r.forEachGroupWrite t key (.sadd member)

/-- `sadd` of several members. -/
def saddMembers (r : Redis2P κ) (t : ThreadId) (key : Bytes) (members : List Bytes) :
    Answer (Redis2P κ) Int :=
  r.forEachGroupWrite t key (.saddMembers members)

/-- `scard`. -/
def scard (r : Redis2P κ) (t : ThreadId) (key : Bytes) : Answer (Redis2P κ) Int :=
  r.forEachGroupRead t key .scard

/-- `sismember`. -/
def sismember (r : Redis2P κ) (t : ThreadId) (key member : Bytes) : Answer (Redis2P κ) Int :=
  r.forEachGroupRead t key (.sismember member)

/-- `smembers`. -/
def smembers (r : Redis2P κ) (t : ThreadId) (key : Bytes) : Answer (Redis2P κ) Mbulk :=
  r.forEachGroupRead t key .smembers

/-- `spop`. -/
def spop (r : Redis2P κ) (t : ThreadId) (key : Bytes) : Answer (Redis2P κ) (Option Bytes) :=
  r.forEachGroupWrite t key .spop

/-- `srandmember`. -/
def srandmember (r : Redis2P κ) (t : ThreadId) (key : Bytes) : Answer (Redis2P κ) (Option Bytes) :=
  r.forEachGroupRead t key .srandmember

/-- `srem`. -/
def srem (r : Redis2P κ) (t : ThreadId) (key member : Bytes) : Answer (Redis2P κ) Int :=
  r.forEachGroupWrite t key (.srem member)

/-- `srem` of several members. -/
def sremMembers (r : Redis2P κ) (t : ThreadId) (key : Bytes) (members : List Bytes) :
    Answer (Redis2P κ) Int :=
  r.forEachGroupWrite t key (.sremMembers members)

/-- `zadd`. -/
def zadd (r : Redis2P κ) (t : ThreadId) (key : Bytes) (score : Double) (member : Bytes) :
    Answer (Redis2P κ) Int :=
  r.forEachGroupWrite t key (.zadd score member)

/-- `zadd` of several members. -/
def zaddMembers (r : Redis2P κ) (t : ThreadId) (key : Bytes) (scores : List Double) (members : List
    Bytes) :
    Answer (Redis2P κ) Int :=
  r.checkExpr (scores.length = members.length) (r.forEachGroupWrite t key (.zaddMembers scores
    members))

/-- `zcard`. -/
def zcard (r : Redis2P κ) (t : ThreadId) (key : Bytes) : Answer (Redis2P κ) Int :=
  r.forEachGroupRead t key .zcard

/-- `zcount`. -/
def zcount (r : Redis2P κ) (t : ThreadId) (key min max : Bytes) : Answer (Redis2P κ) Int :=
  r.forEachGroupRead t key (.zcount min max)

/-- `zincrby`. -/
def zincrby (r : Redis2P κ) (t : ThreadId) (key : Bytes) (increment : Double) (member : Bytes) :
    Answer (Redis2P κ) (Option Double) :=
  r.forEachGroupWrite t key (.zincrby increment member)

/-- `zrange`. -/
def zrange (r : Redis2P κ) (t : ThreadId) (key : Bytes) (start stop : Int64) (withscores : Bool) :
    Answer (Redis2P κ) Mbulk :=
  r.forEachGroupRead t key (.zrange start stop withscores)

/-- `zrevrange`. -/
def zrevrange (r : Redis2P κ) (t : ThreadId) (key : Bytes) (start stop : Int64) (withscores : Bool)
    :
    Answer (Redis2P κ) Mbulk :=
  r.forEachGroupRead t key (.zrevrange start stop withscores)

/-- `zrangebyscore`. -/
def zrangebyscore (r : Redis2P κ) (t : ThreadId) (key min max : Bytes) (withscores : Bool) (limit :
    Option ZRangebyscoreLimit) :
    Answer (Redis2P κ) Mbulk :=
  r.forEachGroupRead t key (.zrangebyscore min max withscores limit)

/-- `zrevrangebyscore`. -/
def zrevrangebyscore (r : Redis2P κ) (t : ThreadId) (key max min : Bytes) (withscores : Bool) (limit
    : Option ZRangebyscoreLimit) :
    Answer (Redis2P κ) Mbulk :=
  r.forEachGroupRead t key (.zrevrangebyscore max min withscores limit)

/-- `zrank`. -/
def zrank (r : Redis2P κ) (t : ThreadId) (key member : Bytes) : Answer (Redis2P κ) (Option Int) :=
  r.forEachGroupRead t key (.zrank member)

/-- `zrevrank`. -/
def zrevrank (r : Redis2P κ) (t : ThreadId) (key member : Bytes) :
    Answer (Redis2P κ) (Option Int) :=
  r.forEachGroupRead t key (.zrevrank member)

/-- `zrem`. -/
def zrem (r : Redis2P κ) (t : ThreadId) (key member : Bytes) : Answer (Redis2P κ) Int :=
  r.forEachGroupWrite t key (.zrem member)

/-- `zrem` of several members. -/
def zremMembers (r : Redis2P κ) (t : ThreadId) (key : Bytes) (members : List Bytes) :
    Answer (Redis2P κ) Int :=
  r.forEachGroupWrite t key (.zremMembers members)

/-- `zremrangebyrank`. -/
def zremrangebyrank (r : Redis2P κ) (t : ThreadId) (key : Bytes) (start stop : Int64) :
    Answer (Redis2P κ) Int :=
  r.forEachGroupWrite t key (.zremrangebyrank start stop)

/-- `zremrangebyscore`. -/
def zremrangebyscore (r : Redis2P κ) (t : ThreadId) (key min max : Bytes) :
    Answer (Redis2P κ) Int :=
  r.forEachGroupWrite t key (.zremrangebyscore min max)

/-- `zscore`. -/
def zscore (r : Redis2P κ) (t : ThreadId) (key member : Bytes) :
    Answer (Redis2P κ) (Option (Option Double)) :=
  r.forEachGroupRead t key (.zscore member)

/-- A method about a key. -/
def call {α : Type} (r : Redis2P κ) (t : ThreadId) (key : Bytes) : KeyMethod α → Answer (Redis2P κ)
    α
  | .del => r.del t key
  | .dump => r.dump t key
  | .exists => r.exists_ t key
  | .expire seconds => r.expire t key seconds
  | .expireat absSeconds => r.expireat t key absSeconds
  | .move db => r.move t key db
  | .persist => r.persist t key
  | .pexpire milliseconds => r.pexpire t key milliseconds
  | .pexpireat absMilliseconds => r.pexpireat t key absMilliseconds
  | .pttl => r.pttl t key
  | .restore ttl value => r.restore t key ttl value
  | .sort phrases => r.sort t key phrases
  | .ttl => r.ttl t key
  | .type => r.type t key
  | .append value => r.append t key value
  | .decr => r.decr t key
  | .decrby dec => r.decrby t key dec
  | .get => r.get t key
  | .getbit offset => r.getbit t key offset
  | .getrange start stop => r.getrange t key start stop
  | .getset value => r.getset t key value
  | .incr => r.incr t key
  | .incrby inc => r.incrby t key inc
  | .incrbyfloat inc => r.incrbyfloat t key inc
  | .psetex milliseconds value => r.psetex t key milliseconds value
  | .set value => r.set t key value
  | .setbit offset value => r.setbit t key offset value
  | .setex seconds value => r.setex t key seconds value
  | .setnx value => r.setnx t key value
  | .setrange offset value => r.setrange t key offset value
  | .strlen => r.strlen t key
  | .hdel field => r.hdel t key field
  | .hdelFields fields => r.hdelFields t key fields
  | .hexists field => r.hexists t key field
  | .hget field => r.hget t key field
  | .hgetall => r.hgetall t key
  | .hincr field => r.hincr t key field
  | .hincrby field inc => r.hincrby t key field inc
  | .hincrbyfloat field inc => r.hincrbyfloat t key field inc
  | .hkeys => r.hkeys t key
  | .hlen => r.hlen t key
  | .hmget fields => r.hmget t key fields
  | .hmset fields values => r.hmset t key fields values
  | .hset field value => r.hset t key field value
  | .hsetnx field value => r.hsetnx t key field value
  | .hvals => r.hvals t key
  | .lindex index => r.lindex t key index
  | .linsert before pivot value => r.linsert t key before pivot value
  | .llen => r.llen t key
  | .lpop => r.lpop t key
  | .lpush value => r.lpush t key value
  | .lpushValues values => r.lpushValues t key values
  | .lpushx value => r.lpushx t key value
  | .lrange start stop => r.lrange t key start stop
  | .lrem count value => r.lrem t key count value
  | .lset index value => r.lset t key index value
  | .ltrim start stop => r.ltrim t key start stop
  | .rpop => r.rpop t key
  | .rpush value => r.rpush t key value
  | .rpushValues values => r.rpushValues t key values
  | .rpushx value => r.rpushx t key value
  | .sadd member => r.sadd t key member
  | .saddMembers members => r.saddMembers t key members
  | .scard => r.scard t key
  | .sismember member => r.sismember t key member
  | .smembers => r.smembers t key
  | .spop => r.spop t key
  | .srandmember => r.srandmember t key
  | .srem member => r.srem t key member
  | .sremMembers members => r.sremMembers t key members
  | .zadd score member => r.zadd t key score member
  | .zaddMembers scores members => r.zaddMembers t key scores members
  | .zcard => r.zcard t key
  | .zcount min max => r.zcount t key min max
  | .zincrby increment member => r.zincrby t key increment member
  | .zrange start stop withscores => r.zrange t key start stop withscores
  | .zrevrange start stop withscores => r.zrevrange t key start stop withscores
  | .zrangebyscore min max withscores limit => r.zrangebyscore t key min max withscores limit
  | .zrevrangebyscore max min withscores limit => r.zrevrangebyscore t key max min withscores limit
  | .zrank member => r.zrank t key member
  | .zrevrank member => r.zrevrank t key member
  | .zrem member => r.zrem t key member
  | .zremMembers members => r.zremMembers t key members
  | .zremrangebyrank start stop => r.zremrangebyrank t key start stop
  | .zremrangebyscore min max => r.zremrangebyscore t key min max
  | .zscore member => r.zscore t key member

/-- Loop of `del` of several keys, over the keys and the clients of each. -/
def delEach : List (Bytes × List Nat) → Int → Int → Redis2P κ →
    Except Abort (Option Int × Redis2P κ)
  | [], _, totalDeleted, r => return (some totalDeleted, r)
  | (key, indexes) :: rest, deleted, totalDeleted, r => do
    match ← writeEach key .del indexes (some deleted) r with
    | (none, r) => return (none, r)
    | (some deleted, r) => delEach rest deleted (totalDeleted + deleted) r

/-- `del` of several keys. -/
def delKeys (r : Redis2P κ) (keys : List Bytes) : Except Abort (Option Int × Redis2P κ) := do
  let (ok, indexes, r) ← r.getKeysClient keys true
  if !ok then return (none, r) else delEach (keys.zip indexes) 0 0 r

/-- Loop of `keys`. -/
def keysEach (pattern : Bytes) : List Nat → Mbulk → Redis2P κ →
    Except Abort (Option Mbulk × Redis2P κ)
  | [], found, r => return (some found, r)
  | i :: rest, found, r => do
    match ← r.atIndex i fun client => RedisBase2.keys client pattern with
    | (none, r) => return (none, ← r.setIndexError i)
    | (some mb, r) => keysEach pattern rest (found ++ mb) r

/-- `keys`. -/
def keys (r : Redis2P κ) (t : ThreadId) (pattern : Bytes) : Answer (Redis2P κ) Mbulk :=
  let (ok, indexes, r) := r.getGroupClient t
  if !ok then .ok (none, r) else keysEach pattern indexes [] r

/-- Loop of `randomkey`. -/
def randomkeyEach : List Nat → Redis2P κ → Except Abort (Option (Option Bytes) × Redis2P κ)
  | [], r => return (none, r)
  | i :: rest, r => do
    let (out, r) ← r.atIndex i RedisBase2.randomkey
    if out.isNone then randomkeyEach rest (← r.setIndexError i) else return (out, r)

/-- `randomkey`. -/
def randomkey (r : Redis2P κ) (t : ThreadId) : Answer (Redis2P κ) (Option Bytes) :=
  let (ok, indexes, r) := r.getGroupClient t
  if !ok then .ok (none, r) else randomkeyEach indexes r

/-- Loop of `mget`. -/
def mgetEach (t : ThreadId) : List Bytes → Mbulk → Redis2P κ →
    Except Abort (Option Mbulk × Redis2P κ)
  | [], values, r => return (some values, r)
  | key :: rest, values, r => do
    match ← r.get t key with
    | (none, r) => return (none, r)
    | (some value, r) => mgetEach t rest (values ++ [value]) r

/-- `mget`. -/
def mget (r : Redis2P κ) (t : ThreadId) (keys : List Bytes) : Answer (Redis2P κ) Mbulk :=
  mgetEach t keys [] r

/-- Loop of `mset`. -/
def msetEach (t : ThreadId) : List (Bytes × Bytes) → Redis2P κ →
    Except Abort (Option Unit × Redis2P κ)
  | [], r => return (some (), r)
  | (key, value) :: rest, r => do
    match ← r.set t key value with
    | (none, r) => return (none, r)
    | (some (), r) => msetEach t rest r

/-- `mset`. -/
def mset (r : Redis2P κ) (t : ThreadId) (keys values : List Bytes) : Answer (Redis2P κ) Unit :=
  r.checkExpr (keys.length = values.length) (msetEach t (keys.zip values) r)

/-- Loop of `select`, `flushall` and `flushdb`: every client is called, and all must succeed. -/
def allEach (act : κ → Except Abort (Bool × κ)) : List Nat → Bool → Redis2P κ →
    Except Abort (Bool × Redis2P κ)
  | [], ret, r => return (ret, r)
  | i :: rest, ret, r => do
    let ((ok, sp), r) ← r.atIndex i fun client => do
      let (ok, client) ← act client
      return ((ok, client), client)
    if !ok then allEach act rest false (r.setHostError sp) else allEach act rest ret r

/-- `select`. -/
def select (r : Redis2P κ) (index : Int32) : Except Abort (Bool × Redis2P κ) :=
  allEach (RedisBase2.select · index) (List.range r.redis2SpVector.length) true r

/-- `flushall`. -/
def flushall (r : Redis2P κ) : Except Abort (Bool × Redis2P κ) :=
  allEach RedisBase2.flushall (List.range r.redis2SpVector.length) true r

/-- `flushdb`. -/
def flushdb (r : Redis2P κ) : Except Abort (Bool × Redis2P κ) :=
  allEach RedisBase2.flushdb (List.range r.redis2SpVector.length) true r

end Redis2P

end LibRedis
