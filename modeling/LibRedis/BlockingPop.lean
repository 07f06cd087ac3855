import LibRedis.RedisMethods

/-!
# Pops from lists

`blpop`, `brpop` and `brpoplpush` wait for an element without a timeout, and put the blocking mode
back behind the reply. What they return is what their command is answered with.
-/

namespace LibRedis

open Decimal (ascii)

namespace RedisOutput

/-- The end of `bxpop`: a key and a member, or expired. -/
def takePop : RedisOutput → Option (Option (Bytes × Bytes))
  | .mbulks [some key, some member] => some (some (key, member))
  | .nilMbulks => some Option.none
  | _ => Option.none

/-- The end of `brpoplpush`: a member, or expired. -/
def takeMoved : RedisOutput → Option (Option Bytes)
  | .bulk member => some (some member)
  | .nilSmbulks => some Option.none
  | _ => Option.none

end RedisOutput

namespace Redis2

open RedisOutput (takePop takeMoved takeBulk)

variable {π : Type} [Peer π]

/-- A method that blocks: the command is sent, and the reply taken apart. -/
def blockingMethod {α : Type} (r : Redis2 π) (c : RedisCommand) (take : RedisOutput → Option α) :
    Except Abort (Option α × Redis2 π) := do
  let (ok, c, r) ← r.execBlocking c
  if !ok then return (none, r)
  else
    match take c.out with
    | some outputs => return (some outputs, r)
    | none => return (none, r.onReplyTypeError c)

/-- The command of `bxpop`. -/
def bxpopCommand (isBlpop : Bool) (keys : List Bytes) (timeout : Int64) : RedisCommand :=
  ((RedisCommand.new (if isBlpop then .blpop else .brpop)).pushArgs keys).pushInt timeout.toInt

/-- `bxpop`. -/
def bxpop (r : Redis2 π) (isBlpop : Bool) (keys : List Bytes) (timeout : Int64) :
    Except Abort (Option (Option (Bytes × Bytes)) × Redis2 π) :=
  r.blockingMethod (bxpopCommand isBlpop keys timeout) takePop

/-- `blpop`, which takes a vector of keys. -/
def blpopKeys (r : Redis2 π) (keys : List Bytes) (timeout : Int64) :
    Except Abort (Option (Option (Bytes × Bytes)) × Redis2 π) := r.bxpop true keys timeout

/-- `brpop`, which does too. -/
def brpopKeys (r : Redis2 π) (keys : List Bytes) (timeout : Int64) :
    Except Abort (Option (Option (Bytes × Bytes)) × Redis2 π) := r.bxpop false keys timeout

/-- `brpoplpush`. -/
def brpoplpush (r : Redis2 π) (source destination : Bytes) (timeout : Int64) :
    Except Abort (Option (Option Bytes) × Redis2 π) :=
  r.blockingMethod (((keyed .brpoplpush source).pushArg destination).pushInt timeout.toInt) takeMoved

/-- `rpoplpush`. -/
def rpoplpush (r : Redis2 π) (source destination : Bytes) :
    Except Abort (Option (Option Bytes) × Redis2 π) :=
  r.method ((keyed .rpoplpush source).pushArg destination) takeBulk

end Redis2

end LibRedis
