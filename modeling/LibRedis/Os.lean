import Mathlib.Data.List.Basic
import LibRedis.Lib.Decimal

/-!
# Operating system calls

The socket functions of `os.cpp` over a scripted operating system. What the outside does is not
computed: each call takes its outcome from a script that theorems quantify over, so that every
chunking of the received bytes, every partial send, every timeout and every failure is one of the
scripts. An exhausted script answers as a system does that neither fails nor limits a call.
-/

namespace LibRedis

/-- A `std::string`, which may hold any bytes. -/
abbrev Bytes := List UInt8

/-- How a call of the client can fail to return. -/
inductive Abort where
  /-- An `assert` fails. -/
  | assertion
  /-- A vector is accessed outside its bounds. -/
  | outOfBounds
  /-- `std::length_error` is thrown: a vector would be larger than `max_size`. -/
  | lengthError
  /-- The call never returns: a loop without end, or a wait without a timeout. -/
  | diverges
  deriving DecidableEq, Repr

namespace Abort

/-- The ways not to return that keep to the rules of the vectors: too much is asked for, or nothing
happens any more. -/
inductive Unfinished : Abort → Prop
  /-- The vector cannot be made. -/
  | lengthError : Unfinished .lengthError
  /-- The call goes on for ever. -/
  | diverges : Unfinished .diverges

end Abort

/-- `max_size` of a vector with elements of so many bytes. -/
def maxSize (bytes : Nat) : Nat := (2 ^ 63 - 1) / bytes

/-- A call returns when something that is seen of its result is known. -/
theorem returned_of_view {α β : Type} {result : Except Abort α} {view : α → β} {seen : β}
    (shows : result.toOption.map view = some seen) : ∃ returned, result = .ok returned ∧
      view returned = seen := by
  cases result with
  | error abort => simp [Except.toOption] at shows
  | ok returned => exact ⟨returned, rfl, Option.some.inj shows⟩

/-- A call that leaves something has returned it. -/
theorem returned_of_toOption {ε α : Type} {result : Except ε α} {returned : α}
    (shows : result.toOption = some returned) : result = .ok returned := by
  cases result with
  | error failure => cases shows
  | ok value =>
    cases shows
    rfl

/-- A sequence of calls returns when its first call does and the rest of them do. -/
theorem bind_returns {ε α β : Type} {first : Except ε α} {rest : α → Except ε β} {b : β}
    (returns : first >>= rest = .ok b) : ∃ a, first = .ok a ∧ rest a = .ok b := by
  cases first with
  | error abort => cases returns
  | ok a => exact ⟨a, rfl, returns⟩

/-- A sequence of calls that does not return has stopped in the first one or behind it. -/
theorem bind_aborts {ε α β : Type} {first : Except ε α} {rest : α → Except ε β} {abort : ε}
    (aborts : first >>= rest = .error abort) :
    first = .error abort ∨ ∃ a, first = .ok a ∧ rest a = .error abort := by
  cases first with
  | error reason =>
    cases aborts
    exact Or.inl rfl
  | ok a => exact Or.inr ⟨a, rfl, aborts⟩

/-- What is made of a result was made of what a call returned. -/
theorem map_returns {α β : Type} {call : Except Abort α} {view : α → β} {b : β}
    (returns : call.map view = .ok b) : ∃ a, call = .ok a ∧ view a = b := by
  cases call with
  | error abort => cases returns
  | ok a => exact ⟨a, rfl, Except.ok.inj returns⟩

/-- `EINTR`. -/
def eintr : Int := 4
/-- `EAGAIN`, which is also `EWOULDBLOCK`. -/
def eagain : Int := 11
/-- `EINVAL`. -/
def einval : Int := 22
/-- `ERANGE`. -/
def erange : Int := 34
/-- `ETIMEDOUT`. -/
def etimedout : Int := 110
/-- `EINPROGRESS`. -/
def einprogress : Int := 115

/-- Conversion of a count to the 32-bit `int` that the socket functions return. -/
def toInt32 (count : Nat) : Int := Int.bmod count (2 ^ 32)

/-- Linux moves at most this many bytes in one `send` or `recv`. -/
def maxTransfer : Nat := 0x7ffff000

/-- What the C library leaves open. -/
structure Platform where
  /-- `strerror_r`. -/
  strerror : Int → Bytes
  /-- Whether `strtol` reports a text without digits by setting `errno` to `EINVAL`. -/
  noDigitsEinval : Bool

/-- Outcome of resolving, creating and connecting a socket. -/
inductive ConnectOutcome where
  /-- Connected; a connection that is not made at once leaves `EINPROGRESS` in `errno`. -/
  | opened (fd : Nat) (inProgress : Bool)
  /-- One of the steps fails with this `errno`. -/
  | failed (ec : Int)
  deriving DecidableEq, Repr

/-- Outcome of one round of `poll` and `send`. -/
inductive SendOutcome where
  /-- One byte more than this at most is accepted. -/
  | sent (most : Nat)
  /-- `send` returns zero. -/
  | zero
  /-- `poll` times out. -/
  | timeout
  /-- `poll` fails. -/
  | pollFailed (ec : Int)
  /-- `send` fails. -/
  | failed (ec : Int)
  deriving DecidableEq, Repr

/-- Outcome of one round of `poll` and `recv`. -/
inductive RecvOutcome where
  /-- One byte more than this at most is handed over. -/
  | chunk (most : Nat)
  /-- The peer has closed: `recv` returns zero and leaves `errno` alone. -/
  | eof
  /-- `poll` times out. -/
  | timeout
  /-- `poll` or `recv` fails. -/
  | failed (ec : Int)
  deriving DecidableEq, Repr

/-- Outcome of one `recv` of `is_open_slow`, which only peeks and does not wait. -/
inductive PeekOutcome where
  /-- A byte is there if any is on its way. -/
  | byte
  /-- The peer has closed: `recv` returns zero and leaves `errno` alone. -/
  | eof
  /-- `recv` fails. -/
  | failed (ec : Int)
  deriving DecidableEq, Repr

/-- What one peek says of the connection. -/
def PeekOutcome.isOpen : PeekOutcome → Bool
  | .byte => true
  | .eof => false
  | .failed ec => ec == eintr || ec == eagain

/-- The other end of a connection. -/
class Peer (π : Type) where
  /-- A new connection is accepted; the bytes the peer sends unasked. -/
  accept : π → Bytes × π
  /-- Bytes arrive on the current connection; the bytes the peer sends back. -/
  receive : π → Bytes → Bytes × π

/-- A peer that has prepared what it sends on each occasion. -/
structure ScriptedPeer where
  /-- What it sends, next first. -/
  answers : List Bytes

instance : Peer ScriptedPeer where
  accept p := (p.answers.headD [], ⟨p.answers.tail⟩)
  receive p _ := (p.answers.headD [], ⟨p.answers.tail⟩)

/-- The operating system as one thread sees it, with the peer of its connection. -/
structure Os (π : Type) where
  /-- Fixed behaviour of the C library. -/
  platform : Platform
  /-- The thread's `errno`. -/
  errno : Int
  /-- Seconds on the clock. -/
  clock : Int
  /-- Seconds that pass before each reading of the clock. -/
  ticks : List Nat
  /-- Outcomes of the coming connects. -/
  connects : List ConnectOutcome
  /-- Outcomes of the coming sends. -/
  sends : List SendOutcome
  /-- Outcomes of the coming receives. -/
  recvs : List RecvOutcome
  /-- Outcomes of the coming peeks. -/
  probes : List PeekOutcome
  /-- Lengths asked of `recv` so far, latest first. -/
  recvLens : List Nat
  /-- Bytes sent by the peer on the current connection and not yet received. -/
  incoming : Bytes
  /-- The other end. -/
  peer : π

namespace Os

variable {π : Type}

/-- A system on which nothing has happened yet and no call but `recv` is limited. -/
def start (peer : π) (recvs : List RecvOutcome) : Os π where
  platform := { strerror := fun _ => [], noDigitsEinval := true }
  errno := 0
  clock := 0
  ticks := []
  connects := []
  sends := []
  recvs := recvs
  probes := []
  recvLens := []
  incoming := []
  peer := peer

/-- `::time`. -/
def time (os : Os π) : Int × Os π :=
  let now := os.clock + os.ticks.headD 0
  (now, { os with clock := now, ticks := os.ticks.tail })

/-- `resolve_host`, `socket` and `timed_connect`: the new descriptor, or none with `errno` set. -/
def connect [Peer π] (os : Os π) : Option Nat × Os π :=
  match os.connects.headD (.opened 3 true) with
  | .failed ec => (none, { os with connects := os.connects.tail, errno := ec })
  | .opened fd inProgress =>
    let (greeting, peer) := Peer.accept os.peer
    (some fd, { os with
      connects := os.connects.tail
      errno := if inProgress then einprogress else os.errno
      incoming := greeting
      peer := peer })

/-- `safe_close`: what the peer sent and nobody received is gone. -/
def safeClose (os : Os π) : Os π := { os with incoming := [] }

/-- Loop of `is_open_slow`, one outcome a round: the result, `errno`, and the outcomes to come.
Where no byte has arrived, `recv` fails with `EAGAIN`. -/
def isOpenSlowLoop (arrived : Bool) : List PeekOutcome → Int → Bool × Int × List PeekOutcome
  | [], errno => (true, if arrived then errno else eagain, [])
  | .byte :: rest, errno => (true, if arrived then errno else eagain, rest)
  | .eof :: rest, errno => (false, errno, rest)
  | .failed ec :: rest, _ =>
    if ec = eintr then isOpenSlowLoop arrived rest eintr else (ec == eagain, ec, rest)

/-- `is_open_slow`. -/
def isOpenSlow (os : Os π) : Bool × Os π :=
  let (isOpen, errno, probes) := isOpenSlowLoop (!os.incoming.isEmpty) os.probes os.errno
  (isOpen, { os with errno := errno, probes := probes })

/-- `poll` on a descriptor on which nothing happens: a timeout, or a wait without end. -/
def wait (os : Os π) (timeout : Int) : Except Abort (Os π) :=
  if timeout < 0 then .error .diverges else .ok { os with errno := etimedout }

/-- `timed_read`: the count it returns and the bytes written to the buffer. `poll` ignores a
negative descriptor. -/
def timedRead (os : Os π) (fd : Int) (len : Nat) (timeout : Int) :
    Except Abort (Int × Bytes × Os π) := do
  let outcome := os.recvs.headD (.chunk len)
  let os := { os with recvs := os.recvs.tail }
  if fd < 0 then
    let os ← os.wait timeout
    return (-1, [], os)
  match outcome with
  | .timeout =>
    let os ← os.wait timeout
    return (-1, [], os)
  | .failed ec => return (-1, [], { os with errno := ec })
  | .eof => return (0, [], { os with recvLens := len :: os.recvLens })
  | .chunk most =>
    if os.incoming = [] then
      let os ← os.wait timeout
      return (-1, [], os)
    let data := os.incoming.take (min (min len maxTransfer) (most + 1))
    return (toInt32 data.length, data, { os with
      incoming := os.incoming.drop data.length
      recvLens := len :: os.recvLens })

/-- How the loop of `timed_writen` ends. -/
structure WriteEnd where
  /-- Whether it returns -1 instead of a count. -/
  failed : Bool
  /-- The bytes left to send. -/
  left : Int
  /-- The thread's `errno`. -/
  errno : Int
  /-- Outcomes of the sends to come. -/
  sends : List SendOutcome

/-- Loop of `timed_writen`, one outcome a round; an exhausted script accepts what is left. -/
def timedWritenLoop (timeout : Int) : List SendOutcome → Int → Int → Except Abort WriteEnd
  | [], left, errno =>
    return { failed := false, left := min left 0, errno := errno, sends := [] }
  | outcome :: rest, left, errno =>
    if left ≤ 0 then
      return { failed := false, left := left, errno := errno, sends := outcome :: rest }
    else
      match outcome with
      | .sent most =>
        timedWritenLoop timeout rest (left - min (min left.toNat maxTransfer) (most + 1)) errno
      | .zero => return { failed := false, left := left, errno := 0, sends := rest }
      | .timeout =>
        if timeout < 0 then .error .diverges
        else return { failed := false, left := left, errno := etimedout, sends := rest }
      | .pollFailed ec => return { failed := false, left := left, errno := ec, sends := rest }
      | .failed ec =>
        if ec = eintr then timedWritenLoop timeout rest left eintr
        else return { failed := true, left := left, errno := ec, sends := rest }

/-- Bytes accepted by `send` reach the peer, which may answer. -/
def deliver [Peer π] (os : Os π) (bytes : Bytes) : Os π :=
  if bytes = [] then os
  else
    let (answer, peer) := Peer.receive os.peer bytes
    { os with incoming := os.incoming ++ answer, peer := peer }

/-- `timed_writen`: the count it returns. The length is narrowed to an `int` before the loop. -/
def timedWriten [Peer π] (os : Os π) (fd : Int) (bytes : Bytes) (timeout : Int) :
    Except Abort (Int × Os π) := do
  let len := toInt32 bytes.length
  if fd < 0 ∧ 0 < len then
    let os ← os.wait timeout
    return (0, os)
  let ending ← timedWritenLoop timeout os.sends len os.errno
  let os := { os with sends := ending.sends, errno := ending.errno }
  let os := os.deliver (bytes.take (len - ending.left).toNat)
  return (if ending.failed then -1 else len - ending.left, os)

end Os

end LibRedis
