import LibRedis.TcpClientBuffer

/-!
# The buffered TCP client

`TcpClient::Impl`: a descriptor, a receive buffer and the time of the last check. `read` and
`readLine` alternate between looking at the buffer and receiving more; the fuel of their loops is
the number of bytes still to arrive and one more round, since every round but the last receives at
least one of them.
-/

namespace LibRedis

/-- `kCheckOpenInterval`, in seconds. -/
def kCheckOpenInterval : Int := 180

/-- `TcpClient::Impl`, with the operating system it runs on. -/
structure TcpClient (π : Type) where
  /-- `fd_`, -1 when there is no connection. -/
  fd : Int
  /-- `buffer_`. -/
  buffer : TcpClientBuffer
  /-- `last_check_open_time_`. -/
  lastCheckOpenTime : Int
  /-- The operating system. -/
  os : Os π

namespace TcpClient

variable {π : Type}

/-- The constructor. -/
def new (os : Os π) : TcpClient π := ⟨-1, .new, 0, os⟩

/-- `close`. -/
def close (c : TcpClient π) : TcpClient π :=
  let c := if c.fd ≠ -1 then { c with fd := -1, os := c.os.safeClose } else c
  { c with buffer := c.buffer.clear }

/-- `connect`: the error code and the client. -/
def connect [Peer π] (c : TcpClient π) : Int × TcpClient π :=
  let c := c.close
  match c.os.connect with
  | (none, os) => (os.errno, { c with os := os })
  | (some fd, os) =>
    let (now, os) := os.time
    (0, { c with fd := fd, lastCheckOpenTime := now, os := os })

/-- `write`: the error code and the client. -/
def write [Peer π] (c : TcpClient π) (line : Bytes) (timeout : Int) :
    Except Abort (Int × TcpClient π) := do
  let (count, os) ← c.os.timedWriten c.fd line timeout
  if count ≠ toInt32 line.length then
    let c := { c with os := os }.close
    return (c.os.errno, c)
  else
    let (now, os) := os.time
    return (0, { c with lastCheckOpenTime := now, os := os })

/-- Loop of `read`. -/
def readLoop (expect delimSize : Nat) (timeout : Int) :
    Nat → Nat → TcpClient π → Except Abort (Bytes × Int × TcpClient π)
  | 0, _, _ => .error .diverges
  | fuel + 1, toRead, c => do
    -- try to consume previous buffer
    if expect ≤ c.buffer.readSize then
      let line := c.buffer.unread.take (expect - delimSize)
      let (_, buffer) ← c.buffer.consume expect
      return (line, 0, { c with buffer := buffer })
    -- try to read
    let buffer ← c.buffer.prepare toRead
    let (count, data, os) ← c.os.timedRead c.fd buffer.freeSize timeout
    let c := { c with buffer := buffer, os := os }
    if count ≤ 0 then
      let c := c.close
      return ([], c.os.errno, c)
    -- push to buffer_
    let buffer ← (buffer.fill data).produce count.toNat
    readLoop expect delimSize timeout fuel ((toRead + 2 ^ 64 - count.toNat) % 2 ^ 64)
      { c with buffer := buffer }

/-- `read`: the bytes, the error code and the client. -/
def read (c : TcpClient π) (size : Nat) (delim : Bytes) (timeout : Int) :
    Except Abort (Bytes × Int × TcpClient π) :=
  let expect := (size + delim.length) % 2 ^ 64
  let toRead := (expect + 2 ^ 64 - c.buffer.readSize) % 2 ^ 64
  readLoop expect delim.length timeout (c.os.incoming.length + 1) toRead c

/-- Inner loop of `readLine`, over the bytes from the search offset on: the offset of the
delimiter if it is found, and the offset the search stops at. -/
def search (delim : Bytes) : Bytes → Nat → Option Nat × Nat
  | [], offset => if delim = [] then (some offset, offset) else (none, offset)
  | byte :: rest, offset =>
    if (byte :: rest).length < delim.length then (none, offset)
    else if delim.isPrefixOf (byte :: rest) then (some offset, offset)
    else search delim rest (offset + 1)

/-- Loop of `readLine`. -/
def readLineLoop (delim : Bytes) (timeout : Int) :
    Nat → Nat → TcpClient π → Except Abort (Bytes × Int × TcpClient π)
  | 0, _, _ => .error .diverges
  | fuel + 1, searchOffset, c => do
    -- try to consume previous buffer
    let (found, searchOffset) := search delim (c.buffer.unread.drop searchOffset) searchOffset
    match found with
    | some position =>
      let toConsume := position + delim.length
      let line := c.buffer.unread.take (toConsume - delim.length)
      let (_, buffer) ← c.buffer.consume toConsume
      return (line, 0, { c with buffer := buffer })
    | none =>
      -- try read
      let buffer ← c.buffer.prepare
      let (count, data, os) ← c.os.timedRead c.fd buffer.freeSize timeout
      let c := { c with buffer := buffer, os := os }
      if count ≤ 0 then
        let c := c.close
        return ([], c.os.errno, c)
      -- push to buffer_
      let buffer ← (buffer.fill data).produce count.toNat
      readLineLoop delim timeout fuel searchOffset { c with buffer := buffer }

/-- `read_line`: the bytes before the delimiter, the error code and the client. -/
def readLine (c : TcpClient π) (delim : Bytes) (timeout : Int) :
    Except Abort (Bytes × Int × TcpClient π) :=
  readLineLoop delim timeout (c.os.incoming.length + 1) 0 c

/-- `is_open`: the slow check is made when the last one is older than the interval. -/
def isOpen (c : TcpClient π) : Bool × TcpClient π :=
  if c.fd = -1 then (false, c)
  else
    let (now, os) := c.os.time
    let c := { c with os := os }
    if now - c.lastCheckOpenTime > kCheckOpenInterval then
      let (found, os) := c.os.isOpenSlow
      (found, { c with lastCheckOpenTime := now, os := os })
    else (true, c)

/-- `available`: unread bytes in the buffer or in the socket. -/
def available (c : TcpClient π) : Bool :=
  if c.buffer.readSize ≠ 0 then true
  else if c.fd = -1 then false
  else !c.os.incoming.isEmpty

/-- A reading call that is known to return these bytes and this code returns them. -/
theorem returned_of {result : Except Abort (Bytes × Int × TcpClient π)} {bytes : Bytes} {ec : Int}
    (shows : result.toOption.map (fun returned => (returned.1, returned.2.1)) = some (bytes, ec)) :
    ∃ c, result = .ok (bytes, ec, c) := by
  obtain ⟨⟨_, _, c⟩, returned, seen⟩ := returned_of_view shows
  obtain ⟨rfl, rfl⟩ := Prod.mk.inj seen
  exact ⟨c, returned⟩

end TcpClient

end LibRedis
