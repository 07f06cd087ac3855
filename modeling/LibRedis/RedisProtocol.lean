import LibRedis.Lib.Resp
import LibRedis.RedisCmd
import LibRedis.TcpClient

/-!
# The redis protocol

`RedisProtocol` writes requests and reads replies over a `TcpClient`. The recursion of
`__read_reply` over nested arrays takes as fuel the number of bytes there are to read and one more,
since every level of nesting reads at least one of them.
-/

namespace LibRedis

open Decimal (ascii isDigit)

/-- `s_redis_line_end`. -/
abbrev redisLineEnd : Bytes := Resp.crlf

/-- `isspace` in the C locale. -/
def isSpace (byte : UInt8) : Bool := byte == 32 || (9 ≤ byte && byte ≤ 13)

/-- The sign that `strtol` skips: whether it is a minus sign, and what follows. -/
def skipSign : Bytes → Bool × Bytes
  | [] => (false, [])
  | byte :: rest =>
    if byte = 45 then (true, rest) else if byte = 43 then (false, rest) else (false, byte :: rest)

/-- `strtol` in base 10 on the C string that the bytes begin with. -/
def Os.strtol {π : Type} (os : Os π) (bytes : Bytes) : Int × Os π :=
  let (negative, text) := skipSign ((bytes.takeWhile (· != 0)).dropWhile isSpace)
  let digits := text.takeWhile isDigit
  if digits = [] then
    (0, if os.platform.noDigitsEinval then { os with errno := einval } else os)
  else
    let magnitude := Decimal.value digits
    if negative then
      if 2 ^ 63 < magnitude then (-2 ^ 63, { os with errno := erange }) else (-magnitude, os)
    else if 2 ^ 63 ≤ magnitude then (2 ^ 63 - 1, { os with errno := erange })
    else (magnitude, os)

/-- `RedisProtocol`. -/
structure RedisProtocol (π : Type) where
  /-- `host_`. -/
  host : Bytes
  /-- `port_`. -/
  port : Bytes
  /-- `error_`. -/
  error : Bytes
  /-- `tcp_client_`. -/
  tcpClient : TcpClient π
  /-- `timeout_`. -/
  timeout : Int
  /-- `blocking_mode_`. -/
  blockingMode : Bool
  /-- `transaction_mode_`. -/
  transactionMode : Bool

namespace RedisProtocol

variable {π : Type}

/-- The constructor. -/
def new (host port : Bytes) (timeout : Int) (os : Os π) : RedisProtocol π where
  host := host
  port := port
  error := []
  tcpClient := .new os
  timeout := timeout
  blockingMode := false
  transactionMode := false

/-- The text of an error: what failed, on which connection, and how. -/
def failedText (p : RedisProtocol π) (action : Bytes) (detail : Bytes) : Bytes :=
  action ++ ascii " " ++ p.host ++ ascii ":" ++ p.port ++ ascii " failed, " ++ detail

/-- `ec_2_string`. -/
def ecToString (p : RedisProtocol π) (ec : Int) : Bytes := p.tcpClient.os.platform.strerror ec

/-- `close`. -/
def close (p : RedisProtocol π) : RedisProtocol π :=
  { p with tcpClient := p.tcpClient.close, blockingMode := false, transactionMode := false }

/-- `close`, then a new text in `error_`. -/
def abandon (p : RedisProtocol π) (action : Bytes) (detail : Bytes) : RedisProtocol π :=
  { p.close with error := p.failedText action detail }

/-- `connect`. -/
def connect [Peer π] (p : RedisProtocol π) : Bool × RedisProtocol π :=
  let (ec, tcpClient) := p.tcpClient.connect
  let p := { p with tcpClient := tcpClient }
  if ec ≠ 0 then (false, p.abandon (ascii "connect") (p.ecToString ec)) else (true, p)

/-- `is_open`. -/
def isOpen (p : RedisProtocol π) : Bool × RedisProtocol π :=
  let (isOpen, tcpClient) := p.tcpClient.isOpen
  (isOpen, { p with tcpClient := tcpClient })

/-- `assure_connect`: the result and the status. -/
def assureConnect [Peer π] (p : RedisProtocol π) : Bool × Int × RedisProtocol π :=
  let (isOpen, p) := p.isOpen
  if isOpen then (true, 0, p)
  else
    let (connected, p) := p.connect
    if connected then (true, 1, p) else (false, -1, p)

/-- `check_connect`. -/
def checkConnect (p : RedisProtocol π) : Bool × RedisProtocol π :=
  let (isOpen, p) := p.isOpen
  if isOpen then (true, p)
  else (false, { p with error := ascii "not connected to " ++ p.host ++ ascii ":" ++ p.port })

/-- `available`. -/
def available (p : RedisProtocol π) : Bool := p.tcpClient.available

/-- The timeout of reading operations. -/
def readTimeout (p : RedisProtocol π) : Int := if p.blockingMode then -1 else p.timeout

/-- How `read_line` and `read` take the result of the client. -/
def received (p : RedisProtocol π) (line : Bytes) (ec : Int) : Bool × Bytes × RedisProtocol π :=
  if ec ≠ 0 then (false, line, p.abandon (ascii "read") (p.ecToString ec))
  else if line = [] then (false, line, p.abandon (ascii "read") (ascii "empty line"))
  else (true, line, p)

/-- `read_line`. -/
def readLine (p : RedisProtocol π) : Except Abort (Bool × Bytes × RedisProtocol π) := do
  let (line, ec, tcpClient) ← p.tcpClient.readLine redisLineEnd p.readTimeout
  return { p with tcpClient := tcpClient }.received line ec

/-- `read`. -/
def read (p : RedisProtocol π) (count : Nat) : Except Abort (Bool × Bytes × RedisProtocol π) := do
  let (line, ec, tcpClient) ← p.tcpClient.read count redisLineEnd p.readTimeout
  return { p with tcpClient := tcpClient }.received line ec

/-- `parse_integer`: the number, or none if it returns false. The protocol object only carries the
thread's `errno`. -/
def parseInteger (p : RedisProtocol π) (line : Bytes) :
    Except Abort (Option Int × RedisProtocol π) :=
  match line with
  | [] => .error .assertion
  | _ :: text =>
    let (i, os) := p.tcpClient.os.strtol text
    let p := { p with tcpClient := { p.tcpClient with os := os } }
    if os.errno = einval ∨ os.errno = erange then .ok (none, p) else .ok (some i, p)

/-- `read_bulk_2`: none if it returns false; none inside for a nil bulk. -/
def readBulk2 (p : RedisProtocol π) (header : Bytes) :
    Except Abort (Option (Option Bytes) × RedisProtocol π) := do
  let (number, p) ← p.parseInteger header
  match number with
  | none => return (none, p.abandon (ascii "read") (ascii "integer error : " ++ header))
  | some i =>
    if i < -1 ∨ i = 0 then
      return (none, p.abandon (ascii "read") (ascii "unexpected integer : " ++ Decimal.intText i))
    else if i = -1 then return (some none, p)
    else
      let (ok, bulk, p) ← p.read i.toNat
      if !ok then return (none, p)
      else if i.toNat ≠ bulk.length then
        return (none, p.abandon (ascii "read") (ascii "unexpected reply " ++ bulk))
      else return (some (some bulk), p)

/-- `read_bulk`. -/
def readBulk (p : RedisProtocol π) : Except Abort (Option (Option Bytes) × RedisProtocol π) := do
  let (ok, header, p) ← p.readLine
  if !ok then return (none, p)
  else if header.head? = some 36 then p.readBulk2 header
  else return (none, p.abandon (ascii "read") (ascii "reply type error $"))

/-- Loop of `read_multi_bulk_2`. -/
def readBulks : Nat → RedisProtocol π → Except Abort (Option (List (Option Bytes)) × RedisProtocol π)
  | 0, p => return (some [], p)
  | count + 1, p => do
    let (bulk, p) ← p.readBulk
    match bulk with
    | none => return (none, p)
    | some bulk =>
      let (bulks, p) ← readBulks count p
      return (bulks.map (bulk :: ·), p)

/-- `read_multi_bulk_2`: none if it returns false; none inside for a nil multi-bulk. -/
def readMultiBulk2 (p : RedisProtocol π) (header : Bytes) :
    Except Abort (Option (Option (List (Option Bytes))) × RedisProtocol π) := do
  let (number, p) ← p.parseInteger header
  match number with
  | none => return (none, p.abandon (ascii "read") (ascii "integer error : " ++ header))
  | some i =>
    if i < -1 then
      return (none, p.abandon (ascii "read") (ascii "unexpected integer : " ++ Decimal.intText i))
    else if i = -1 then return (some none, p)
    -- mbulks->reserve(i), for a vector of pointers
    else if maxSize 8 < i.toNat then .error .lengthError
    else
      let (bulks, p) ← readBulks i.toNat p
      return (bulks.map some, p)

/-- The reply type that `__read_reply` expects when it checks it. -/
def expectedType (transactionMode : Bool) (command : Command) : ReplyType :=
  if transactionMode then
    match command with
    | .multi | .discard | .exec => command.commandInfo.replyType
    | _ => .status
  else command.commandInfo.replyType

/-- A failing exit of `__read_reply` that has left its text in `error_`. -/
def refused (p : RedisProtocol π) : Bool × RedisOutput × RedisProtocol π :=
  (false, .error p.error, p)

/-- The transaction mode after a status reply. -/
def modeAfterStatus (transactionMode : Bool) (command : Command) : Bool :=
  if !transactionMode && command == .multi then true
  else if transactionMode && command == .discard then false
  else transactionMode

/-- `__read_reply` on a line that begins with `:`. -/
def readInteger (p : RedisProtocol π) (buf : Bytes) :
    Except Abort (Bool × RedisOutput × RedisProtocol π) := do
  let (number, p) ← p.parseInteger buf
  match number with
  | some i => return (true, .i i, p)
  | none => return (p.abandon (ascii "read") (ascii "integer error : " ++ buf)).refused

/-- `__read_reply` on a line that begins with `$`. -/
def readBulkReply (p : RedisProtocol π) (buf : Bytes) :
    Except Abort (Bool × RedisOutput × RedisProtocol π) := do
  let (bulk, p) ← p.readBulk2 buf
  match bulk with
  | some (some bulk) => return (true, .bulk bulk, p)
  | some none => return (true, .nilBulk, p)
  | none => return p.refused

/-- `__read_reply` on a line that begins with `*` for a multi-bulk of bulks. -/
def readMultiBulkReply (p : RedisProtocol π) (buf : Bytes) :
    Except Abort (Bool × RedisOutput × RedisProtocol π) := do
  let (bulks, p) ← p.readMultiBulk2 buf
  match bulks with
  | some (some bulks) => return (true, .mbulks bulks, p)
  | some none => return (true, .nilMbulks, p)
  | none => return p.refused

/-- Loop of `__read_reply` over the elements of an array: the elements, or none if a child fails.
The child reads into an output of its own. -/
def readChildren
    (child : RedisOutput → RedisProtocol π → Except Abort (Bool × RedisOutput × RedisProtocol π)) :
    Nat → RedisProtocol π → Except Abort (Option (List RedisOutput) × RedisProtocol π)
  | 0, p => return (some [], p)
  | count + 1, p => do
    let (ok, output, p) ← child .none p
    if !ok then return (none, p)
    else
      let (outputs, p) ← readChildren child count p
      return (outputs.map (output :: ·), p)

/-- `__read_reply` on a line that begins with `*`, treated as a special multi-bulk. A child that
fails leaves the output as it was. -/
def readSpecialMultiBulk
    (child : RedisOutput → RedisProtocol π → Except Abort (Bool × RedisOutput × RedisProtocol π))
    (endsTransaction : Bool) (output : RedisOutput) (p : RedisProtocol π) (buf : Bytes) :
    Except Abort (Bool × RedisOutput × RedisProtocol π) := do
  let (number, p) ← p.parseInteger buf
  match number with
  | none => return (p.abandon (ascii "read") (ascii "integer error : " ++ buf)).refused
  | some bulkSize =>
    if bulkSize = -1 then
      return (true, .nilSmbulks,
        { p with transactionMode := p.transactionMode && !endsTransaction })
    else
      let (smbulks, p) ← readChildren child bulkSize.toNat p
      match smbulks with
      | none => return (false, output, p)
      | some smbulks =>
        return (true, .smbulks smbulks,
          { p with transactionMode := p.transactionMode && !endsTransaction })

/-- The exit of `__read_reply` for a reply of a type that was not expected. -/
def typeError (p : RedisProtocol π) (mark : String) : Bool × RedisOutput × RedisProtocol π :=
  (p.abandon (ascii "read") (ascii "reply type error " ++ ascii mark)).refused

/-- The switch of `__read_reply` over the first byte of the line. -/
def readReplyLine
    (child : RedisOutput → RedisProtocol π → Except Abort (Bool × RedisOutput × RedisProtocol π))
    (command : Command) (isCommandOut checkReplyType : Bool) (expReplyType : ReplyType)
    (output : RedisOutput) (p : RedisProtocol π) (buf : Bytes) :
    Except Abort (Bool × RedisOutput × RedisProtocol π) :=
  match buf with
  | [] => .error .assertion
  | 45 :: text =>
    -- an error reply: no need to disconnect
    .ok { p with error := text }.refused
  | 43 :: text =>
    if checkReplyType && expReplyType != .status then .ok (p.typeError "+")
    else
      .ok (true, .status text,
        { p with transactionMode := modeAfterStatus p.transactionMode command })
  | 58 :: _ =>
    if checkReplyType && expReplyType != .integer then .ok (p.typeError ":")
    else p.readInteger buf
  | 36 :: _ =>
    if checkReplyType && expReplyType != .bulk then .ok (p.typeError "$")
    else p.readBulkReply buf
  | 42 :: _ =>
    if checkReplyType && expReplyType != .multiBulk && expReplyType != .specialMultiBulk then
      .ok (p.typeError "*")
    else if expReplyType = .multiBulk then p.readMultiBulkReply buf
    else readSpecialMultiBulk child (command == .exec && isCommandOut) output p buf
  | _ => .ok (p.abandon (ascii "read") (ascii "unexpected reply " ++ buf)).refused

/-- `__read_reply`. The flag tells whether the output is that of the command itself, which is also
when the reply type is to be checked. -/
def readReplyInner (command : Command) :
    Nat → Bool → RedisOutput → RedisProtocol π → Except Abort (Bool × RedisOutput × RedisProtocol π)
  | 0, _, _, _ => .error .diverges
  | fuel + 1, isCommandOut, output, p => do
    let checkReplyType := isCommandOut && command.commandInfo.replyType != .depends
    let expReplyType :=
      if checkReplyType then expectedType p.transactionMode command
      else command.commandInfo.replyType
    let (received, buf, p) ← p.readLine
    if !received then return p.refused
    else
      readReplyLine (readReplyInner command fuel false) command isCommandOut checkReplyType
        expReplyType output p buf

/-- `read_reply`. -/
def readReply (p : RedisProtocol π) (c : RedisCommand) :
    Except Abort (Bool × RedisCommand × RedisProtocol π) := do
  let fuel := p.tcpClient.buffer.readSize + p.tcpClient.os.incoming.length + 1
  let (ok, out, p) ← readReplyInner c.command fuel true c.out p
  return (ok, { c with out := out }, p)

/-- The test of `check_argc`. -/
def argcMatches (argc givenArgc : Int) : Bool :=
  if argc = argcNoChecking then true
  else if 0 ≤ argc then argc == givenArgc
  else !decide (givenArgc < -argc)

/-- `check_argc`. -/
def checkArgc (p : RedisProtocol π) (c : RedisCommand) (givenArgc : Int) :
    Bool × RedisCommand × RedisProtocol π :=
  if argcMatches c.commandInfo.argc givenArgc then (true, c, p)
  else
    let error := ascii "argc not matched, expect " ++ Decimal.intText c.commandInfo.argc ++
      ascii ", given " ++ Decimal.intText givenArgc
    (false, { c with out := .error error }, { p with error := error })

/-- A bulk string as the write functions print it. -/
def bulkText (arg : Bytes) : Bytes :=
  ascii "$" ++ Decimal.text arg.length ++ redisLineEnd ++ arg ++ redisLineEnd

/-- End of `write_command` and `write_commandv`: the request is sent. -/
def sendRequest [Peer π] (p : RedisProtocol π) (c : RedisCommand) (request : Bytes) :
    Except Abort (Bool × RedisCommand × RedisProtocol π) := do
  let (ec, tcpClient) ← p.tcpClient.write request p.timeout
  let p := { p with tcpClient := tcpClient }
  if ec ≠ 0 then
    let p := p.abandon (ascii "write") (p.ecToString ec)
    return (false, { c with out := .error p.error }, p)
  else return (true, c, p)

/-- The text that `write_command` sends. -/
def commandText (c : RedisCommand) : Bytes :=
  ascii "*" ++ Decimal.intText (toInt32 c.args.length + 1) ++ redisLineEnd ++
    bulkText c.commandInfo.commandStr ++ c.args.flatMap bulkText

/-- `write_command`. -/
def writeCommand [Peer π] (p : RedisProtocol π) (c : RedisCommand) :
    Except Abort (Bool × RedisCommand × RedisProtocol π) := do
  let (ok, c, p) := p.checkArgc c (toInt32 c.args.length)
  if !ok then return (false, c, p) else p.sendRequest c (commandText c)

/-- `exec_command`. -/
def execCommand [Peer π] (p : RedisProtocol π) (c : RedisCommand) :
    Except Abort (Bool × RedisCommand × RedisProtocol π) := do
  let (ok, c, p) ← p.writeCommand c
  if !ok then return (false, c, p) else p.readReply c

/-- `boost::trim` and `boost::split` at spaces, without the empty words. -/
def splitWords (buf : Bytes) : List Bytes :=
  let trimmed := ((buf.dropWhile isSpace).reverse.dropWhile isSpace).reverse
  (trimmed.splitOn 32).filter (· ≠ [])

/-- `write_commandv`, from the text that the format has printed. -/
def writeCommandv [Peer π] (p : RedisProtocol π) (c : RedisCommand) (buf : Bytes) :
    Except Abort (Bool × RedisCommand × RedisProtocol π) := do
  let args := splitWords buf
  let c := { c with args := args }
  let givenArgc := toInt32 args.length
  if givenArgc = 0 then
    let error := ascii "given argc is zero"
    return (false, { c with out := .error error }, { p with error := error })
  else
    let name := args.headD []
    let c := { c with command := Command.ofName name }
    if c.command = .noop then
      let error := ascii "invalid command: " ++ name
      return (false, { c with out := .error error }, { p with error := error })
    else
      let (ok, c, p) := p.checkArgc c (givenArgc - 1)
      if !ok then return (false, c, p)
      else
        p.sendRequest c (ascii "*" ++ Decimal.intText givenArgc ++ redisLineEnd ++
          args.flatMap bulkText)

/-- `exec_commandv`, from the text that the format has printed. -/
def execCommandv [Peer π] (p : RedisProtocol π) (c : RedisCommand) (buf : Bytes) :
    Except Abort (Bool × RedisCommand × RedisProtocol π) := do
  let (ok, c, p) ← p.writeCommandv c buf
  if !ok then return (false, c, p) else p.readReply c

/-- What `exec_pipeline` does after each write and each read: the connection must still be open. -/
def stillOpen (p : RedisProtocol π) : Bool × RedisProtocol π :=
  let (isOpen, p) := p.isOpen
  if isOpen then (true, p)
  else
    (false, { p.close with
      error := ascii "connection has been broken during this pipeline operation" })

/-- One round of either loop of `exec_pipeline`. -/
def pipelineRound
    (operation : RedisProtocol π → RedisCommand →
      Except Abort (Bool × RedisCommand × RedisProtocol π))
    (p : RedisProtocol π) (c : RedisCommand) :
    Except Abort (Bool × RedisCommand × RedisProtocol π) := do
  let (ok, c, p) ← operation p c
  if !ok then return (false, c, p)
  else
    let (ok, p) := p.stillOpen
    return (ok, c, p)

/-- Either loop of `exec_pipeline`: it ends at the first round that fails. -/
def pipelineLoop
    (operation : RedisProtocol π → RedisCommand →
      Except Abort (Bool × RedisCommand × RedisProtocol π)) :
    List RedisCommand → RedisProtocol π →
      Except Abort (Bool × List RedisCommand × RedisProtocol π)
  | [], p => return (true, [], p)
  | c :: rest, p => do
    let (ok, c, p) ← pipelineRound operation p c
    if !ok then return (false, c :: rest, p)
    else
      let (ok, rest, p) ← pipelineLoop operation rest p
      return (ok, c :: rest, p)

/-- `exec_pipeline`: write all, then read all. -/
def execPipeline [Peer π] (p : RedisProtocol π) (commands : List RedisCommand) :
    Except Abort (Bool × List RedisCommand × RedisProtocol π) := do
  let (ok, commands, p) ← pipelineLoop writeCommand commands p
  if !ok then return (false, commands, p) else pipelineLoop readReply commands p

end RedisProtocol

end LibRedis
