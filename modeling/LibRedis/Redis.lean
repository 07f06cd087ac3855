import LibRedis.RedisProtocol

/-!
# The client for one server

`Redis2` sends commands over a `RedisProtocol`. It connects when it has to, selects its database
again on a new connection, and remembers the commands of the open transaction.
-/

namespace LibRedis

open Decimal (ascii)

/-- `Redis2`. -/
structure Redis2 (π : Type) where
  /-- `proto_`. -/
  proto : RedisProtocol π
  /-- `db_index_`. -/
  dbIndex : Int32
  /-- `db_index_select_failure_`. -/
  dbIndexSelectFailure : Bool
  /-- `transaction_cmds_`. -/
  transactionCmds : List RedisCommand

namespace Redis2

variable {π : Type}

/-- The constructor. -/
def new (host port : Bytes) (dbIndex : Int32) (timeout : Int) (os : Os π) : Redis2 π where
  proto := .new host port timeout os
  dbIndex := dbIndex
  dbIndexSelectFailure := true
  transactionCmds := []

/-- `last_error` with an argument. -/
def lastError (r : Redis2 π) (text : Bytes) : Redis2 π :=
  { r with proto := { r.proto with error := text } }

/-- `on_reset`. -/
def onReset (r : Redis2 π) : Redis2 π :=
  { r with
    dbIndexSelectFailure := r.dbIndex != 0 || r.dbIndexSelectFailure
    transactionCmds := [] }

/-- `on_reply_type_error`. -/
def onReplyTypeError (r : Redis2 π) (c : RedisCommand) : Redis2 π :=
  r.lastError (ascii "expect " ++ c.commandInfo.replyType.toText ++ ascii ", but got " ++
    c.out.replyType.toText)

/-- `connect`. -/
def connect [Peer π] (r : Redis2 π) : Bool × Redis2 π :=
  let (ok, proto) := r.proto.connect
  (ok, { r with proto := proto })

/-- `close`. -/
def close (r : Redis2 π) : Redis2 π := { r with proto := r.proto.close }

/-- `check_connect`. -/
def checkConnect (r : Redis2 π) : Bool × Redis2 π :=
  let (ok, proto) := r.proto.checkConnect
  (ok, { r with proto := proto })

/-- `proto_->exec_command`. -/
def protoExecCommand [Peer π] (r : Redis2 π) (c : RedisCommand) :
    Except Abort (Bool × RedisCommand × Redis2 π) := do
  let (ok, c, proto) ← r.proto.execCommand c
  return (ok, c, { r with proto := proto })

/-- `proto_->exec_commandv`. -/
def protoExecCommandv [Peer π] (r : Redis2 π) (c : RedisCommand) (buf : Bytes) :
    Except Abort (Bool × RedisCommand × Redis2 π) := do
  let (ok, c, proto) ← r.proto.execCommandv c buf
  return (ok, c, { r with proto := proto })

/-- The command that `select` sends. -/
def selectCommand (index : Int32) : RedisCommand := (RedisCommand.new .select).pushInt index.toInt

/-- `select` behind `proto_->assure_connect`. -/
def selectConnected [Peer π] (r : Redis2 π) (index : Int32) : Except Abort (Bool × Redis2 π) := do
  let (ok, c, r) ← r.protoExecCommand (selectCommand index)
  if !ok then return (false, r)
  else
    let r := { r with dbIndex := index }
    if c.out.isStatusOk then return (true, { r with dbIndexSelectFailure := false })
    else return (false, { r with dbIndexSelectFailure := true }.onReplyTypeError c)

/-- `select`. -/
def select [Peer π] (r : Redis2 π) (index : Int32) : Except Abort (Bool × Redis2 π) :=
  let (ok, _, proto) := r.proto.assureConnect
  let r := { r with proto := proto }
  if !ok then .ok (false, r) else r.selectConnected index

/-- End of `assure_connect`: the database is selected if that is due. -/
def assureDatabase [Peer π] (r : Redis2 π) : Except Abort (Bool × Redis2 π) :=
  if r.dbIndex != 0 && r.dbIndexSelectFailure then r.select r.dbIndex else .ok (true, r)

/-- `assure_connect`. -/
def assureConnect [Peer π] (r : Redis2 π) : Except Abort (Bool × Redis2 π) :=
  let (ok, status, proto) := r.proto.assureConnect
  let r := { r with proto := proto }
  if !ok then .ok (false, r)
  else if status = 1 then r.onReset.assureDatabase
  else r.assureDatabase

/-- `exec_command`. Every method for a command is this call, and then takes the reply apart. -/
def execCommand [Peer π] (r : Redis2 π) (c : RedisCommand) :
    Except Abort (Bool × RedisCommand × Redis2 π) := do
  let (ok, r) ← r.assureConnect
  if !ok then return (false, c, r) else r.protoExecCommand c

/-- `exec_command` with a format, from the text that it has printed. -/
def execCommandv [Peer π] (r : Redis2 π) (c : RedisCommand) (buf : Bytes) :
    Except Abort (Bool × RedisCommand × Redis2 π) := do
  let (ok, r) ← r.assureConnect
  if !ok then return (false, c, r) else r.protoExecCommandv c buf

/-- `exec_pipeline`. -/
def execPipeline [Peer π] (r : Redis2 π) (commands : List RedisCommand) :
    Except Abort (Bool × List RedisCommand × Redis2 π) := do
  let (ok, r) ← r.assureConnect
  if !ok then return (false, commands, r)
  else
    let (ok, commands, proto) ← r.proto.execPipeline commands
    return (ok, commands, { r with proto := proto })

/-- `set_blocking_mode`. -/
def setBlockingMode (r : Redis2 π) (blockingMode : Bool) : Redis2 π :=
  { r with proto := { r.proto with blockingMode := blockingMode } }

/-- The call of `bxpop` and `brpoplpush`: no timeout while the reply is awaited. -/
def execBlocking [Peer π] (r : Redis2 π) (c : RedisCommand) :
    Except Abort (Bool × RedisCommand × Redis2 π) := do
  let (ok, r) ← r.assureConnect
  if !ok then return (false, c, r)
  else
    let (ok, c, r') ← (r.setBlockingMode true).protoExecCommand c
    return (ok, c, r'.setBlockingMode r.proto.blockingMode)

/-- `CHECK_STATUS_OK`. -/
def checkStatusOk (r : Redis2 π) (c : RedisCommand) : Bool × Redis2 π :=
  if c.out.isStatusOk then (true, r) else (false, r.onReplyTypeError c)

/-- A method that checks for the status OK. -/
def statusOkMethod [Peer π] (r : Redis2 π) (c : RedisCommand) : Except Abort (Bool × Redis2 π) := do
  let (ok, c, r) ← r.execCommand c
  if !ok then return (false, r) else return r.checkStatusOk c

/-- `multi`. -/
def multi [Peer π] (r : Redis2 π) : Except Abort (Bool × Redis2 π) :=
  r.statusOkMethod (.new .multi)

/-- `unwatch`. -/
def unwatch [Peer π] (r : Redis2 π) : Except Abort (Bool × Redis2 π) :=
  r.statusOkMethod (.new .unwatch)

/-- `watch`. -/
def watch [Peer π] (r : Redis2 π) (keys : List Bytes) : Except Abort (Bool × Redis2 π) :=
  r.statusOkMethod ((RedisCommand.new .watch).pushArgs keys)

/-- `add_command`. It returns false even when the command is queued. -/
def addCommand [Peer π] (r : Redis2 π) (command : RedisCommand) :
    Except Abort (Bool × Redis2 π) := do
  let (connected, r) := r.checkConnect
  if !connected then return (false, r)
  else
    let (ok, innerCommand, r) ← r.protoExecCommand command
    if !ok then return (false, r)
    else return (false, { r with transactionCmds := r.transactionCmds ++ [innerCommand] })

/-- `add_command` with a format, from the text that it has printed. -/
def addCommandv [Peer π] (r : Redis2 π) (command : RedisCommand) (buf : Bytes) :
    Except Abort (Bool × Redis2 π) := do
  let (connected, r) := r.checkConnect
  if !connected then return (false, r)
  else
    let (ok, innerCommand, r) ← r.protoExecCommandv command buf
    if !ok then return (false, r)
    else return (true, { r with transactionCmds := r.transactionCmds ++ [innerCommand] })

/-- What `exec` makes of the element that answers a queued command. -/
def answered (command : RedisCommand) (element : RedisOutput) : RedisCommand :=
  match element with
  | .smbulks elements =>
    if RedisOutput.convertible2Mbulks elements then
      { command with out := .mbulks (elements.map RedisOutput.toBulk) }
    else { command with out := .smbulks elements }
  | element => { command with out := element }

/-- `exec`: the answered commands, or none if it returns false. -/
def exec [Peer π] (r : Redis2 π) : Except Abort (Option (List RedisCommand) × Redis2 π) := do
  let (connected, r) := r.checkConnect
  if !connected then return (none, r)
  else
    let (ok, c, r) ← r.protoExecCommand (.new .exec)
    if !ok then return (none, r)
    else
      match c.out.getSmbulks with
      | some smb =>
        if smb.length = r.transactionCmds.length then
          return (some (List.zipWith answered r.transactionCmds smb),
            { r with transactionCmds := [] })
        else return (none, r.onReplyTypeError c)
      | none => return (none, r.onReplyTypeError c)

/-- `discard`. -/
def discard [Peer π] (r : Redis2 π) : Except Abort (Bool × Redis2 π) := do
  let (connected, r) := r.checkConnect
  if !connected then return (false, r)
  else
    let (ok, c, r) ← r.protoExecCommand (.new .discard)
    if !ok then return (false, r)
    else if c.out.isStatusOk then return (true, { r with transactionCmds := [] })
    else return (false, r.onReplyTypeError c)

/-- A command that is sent changes the protocol object only. -/
theorem protoExecCommand_returns [Peer π] {r r' : Redis2 π} {c c' : RedisCommand} {ok : Bool}
    (returns : r.protoExecCommand c = .ok (ok, c', r')) :
    ∃ proto, r.proto.execCommand c = .ok (ok, c', proto) ∧ r' = { r with proto := proto } := by
  obtain ⟨⟨ok₁, c₁, proto⟩, sends, same⟩ := bind_returns returns
  cases same
  exact ⟨proto, sends, rfl⟩

/-- So does a text. -/
theorem protoExecCommandv_returns [Peer π] {r r' : Redis2 π} {c c' : RedisCommand} {buf : Bytes}
    {ok : Bool} (returns : r.protoExecCommandv c buf = .ok (ok, c', r')) :
    ∃ proto, r.proto.execCommandv c buf = .ok (ok, c', proto) ∧ r' = { r with proto := proto } := by
  obtain ⟨⟨ok₁, c₁, proto⟩, sends, same⟩ := bind_returns returns
  cases same
  exact ⟨proto, sends, rfl⟩

/-- A command that the protocol object has executed. -/
theorem protoExecCommand_eq [Peer π] {r : Redis2 π} {c c' : RedisCommand} {ok : Bool}
    {p : RedisProtocol π} (executes : r.proto.execCommand c = .ok (ok, c', p)) :
    r.protoExecCommand c = .ok (ok, c', { r with proto := p }) := by
  rw [protoExecCommand, executes]
  rfl

/-- A text that it has. -/
theorem protoExecCommandv_eq [Peer π] {r : Redis2 π} {c c' : RedisCommand} {buf : Bytes}
    {ok : Bool} {p : RedisProtocol π} (executes : r.proto.execCommandv c buf = .ok (ok, c', p)) :
    r.protoExecCommandv c buf = .ok (ok, c', { r with proto := p }) := by
  rw [protoExecCommandv, executes]
  rfl

/-- `add_command` sends its command on a connection, and remembers it if that succeeds. It returns
false. -/
theorem addCommand_returns [Peer π] {r r' : Redis2 π} {c : RedisCommand} {ok : Bool}
    (returns : r.addCommand c = .ok (ok, r')) : ok = false ∧
    (r.checkConnect = (false, r') ∨ ∃ r₁ sent c' p', r.checkConnect = (true, r₁) ∧
      r₁.proto.execCommand c = .ok (sent, c', p') ∧ r' = { r₁ with
        proto := p'
        transactionCmds := if sent then r₁.transactionCmds ++ [c'] else r₁.transactionCmds }) := by
  rcases checks : r.checkConnect with ⟨connected, r₁⟩
  rw [Redis2.addCommand, checks] at returns
  cases connected with
  | false =>
    cases returns
    exact ⟨rfl, Or.inl rfl⟩
  | true =>
    obtain ⟨⟨sent, c', r₂⟩, executes, ends⟩ := bind_returns returns
    obtain ⟨p', answers, rfl⟩ := protoExecCommand_returns executes
    cases sent with
    | false =>
      cases ends
      exact ⟨rfl, Or.inr ⟨r₁, false, c', p', rfl, answers, rfl⟩⟩
    | true =>
      cases ends
      exact ⟨rfl, Or.inr ⟨r₁, true, c', p', rfl, answers, rfl⟩⟩

/-- That with a format returns true if it is remembered. -/
theorem addCommandv_returns [Peer π] {r r' : Redis2 π} {c : RedisCommand} {buf : Bytes} {ok : Bool}
    (returns : r.addCommandv c buf = .ok (ok, r')) :
    (ok = false ∧ r.checkConnect = (false, r')) ∨ ∃ r₁ c' p', r.checkConnect = (true, r₁) ∧
      r₁.proto.execCommandv c buf = .ok (ok, c', p') ∧ r' = { r₁ with
        proto := p'
        transactionCmds := if ok then r₁.transactionCmds ++ [c'] else r₁.transactionCmds } := by
  rcases checks : r.checkConnect with ⟨connected, r₁⟩
  rw [Redis2.addCommandv, checks] at returns
  cases connected with
  | false =>
    cases returns
    exact Or.inl ⟨rfl, rfl⟩
  | true =>
    obtain ⟨⟨sent, c', r₂⟩, executes, ends⟩ := bind_returns returns
    obtain ⟨p', answers, rfl⟩ := protoExecCommandv_returns executes
    cases sent with
    | false =>
      cases ends
      exact Or.inr ⟨r₁, c', p', rfl, answers, rfl⟩
    | true =>
      cases ends
      exact Or.inr ⟨r₁, c', p', rfl, answers, rfl⟩

/-- A reply of the wrong type changes the error text only. -/
theorem onReplyTypeError_eq (r : Redis2 π) (c : RedisCommand) :
    ∃ text, r.onReplyTypeError c = { r with proto := { r.proto with error := text } } :=
  ⟨_, rfl⟩

/-- A method that checks for the status OK ends where `exec_command` does, but for the error text. -/
theorem statusOkMethod_returns [Peer π] {r r' : Redis2 π} {c : RedisCommand} {ok : Bool}
    (returns : r.statusOkMethod c = .ok (ok, r')) :
    ∃ connected r₁, r.assureConnect = .ok (connected, r₁) ∧ ((connected = false ∧ r' = r₁) ∨
      (connected = true ∧ ∃ sent c' r₂ text, r₁.protoExecCommand c = .ok (sent, c', r₂) ∧
        r' = { r₂ with proto := { r₂.proto with error := text } })) := by
  obtain ⟨⟨sent, c', r₂⟩, executes, ends⟩ := bind_returns returns
  obtain ⟨⟨connected, r₁⟩, assures, sends⟩ := bind_returns executes
  refine ⟨connected, r₁, assures, ?_⟩
  cases connected with
  | false =>
    have fails : (.ok (false, c, r₁) : Except Abort _) = .ok (sent, c', r₂) := sends
    cases fails
    cases ends
    exact Or.inl ⟨rfl, rfl⟩
  | true =>
    have last : ∃ text, r' = { r₂ with proto := { r₂.proto with error := text } } := by
      cases sent with
      | false =>
        have fails : (.ok (false, r₂) : Except Abort _) = .ok (ok, r') := ends
        cases fails
        exact ⟨_, rfl⟩
      | true =>
        have checks : (.ok (r₂.checkStatusOk c') : Except Abort _) = .ok (ok, r') := ends
        obtain ⟨text, reports⟩ := onReplyTypeError_eq r₂ c'
        rw [checkStatusOk, reports] at checks
        split at checks
        · cases checks
          exact ⟨_, rfl⟩
        · cases checks
          exact ⟨text, rfl⟩
    obtain ⟨text, last⟩ := last
    exact Or.inr ⟨rfl, sent, c', r₂, text, sends, last⟩

/-- How `select` ends on a connection: the database and the flag change if SELECT is answered, and
the flag tells whether by the status OK. -/
theorem selectConnected_returns [Peer π] {r r' : Redis2 π} {index : Int32} {ok : Bool}
    (returns : r.selectConnected index = .ok (ok, r')) :
    ∃ answered c' proto, r.proto.execCommand (selectCommand index) = .ok (answered, c', proto) ∧
      ((answered = false ∧ ok = false ∧ r' = { r with proto := proto }) ∨
      (answered = true ∧ ok = c'.out.isStatusOk ∧ ∃ text, r' = { r with
        proto := { proto with error := text }, dbIndex := index, dbIndexSelectFailure := !ok })) := by
  obtain ⟨⟨answered, c', r₁⟩, executes, ends⟩ := bind_returns returns
  obtain ⟨proto, sends, rfl⟩ := protoExecCommand_returns executes
  refine ⟨answered, c', proto, sends, ?_⟩
  cases answered with
  | false =>
    have fails : (.ok (false, { r with proto := proto }) : Except Abort _) = .ok (ok, r') := ends
    obtain ⟨rfl, rfl⟩ := Prod.mk.inj (Except.ok.inj fails)
    exact Or.inl ⟨rfl, rfl, rfl⟩
  | true =>
    apply Or.inr
    cases good : c'.out.isStatusOk with
    | true =>
      simp only [good] at ends
      obtain ⟨rfl, rfl⟩ := Prod.mk.inj (Except.ok.inj ends)
      exact ⟨rfl, rfl, proto.error, rfl⟩
    | false =>
      obtain ⟨text, reports⟩ := onReplyTypeError_eq { r with
        proto := proto, dbIndex := index, dbIndexSelectFailure := true } c'
      simp only [good, reports] at ends
      obtain ⟨rfl, rfl⟩ := Prod.mk.inj (Except.ok.inj ends)
      exact ⟨rfl, rfl, text, rfl⟩

/-- The text of an `int` has at most 11 bytes. -/
theorem length_intText_int32 (index : Int32) : (Decimal.intText index.toInt).length ≤ 11 := by
  have low := index.le_toInt
  have high := index.toInt_lt
  have digits := Decimal.length_text_le index.toInt.natAbs 10 (by decide) (by omega)
  unfold Decimal.intText
  split
  · rw [List.length_cons]
    omega
  · omega

/-- SELECT fits into an `int`. -/
theorem selectCommand_small (index : Int32) :
    (RedisProtocol.commandText (selectCommand index)).length < 2 ^ 31 := by
  have value := length_intText_int32 index
  have count := Decimal.length_text_le (Decimal.intText index.toInt).length 2 (by decide) (by omega)
  have head : (ascii "*" ++ Decimal.intText (toInt32 1 + 1) ++ redisLineEnd ++
      RedisProtocol.bulkText (ascii "SELECT")).length = 16 := by decide +kernel
  have shape : RedisProtocol.commandText (selectCommand index) =
      ascii "*" ++ Decimal.intText (toInt32 1 + 1) ++ redisLineEnd ++
        RedisProtocol.bulkText (ascii "SELECT") ++
        (RedisProtocol.bulkText (Decimal.intText index.toInt) ++ []) := rfl
  have marker : (ascii "$").length = 1 := by decide
  have ends : redisLineEnd.length = 2 := rfl
  rw [shape, List.length_append, head]
  simp only [RedisProtocol.bulkText, List.length_append, List.length_nil]
  omega

end Redis2

end LibRedis
