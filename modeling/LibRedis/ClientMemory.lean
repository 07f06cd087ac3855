import LibRedis.BlockingPop
import LibRedis.ReaderMemory

/-!
# What the client owns

`Redis2` owns the command objects of the open transaction. `add_command` makes them, `exec` hands
them to the caller's vector, and `discard`, `on_reset` and the destructor release them. A command that
the server does not queue is lost behind `add_command`, and so are the elements of a reply to EXEC
that are not as many as the commands.
-/

namespace LibRedis

open Decimal (ascii)
open Heaps

namespace Redis2

/-- A command that is answered stays the command. -/
theorem answered_command (c : RedisCommand) (element : RedisOutput) :
    (answered c element).command = c.command := by
  unfold answered
  split
  · split <;> rfl
  · rfl

/-- So do its arguments. -/
theorem answered_args (c : RedisCommand) (element : RedisOutput) :
    (answered c element).args = c.args := by
  unfold answered
  split
  · split <;> rfl
  · rfl

end Redis2

namespace Memory

variable {π : Type}

/-- The members of a `Redis2`. -/
structure ClientFields (π : Type) where
  /-- `proto_`. -/
  proto : RedisProtocol π
  /-- `db_index_`. -/
  dbIndex : Int32
  /-- `db_index_select_failure_`. -/
  dbIndexSelectFailure : Bool
  /-- `transaction_cmds_`. -/
  transactionCmds : List Pointer

/-- A pointer that is followed. -/
def deref : Pointer → Mem Nat
  | none => Prog.dangling
  | some a => pure a

/-- A command object on the stack. -/
def onStack (c : RedisCommand) : CommandFields := ⟨c.command, c.args, ⟨.none, none⟩⟩

/-- The destructor of a command object. -/
def destroy (c : CommandFields) : Mem Unit := do
  let _ ← clear c.out

/-- `delete` of a command object. -/
def deleteCommand : Pointer → Mem Unit
  | none => pure ()
  | some a => do
    destroy (← Prog.read a Cell.asCommand)
    Prog.free a Cell.asCommand

/-- `clear_commands`, with what becomes of the vector. -/
def clearCommands : List Pointer → Mem (List Pointer)
  | [] => pure []
  | command :: rest => do
    deleteCommand command
    clearCommands rest

/-- `is_status_ok`. -/
def isStatusOk (output : OutputFields) : Mem Bool :=
  match output.replyType, output.ptr with
  | .status, some a => do return (← Prog.read a Cell.asString) == ascii "OK"
  | _, _ => return false

/-- `get_smbulks` into an empty vector, which takes the elements. -/
def getSmbulks (output : OutputFields) : Mem (Option (List Pointer)) :=
  match output.replyType, output.ptr with
  | .specialMultiBulk, some a => do
    let smb ← Prog.read a Cell.asSmbulks
    Prog.write a Cell.asSmbulks (.smbulks [])
    return some smb
  | _, _ => return none

/-- `get_mbulks` into an empty vector, which takes the elements. -/
def getMbulks (output : OutputFields) : Mem (Option (List Pointer)) :=
  match output.replyType, output.ptr with
  | .multiBulk, some a => do
    let mb ← Prog.read a Cell.asMbulks
    Prog.write a Cell.asMbulks (.mbulks [])
    return some mb
  | _, _ => return none

/-- `is_nil_mbulks`. -/
def isNilMbulks (output : OutputFields) : Bool :=
  output.replyType == .multiBulk && output.ptr == none

/-- `convertible_2_mbulks`. -/
def convertible2Mbulks : List Pointer → Mem Bool
  | [] => return true
  | output :: rest => do
    let fields ← Prog.read (← deref output) Cell.asOutput
    if fields.replyType ≠ .bulk then return false else convertible2Mbulks rest

/-- Loop of `convert`: the bulks go over. -/
def takeBulks : List Pointer → Mem (List Pointer)
  | [] => return []
  | output :: rest => do
    let a ← deref output
    let fields ← Prog.read a Cell.asOutput
    match fields.ptr with
    | some bulk =>
      Prog.write a Cell.asOutput (.output { fields with ptr := none })
      let others ← takeBulks rest
      return some bulk :: others
    | none =>
      let others ← takeBulks rest
      return none :: others

/-- `convert` of a vector of bulks into an empty vector. -/
def convert (smbulks : Nat) : Mem (List Pointer) := do
  let outputs ← Prog.read smbulks Cell.asSmbulks
  let mbulks ← takeBulks outputs
  let outputs ← clearSmbulks outputs
  Prog.write smbulks Cell.asSmbulks (.smbulks outputs)
  return mbulks

/-- What `exec` makes of the output of a queued command: a vector of bulks is converted. -/
def convertOutput (out : OutputFields) : Mem OutputFields :=
  match out.replyType, out.ptr with
  | .specialMultiBulk, some a => do
    let convertible ← convertible2Mbulks (← Prog.read a Cell.asSmbulks)
    if convertible then
      let mb ← convert a
      setMbulks out mb
    else return out
  | _, _ => return out

/-- Round of the loop of `exec`: the element and the output of the command change places. -/
def answer (element command : Pointer) : Mem Unit := do
  let element ← deref element
  let command ← deref command
  let fields ← Prog.read element Cell.asOutput
  let c ← Prog.read command Cell.asCommand
  Prog.write element Cell.asOutput (.output c.out)
  let out ← convertOutput fields
  Prog.write command Cell.asCommand (.command { c with out := out })

/-- Loop of `exec`. -/
def answerAll : List Pointer → List Pointer → Mem Unit
  | element :: elements, command :: commands => do
    answer element command
    answerAll elements commands
  | _, _ => return ()

/-- `last_error` with an argument. -/
def lastError (r : ClientFields π) (text : Bytes) : ClientFields π :=
  { r with proto := { r.proto with error := text } }

/-- `on_reset`. -/
def onReset (r : ClientFields π) : Mem (ClientFields π) := do
  let cmds ← clearCommands r.transactionCmds
  return { r with
    dbIndexSelectFailure := r.dbIndex != 0 || r.dbIndexSelectFailure
    transactionCmds := cmds }

/-- `on_reply_type_error`. -/
def onReplyTypeError (r : ClientFields π) (c : CommandFields) : ClientFields π :=
  lastError r (ascii "expect " ++ c.command.commandInfo.replyType.toText ++ ascii ", but got " ++
    c.out.replyType.toText)

/-- `check_connect`. -/
def checkConnect (r : ClientFields π) : Bool × ClientFields π :=
  let (ok, proto) := r.proto.checkConnect
  (ok, { r with proto := proto })

section Calls

variable [Peer π]

/-- `proto_->exec_command`. -/
def protoExecCommand (r : ClientFields π) (c : CommandFields) :
    Mem (Bool × CommandFields × ClientFields π) := do
  let (ok, c, proto) ← execCommand r.proto c
  return (ok, c, { r with proto := proto })

/-- `proto_->exec_commandv`. -/
def protoExecCommandv (r : ClientFields π) (c : CommandFields) (buf : Bytes) :
    Mem (Bool × CommandFields × ClientFields π) := do
  let (ok, c, proto) ← execCommandv r.proto c buf
  return (ok, c, { r with proto := proto })

/-- `select` behind `proto_->assure_connect`. -/
def selectConnected (r : ClientFields π) (index : Int32) : Mem (Bool × ClientFields π) := do
  let (ok, c, r) ← protoExecCommand r (onStack (Redis2.selectCommand index))
  if !ok then
    destroy c
    return (false, r)
  else
    let r := { r with dbIndex := index }
    if ← isStatusOk c.out then
      destroy c
      return (true, { r with dbIndexSelectFailure := false })
    else
      let r := onReplyTypeError { r with dbIndexSelectFailure := true } c
      destroy c
      return (false, r)

/-- `select`. -/
def select (r : ClientFields π) (index : Int32) : Mem (Bool × ClientFields π) :=
  let (ok, _, proto) := r.proto.assureConnect
  let r := { r with proto := proto }
  if !ok then return (false, r) else selectConnected r index

/-- End of `assure_connect`: the database is selected if that is due. -/
def assureDatabase (r : ClientFields π) : Mem (Bool × ClientFields π) :=
  if r.dbIndex != 0 && r.dbIndexSelectFailure then select r r.dbIndex else return (true, r)

/-- `assure_connect`. -/
def assureConnect (r : ClientFields π) : Mem (Bool × ClientFields π) :=
  let (ok, status, proto) := r.proto.assureConnect
  let r := { r with proto := proto }
  if !ok then return (false, r)
  else if status = 1 then do assureDatabase (← onReset r)
  else assureDatabase r

/-- `exec_command` of `Redis2`, from how the protocol object executes it. -/
def execBy (execute : ClientFields π → CommandFields → Mem (Bool × CommandFields × ClientFields π))
    (r : ClientFields π) (c : CommandFields) : Mem (Bool × CommandFields × ClientFields π) := do
  let (ok, r) ← assureConnect r
  if !ok then return (false, c, r) else execute r c

/-- One round of either loop of `exec_pipeline`. -/
def pipelineRound
    (operation : RedisProtocol π → CommandFields → Mem (Bool × CommandFields × RedisProtocol π))
    (p : RedisProtocol π) (command : Pointer) : Mem (Bool × RedisProtocol π) := do
  let command ← deref command
  let (ok, c, p) ← operation p (← Prog.read command Cell.asCommand)
  Prog.write command Cell.asCommand (.command c)
  if !ok then return (false, p) else return p.stillOpen

/-- Either loop of `exec_pipeline`: it ends at the first round that fails. -/
def pipelineLoop
    (operation : RedisProtocol π → CommandFields → Mem (Bool × CommandFields × RedisProtocol π)) :
    List Pointer → RedisProtocol π → Mem (Bool × RedisProtocol π)
  | [], p => return (true, p)
  | command :: rest, p => do
    let (ok, p) ← pipelineRound operation p command
    if !ok then return (false, p) else pipelineLoop operation rest p

/-- `exec_pipeline` of the protocol object. -/
def protoExecPipeline (p : RedisProtocol π) (commands : List Pointer) :
    Mem (Bool × RedisProtocol π) := do
  let (ok, p) ← pipelineLoop writeCommand commands p
  if !ok then return (false, p) else pipelineLoop readReply commands p

/-- `exec_pipeline`. -/
def execPipeline (r : ClientFields π) (commands : List Pointer) : Mem (Bool × ClientFields π) := do
  let (ok, r) ← assureConnect r
  if !ok then return (false, r)
  else
    let (ok, proto) ← protoExecPipeline r.proto commands
    return (ok, { r with proto := proto })

/-- A method that checks for the status OK. -/
def statusOkMethod (r : ClientFields π) (c : RedisCommand) : Mem (Bool × ClientFields π) := do
  let (ok, c, r) ← execBy protoExecCommand r (onStack c)
  if !ok then
    destroy c
    return (false, r)
  else if ← isStatusOk c.out then
    destroy c
    return (true, r)
  else
    let r := onReplyTypeError r c
    destroy c
    return (false, r)

/-- A method that returns a vector of bulks: the caller's vector is cleared if the command succeeds.
-/
def mbulksMethod (r : ClientFields π) (c : RedisCommand) (mb : List Pointer) :
    Mem (Bool × List Pointer × ClientFields π) := do
  let (ok, c, r) ← execBy protoExecCommand r (onStack c)
  if !ok then
    destroy c
    return (false, mb, r)
  else
    let mb ← clearMbulks mb
    match ← getMbulks c.out with
    | some elements =>
      destroy c
      return (true, elements, r)
    | none =>
      let r := onReplyTypeError r c
      destroy c
      return (false, mb, r)

/-- `set_blocking_mode`. -/
def setBlockingMode (r : ClientFields π) (blockingMode : Bool) : ClientFields π :=
  { r with proto := { r.proto with blockingMode := blockingMode } }

/-- The call of `bxpop`: no timeout while the reply is awaited. -/
def execBlocking (r : ClientFields π) (c : CommandFields) :
    Mem (Bool × CommandFields × ClientFields π) := do
  let (ok, r) ← assureConnect r
  if !ok then return (false, c, r)
  else
    let (ok, c, r') ← protoExecCommand (setBlockingMode r true) c
    return (ok, c, setBlockingMode r' r.proto.blockingMode)

/-- The elements of a vector of two that are not NULL. -/
def pairOf : List Pointer → Option (Nat × Nat)
  | [some key, some member] => some (key, member)
  | _ => none

/-- The end of `bxpop` where the reply is no pop: it has expired, or is of the wrong type. -/
def expiredOrWrong (r : ClientFields π) (c : CommandFields) :
    Mem (Option (Option (Bytes × Bytes)) × ClientFields π) :=
  if isNilMbulks c.out then do
    destroy c
    return (some none, r)
  else do
    let r := onReplyTypeError r c
    destroy c
    return (none, r)

/-- `bxpop`. -/
def bxpop (r : ClientFields π) (isBlpop : Bool) (keys : List Bytes) (timeout : Int64) :
    Mem (Option (Option (Bytes × Bytes)) × ClientFields π) := do
  let (ok, c, r) ← execBlocking r (onStack (Redis2.bxpopCommand isBlpop keys timeout))
  if !ok then
    destroy c
    return (none, r)
  else
    let mb ← getMbulks c.out
    match mb.bind pairOf with
    | some (key, member) =>
      let keyText ← Prog.read key Cell.asString
      let memberText ← Prog.read member Cell.asString
      let _ ← clearMbulks [some key, some member]
      destroy c
      return (some (some (keyText, memberText)), r)
    | none => expiredOrWrong r c

/-- `add_command`, from how the inner command is executed and what is returned then. The caller's
object changes places with a new one. -/
def addBy (execute : ClientFields π → CommandFields → Mem (Bool × CommandFields × ClientFields π))
    (queued : Bool) (r : ClientFields π) (command : CommandFields) :
    Mem (Bool × CommandFields × ClientFields π) := do
  let (connected, r) := checkConnect r
  if !connected then return (false, command, r)
  else
    let inner ← Prog.alloc (.command (onStack (.new .noop)))
    let fresh ← Prog.read inner Cell.asCommand
    Prog.write inner Cell.asCommand (.command command)
    let (ok, c, r) ← execute r (← Prog.read inner Cell.asCommand)
    Prog.write inner Cell.asCommand (.command c)
    if !ok then return (false, fresh, r)
    else return (queued, fresh, { r with transactionCmds := r.transactionCmds ++ [some inner] })

/-- `exec`, with the caller's vector. -/
def exec (r : ClientFields π) (commands : List Pointer) :
    Mem (Bool × List Pointer × ClientFields π) := do
  let (connected, r) := checkConnect r
  if !connected then return (false, commands, r)
  else
    let (ok, c, r) ← protoExecCommand r (onStack (.new .exec))
    if !ok then
      destroy c
      return (false, commands, r)
    else
      match ← getSmbulks c.out with
      | some smb =>
        if smb.length = r.transactionCmds.length then
          answerAll smb r.transactionCmds
          let _ ← clearSmbulks smb
          -- the vectors have changed places: these are the caller's
          let cmds ← clearCommands commands
          destroy c
          return (true, r.transactionCmds, { r with transactionCmds := cmds })
        else
          let r := onReplyTypeError r c
          destroy c
          return (false, commands, r)
      | none =>
        let r := onReplyTypeError r c
        destroy c
        return (false, commands, r)

/-- `discard`. -/
def discard (r : ClientFields π) : Mem (Bool × ClientFields π) := do
  let (connected, r) := checkConnect r
  if !connected then return (false, r)
  else
    let (ok, c, r) ← protoExecCommand r (onStack (.new .discard))
    if !ok then
      destroy c
      return (false, r)
    else if ← isStatusOk c.out then
      let cmds ← clearCommands r.transactionCmds
      destroy c
      return (true, { r with transactionCmds := cmds })
    else
      let r := onReplyTypeError r c
      destroy c
      return (false, r)

end Calls

/-- The command objects of a vector. -/
inductive CommandsAt : List RedisCommand → List Pointer → Part → Prop
  | nil : CommandsAt [] [] 0
  | cons (a : Nat) {c : RedisCommand} {fields : CommandFields} {own : Part}
      {commands : List RedisCommand} {ptrs : List Pointer} {others : Part}
      (head : CommandAt c fields own) (tail : CommandsAt commands ptrs others) :
      CommandsAt (c :: commands) (some a :: ptrs) ({(a, .command fields)} + own + others)

/-- The members of a client, and the cells that it owns. -/
structure ClientAt (value : Redis2 π) (r : ClientFields π) (part : Part) : Prop where
  /-- The protocol object. -/
  proto : r.proto = value.proto
  /-- The database. -/
  dbIndex : r.dbIndex = value.dbIndex
  /-- The flag. -/
  dbIndexSelectFailure : r.dbIndexSelectFailure = value.dbIndexSelectFailure
  /-- The commands own the cells. -/
  transactionCmds : CommandsAt value.transactionCmds r.transactionCmds part

open Prog

/-- A command object on the stack owns nothing before it is executed. -/
theorem onStack_at {c : RedisCommand} (fresh : c.out = .none) : CommandAt c (onStack c) 0 where
  command := rfl
  args := rfl
  out := by
    rw [fresh]
    exact .none

variable {c : RedisCommand} {fields : CommandFields} {part : Part}

/-- A command object is destroyed. -/
theorem destroy_runs (here : CommandAt c fields part) : Runs (destroy fields) part Gone :=
  (clear_runs here.out).bind fun _ _ cleared => runs_pure cleared.2

/-- A command object is released. -/
theorem deleteCommand_runs (a : Nat) (here : CommandAt c fields part) :
    Runs (deleteCommand (some a)) ({(a, .command fields)} + part) Gone := by
  refine (runs_read Cell.asCommand rfl).andThen ?_
  rintro _ _ ⟨rfl, rfl⟩
  rw [add_comm]
  refine (destroy_runs here).andThen fun _ left gone => ?_
  rw [show left = 0 from gone, zero_add]
  exact runs_free Cell.asCommand rfl

/-- So are the command objects of a vector. -/
theorem clearCommands_runs {commands : List RedisCommand} {ptrs : List Pointer}
    (here : CommandsAt commands ptrs part) :
    Runs (clearCommands ptrs) part fun out left => out = [] ∧ left = 0 := by
  induction here with
  | nil => exact runs_pure ⟨rfl, rfl⟩
  | cons a head tail ih =>
    refine (deleteCommand_runs a head).andThen fun _ left gone => ?_
    exact ih.of_eq (by rw [show left = 0 from gone, zero_add])

variable {value : RedisOutput} {output : OutputFields}

/-- `is_status_ok` looks at the text. -/
theorem isStatusOk_runs (here : OutputAt value output part) :
    Runs (isStatusOk output) part fun ok left => ok = value.isStatusOk ∧ left = part := by
  cases here with
  | status a text =>
    refine (runs_read Cell.asString rfl).bind ?_
    rintro _ _ ⟨rfl, rfl⟩
    exact runs_pure ⟨rfl, rfl⟩
  | _ => exact runs_pure ⟨rfl, rfl⟩

/-- `get_smbulks` takes the elements out of the output. -/
theorem getSmbulks_runs (here : OutputAt value output part) :
    Runs (getSmbulks output) part fun smb left => ∃ rest own, left = rest + own ∧
      (∃ value', OutputAt value' output rest) ∧ IfAny OutputsAt value.getSmbulks smb own := by
  have whole := here
  cases here with
  | @smbulks a elements ptrs own all =>
    refine (runs_read Cell.asSmbulks rfl).andThen ?_
    rintro _ _ ⟨rfl, rfl⟩
    refine (runs_write Cell.asSmbulks rfl _).andThen ?_
    rintro _ _ rfl
    refine runs_pure ⟨{(a, .smbulks [])}, own, rfl, ⟨.smbulks [], ?_⟩, .some all⟩
    rw [← add_zero {(a, Cell.smbulks [])}]
    exact .smbulks a .nil
  | _ => exact runs_pure ⟨_, _, (add_zero _).symm, ⟨_, whole⟩, .none⟩

/-- `get_mbulks` takes the strings out of the output. -/
theorem getMbulks_runs (here : OutputAt value output part) :
    Runs (getMbulks output) part fun mb left => ∃ rest own, left = rest + own ∧
      (∃ value', OutputAt value' output rest) ∧ IfAny StringsAt value.takeMbulks mb own := by
  have whole := here
  cases here with
  | @mbulks a elements ptrs own all =>
    refine (runs_read Cell.asMbulks rfl).andThen ?_
    rintro _ _ ⟨rfl, rfl⟩
    refine (runs_write Cell.asMbulks rfl _).andThen ?_
    rintro _ _ rfl
    refine runs_pure ⟨{(a, .mbulks [])}, own, rfl, ⟨.mbulks [], ?_⟩, .some all⟩
    rw [← add_zero {(a, Cell.mbulks [])}]
    exact .mbulks a .nil
  | _ => exact runs_pure ⟨_, _, (add_zero _).symm, ⟨_, whole⟩, .none⟩

/-- A pointer to something is followed. -/
theorem deref_runs (a : Nat) : Runs (deref (some a)) part fun out left => out = a ∧ left = part :=
  runs_pure ⟨rfl, rfl⟩

/-- The type of an output is that of its members. -/
theorem OutputAt.replyType (here : OutputAt value output part) :
    output.replyType = value.replyType := by
  cases here with
  | _ => rfl

/-- `convertible_2_mbulks` looks at the types. -/
theorem convertible2Mbulks_runs {outputs : List RedisOutput} {ptrs : List Pointer}
    (here : OutputsAt outputs ptrs part) :
    Runs (convertible2Mbulks ptrs) part fun ok left =>
      ok = RedisOutput.convertible2Mbulks outputs ∧ left = part := by
  induction outputs generalizing ptrs part with
  | nil =>
    cases here
    exact runs_pure ⟨rfl, rfl⟩
  | cons output outputs ih =>
    cases here with
    | @cons a _ fields own _ ptrs others head tail =>
      refine (deref_runs a).bind ?_
      rintro a _ ⟨rfl, rfl⟩
      rw [add_assoc]
      refine (runs_read Cell.asOutput rfl).andThen ?_
      rintro fields _ ⟨rfl, rfl⟩
      have type := head.replyType
      rw [RedisOutput.convertible2Mbulks, List.all_cons]
      by_cases bulk : fields.replyType = .bulk
      · rw [if_neg (not_not_intro bulk), ← type, bulk]
        have parts : {(a, Cell.output fields)} + (own + others) =
            others + ({(a, Cell.output fields)} + own) := by abel
        refine (((ih tail).beside _).of_eq parts).imp ?_
        rintro ok _ ⟨_, rfl, rfl, rfl⟩
        exact ⟨rfl, parts.symm⟩
      · rw [if_pos bulk, ← type, beq_eq_false_iff_ne.mpr bulk]
        exact runs_pure ⟨rfl, rfl⟩

/-- NULL owns nothing. -/
theorem StringAt.part_of_null {string : Option Bytes} {own : Part} (here : StringAt string none own) :
    own = 0 := by
  cases here
  rfl

/-- A bulk goes over to another vector, and leaves a nil bulk. -/
theorem bulk_taken {output : RedisOutput} {fields : OutputFields} {own : Part}
    (here : OutputAt output fields own) (bulk : output.replyType = .bulk) :
    StringAt output.toBulk fields.ptr own := by
  cases here with
  | bulk a bytes => exact .string a bytes
  | nilBulk => exact .null
  | _ => cases bulk

/-- The loop of `convert` takes the bulks out of the outputs. -/
theorem takeBulks_runs {outputs : List RedisOutput} {ptrs : List Pointer}
    (here : OutputsAt outputs ptrs part)
    (bulks : RedisOutput.convertible2Mbulks outputs = true) :
    Runs (takeBulks ptrs) part fun mbulks left => ∃ own strings outputs', left = own + strings ∧
      OutputsAt outputs' ptrs own ∧ StringsAt (outputs.map RedisOutput.toBulk) mbulks strings := by
  induction outputs generalizing ptrs part with
  | nil =>
    cases here
    exact runs_pure ⟨0, 0, [], rfl, .nil, .nil⟩
  | cons output outputs ih =>
    cases here with
    | @cons a _ fields own _ ptrs others head tail =>
      rw [RedisOutput.convertible2Mbulks, List.all_cons, Bool.and_eq_true, beq_iff_eq] at bulks
      refine (deref_runs a).bind ?_
      rintro a _ ⟨rfl, rfl⟩
      rw [add_assoc]
      refine (runs_read Cell.asOutput rfl).andThen ?_
      rintro ⟨type, ptr⟩ _ ⟨rfl, rfl⟩
      obtain rfl : type = .bulk := head.replyType.trans bulks.1
      have string := bulk_taken head bulks.1
      cases ptr with
      | none =>
        have nothing := string.part_of_null
        subst nothing
        have parts : {(a, Cell.output ⟨.bulk, none⟩)} + (0 + others) =
            others + {(a, Cell.output ⟨.bulk, none⟩)} := by abel
        refine ((ih tail bulks.2).andThen ?_).of_eq parts
        rintro mbulks _ ⟨rest, strings, outputs', rfl, all, taken⟩
        refine runs_pure ⟨{(a, .output ⟨.bulk, none⟩)} + 0 + rest, 0 + strings, .nilBulk :: outputs',
          by abel, .cons a .nilBulk all, .cons string taken⟩
      | some bulk =>
        refine (runs_write Cell.asOutput rfl _).andThen ?_
        rintro _ _ rfl
        have parts : {(a, Cell.output ⟨.bulk, none⟩)} + (own + others) =
            others + ({(a, Cell.output ⟨.bulk, none⟩)} + own) := by abel
        refine ((ih tail bulks.2).andThen ?_).of_eq parts
        rintro mbulks _ ⟨rest, strings, outputs', rfl, all, taken⟩
        refine runs_pure ⟨{(a, .output ⟨.bulk, none⟩)} + 0 + rest, own + strings,
          .nilBulk :: outputs', by abel, .cons a .nilBulk all, .cons string taken⟩

/-- `convert` moves the bulks to a vector of their own and leaves an empty one. -/
theorem convert_runs (a : Nat) {outputs : List RedisOutput} {ptrs : List Pointer}
    (here : OutputsAt outputs ptrs part) (bulks : RedisOutput.convertible2Mbulks outputs = true) :
    Runs (convert a) ({(a, .smbulks ptrs)} + part) fun mbulks left => ∃ strings,
      left = {(a, .smbulks [])} + strings ∧
        StringsAt (outputs.map RedisOutput.toBulk) mbulks strings := by
  refine (runs_read Cell.asSmbulks rfl).andThen ?_
  rintro _ _ ⟨rfl, rfl⟩
  rw [add_comm]
  refine (takeBulks_runs here bulks).andThen ?_
  rintro mbulks _ ⟨own, strings, outputs', rfl, all, taken⟩
  rw [add_assoc]
  refine (clearSmbulks_runs all).andThen ?_
  rintro _ _ ⟨rfl, rfl⟩
  rw [zero_add, add_comm]
  refine (runs_write Cell.asSmbulks rfl _).andThen ?_
  rintro _ _ rfl
  exact runs_pure ⟨strings, rfl, taken⟩

/-- What `exec` makes of an element. -/
theorem convertOutput_runs (here : OutputAt value output part) (c : RedisCommand) :
    Runs (convertOutput output) part (OutputAt (Redis2.answered c value).out) := by
  cases here with
  | @smbulks a elements ptrs own all =>
    refine (runs_read Cell.asSmbulks rfl).andThen ?_
    rintro _ _ ⟨rfl, rfl⟩
    rw [add_comm]
    refine (convertible2Mbulks_runs all).andThen ?_
    rintro _ _ ⟨rfl, rfl⟩
    rw [add_comm]
    by_cases bulks : RedisOutput.convertible2Mbulks elements = true
    · have converted : (Redis2.answered c (.smbulks elements)).out =
          .mbulks (elements.map RedisOutput.toBulk) := by
        simp only [Redis2.answered, if_pos bulks]
      rw [converted, if_pos bulks]
      refine (convert_runs a all bulks).bind ?_
      rintro mbulks _ ⟨strings, rfl, taken⟩
      have empty : OutputAt (.smbulks []) ⟨.specialMultiBulk, some a⟩ {(a, .smbulks [])} := by
        rw [← add_zero {(a, Cell.smbulks [])}]
        exact .smbulks a .nil
      exact setMbulks_runs empty taken
    · have kept : (Redis2.answered c (.smbulks elements)).out = .smbulks elements := by
        simp only [Redis2.answered, if_neg bulks]
      rw [kept, if_neg bulks]
      exact runs_pure (.smbulks a all)
  | none => exact runs_pure .none
  | status a text => exact runs_pure (.status a text)
  | error a text => exact runs_pure (.error a text)
  | i a value => exact runs_pure (.i a value)
  | bulk a bytes => exact runs_pure (.bulk a bytes)
  | nilBulk => exact runs_pure .nilBulk
  | mbulks a all => exact runs_pure (.mbulks a all)
  | nilMbulks => exact runs_pure .nilMbulks
  | nilSmbulks => exact runs_pure .nilSmbulks

/-- An element and the output of the command that it answers change places. -/
theorem answer_runs (element command : Nat) {own own' : Part} (here : OutputAt value output own)
    (queued : CommandAt c fields own') :
    Runs (answer (some element) (some command))
      ({(element, .output output)} + own + ({(command, .command fields)} + own'))
      fun _ left => ∃ answered part', CommandAt (Redis2.answered c value) answered part' ∧
        left = {(element, .output fields.out)} + own' + ({(command, .command answered)} + part') := by
  refine (deref_runs element).bind ?_
  rintro element _ ⟨rfl, rfl⟩
  refine (deref_runs command).bind ?_
  rintro command _ ⟨rfl, rfl⟩
  have parts : {(element, Cell.output output)} + own + ({(command, Cell.command fields)} + own') =
      {(element, Cell.output output)} + ({(command, Cell.command fields)} + (own + own')) := by abel
  rw [parts]
  refine (runs_read Cell.asOutput rfl).andThen ?_
  rintro output _ ⟨rfl, rfl⟩
  rw [add_left_comm]
  refine (runs_read Cell.asCommand rfl).andThen ?_
  rintro fields _ ⟨rfl, rfl⟩
  rw [add_left_comm]
  refine (runs_write Cell.asOutput rfl _).andThen ?_
  rintro _ _ rfl
  have parts : {(element, Cell.output fields.out)} +
      ({(command, Cell.command fields)} + (own + own')) =
      own + ({(command, Cell.command fields)} + ({(element, Cell.output fields.out)} + own')) := by
    abel
  rw [parts]
  refine (convertOutput_runs here c).andThen fun out left converted => ?_
  rw [add_left_comm]
  refine (runs_write Cell.asCommand rfl _).beside _ |>.imp ?_
  rintro _ _ ⟨_, rfl, rfl⟩
  refine ⟨{ fields with out := out }, left, ⟨?_, ?_, converted⟩, by abel⟩
  · exact queued.command.trans (Redis2.answered_command c value).symm
  · exact queued.args.trans (Redis2.answered_args c value).symm

/-- The loop of `exec` answers the commands in turn, and the elements have their old outputs. -/
theorem answerAll_runs {elements : List RedisOutput} {smb : List Pointer} {own : Part}
    {commands : List RedisCommand} {cmds : List Pointer} {own' : Part}
    (here : OutputsAt elements smb own) (queued : CommandsAt commands cmds own')
    (same : elements.length = commands.length) :
    Runs (answerAll smb cmds) (own + own') fun _ left => ∃ olds old answered,
      left = old + answered ∧ OutputsAt olds smb old ∧
        CommandsAt (List.zipWith Redis2.answered commands elements) cmds answered := by
  induction queued generalizing elements smb own with
  | nil =>
    obtain rfl := List.length_eq_zero_iff.mp same
    cases here
    exact runs_pure ⟨[], 0, 0, rfl, .nil, .nil⟩
  | @cons command c fields own₁ commands cmds others head tail ih =>
    cases here with
    | nil => cases same
    | @cons element output outFields own₂ outputs ptrs others' first rest =>
      have parts : {(element, Cell.output outFields)} + own₂ + others' +
          ({(command, Cell.command fields)} + own₁ + others) =
            {(element, Cell.output outFields)} + own₂ + ({(command, Cell.command fields)} + own₁) +
              (others' + others) := by abel
      rw [parts]
      refine (answer_runs element command first head).andThen ?_
      rintro _ _ ⟨answered, part', done, rfl⟩
      rw [add_comm]
      refine ((ih rest (Nat.succ.inj same)).beside _).imp ?_
      rintro _ _ ⟨_, rfl, olds, old, all, rfl, outputs, commands⟩
      refine ⟨c.out :: olds, {(element, Cell.output fields.out)} + own₁ + old,
        {(command, Cell.command answered)} + part' + all, by abel, .cons element head.out outputs, ?_⟩
      rw [List.zipWith_cons_cons]
      exact .cons command done commands

variable {client : Redis2 π} {r : ClientFields π}

/-- `on_reset` releases the commands. -/
theorem onReset_runs (here : ClientAt client r part) :
    Runs (onReset r) part (ClientAt client.onReset) := by
  refine (clearCommands_runs here.transactionCmds).bind ?_
  rintro _ _ ⟨rfl, rfl⟩
  refine runs_pure ⟨here.proto, here.dbIndex, ?_, .nil⟩
  simp only [here.dbIndex, here.dbIndexSelectFailure]
  rfl

/-- Another protocol object. -/
theorem ClientAt.withProto (here : ClientAt client r part) (proto : RedisProtocol π) :
    ClientAt { client with proto := proto } { r with proto := proto } part :=
  ⟨rfl, here.dbIndex, here.dbIndexSelectFailure, here.transactionCmds⟩

/-- A reply of the wrong type is reported in the same words. -/
theorem onReplyTypeError_at (here : ClientAt client r part) {own : Part}
    (command : CommandAt c fields own) :
    ClientAt (client.onReplyTypeError c) (onReplyTypeError r fields) part where
  proto := by
    unfold onReplyTypeError lastError Redis2.onReplyTypeError Redis2.lastError
    rw [here.proto, command.command, command.out.replyType]
    rfl
  dbIndex := here.dbIndex
  dbIndexSelectFailure := here.dbIndexSelectFailure
  transactionCmds := here.transactionCmds

/-- `check_connect` finds the same. -/
theorem checkConnect_at (here : ClientAt client r part) :
    (checkConnect r).1 = client.checkConnect.1 ∧
      ClientAt client.checkConnect.2 (checkConnect r).2 part := by
  unfold checkConnect Redis2.checkConnect
  rw [here.proto]
  exact ⟨rfl, here.withProto _⟩

/-- The same result, and a client with what it owns. -/
def ClientBy (value : Bool × Redis2 π) (out : Bool × ClientFields π) (left : Part) : Prop :=
  out.1 = value.1 ∧ ClientAt value.2 out.2 left

/-- The same result, and a command object and a client with what they own. -/
def Executes (value : Bool × RedisCommand × Redis2 π) (out : Bool × CommandFields × ClientFields π)
    (left : Part) : Prop :=
  out.1 = value.1 ∧ ∃ own rest, left = own + rest ∧ CommandAt value.2.1 out.2.1 own ∧
    ClientAt value.2.2 out.2.2 rest

/-- At the end of a method its command object is destroyed. -/
theorem destroyed_follows {own : Part} (command : CommandAt c fields own)
    (here : ClientAt client r part) (ok : Bool) :
    Follows (.ok (ok, client)) (destroy fields >>= fun _ => pure (ok, r)) (own + part) ClientBy := by
  refine (destroy_runs command).before fun _ left gone => ?_
  rw [show left = 0 from gone, zero_add]
  exact follows_pure ⟨rfl, here⟩

section Calls

variable [Peer π] {own : Part}

/-- A command is sent. -/
theorem protoExecCommand_follows (here : ClientAt client r part) (command : CommandAt c fields own) :
    Follows (client.protoExecCommand c) (protoExecCommand r fields) (own + part) Executes := by
  unfold Redis2.protoExecCommand protoExecCommand
  rw [here.proto]
  refine (execCommand_follows command client.proto).andThen ?_
  rintro ⟨_, c, _⟩ ⟨ok, fields, proto⟩ left ⟨rfl, rfl, command⟩
  exact follows_pure ⟨rfl, left, part, rfl, command, here.withProto proto⟩

/-- So is a text. -/
theorem protoExecCommandv_follows (here : ClientAt client r part) (command : CommandAt c fields own)
    (buf : Bytes) :
    Follows (client.protoExecCommandv c buf) (protoExecCommandv r fields buf) (own + part)
      Executes := by
  unfold Redis2.protoExecCommandv protoExecCommandv
  rw [here.proto]
  refine (execCommandv_follows command client.proto buf).andThen ?_
  rintro ⟨_, c, _⟩ ⟨ok, fields, proto⟩ left ⟨rfl, rfl, command⟩
  exact follows_pure ⟨rfl, left, part, rfl, command, here.withProto proto⟩

/-- SELECT is sent, and its command object is destroyed on every exit. -/
theorem selectConnected_follows (here : ClientAt client r part) (index : Int32) :
    Follows (client.selectConnected index) (selectConnected r index) part ClientBy := by
  unfold Redis2.selectConnected selectConnected
  refine Follows.of_eq (zero_add part).symm
    ((protoExecCommand_follows here (onStack_at rfl)).bind ?_)
  rintro ⟨_, c, client⟩ ⟨ok, fields, r⟩ _ ⟨rfl, own, rest, rfl, command, here⟩
  cases ok with
  | false => exact destroyed_follows command here false
  | true =>
    have selected (failure : Bool) : ClientAt
        { client with dbIndex := index, dbIndexSelectFailure := failure }
        { r with dbIndex := index, dbIndexSelectFailure := failure } rest :=
      ⟨here.proto, rfl, rfl, here.transactionCmds⟩
    refine (isStatusOk_runs command.out).before ?_
    rintro good _ ⟨rfl, rfl⟩
    cases good : c.out.isStatusOk with
    | true =>
      simp only [good]
      exact destroyed_follows command (selected false) true
    | false =>
      simp only [good]
      exact destroyed_follows command (onReplyTypeError_at (selected true) command) false

/-- `select`. -/
theorem select_follows (here : ClientAt client r part) (index : Int32) :
    Follows (client.select index) (select r index) part ClientBy := by
  unfold Redis2.select select
  rw [here.proto]
  generalize client.proto.assureConnect = result
  obtain ⟨ok, status, proto⟩ := result
  cases ok with
  | false => exact follows_pure ⟨rfl, here.withProto proto⟩
  | true => exact selectConnected_follows (here.withProto proto) index

/-- The database is selected if that is due. -/
theorem assureDatabase_follows (here : ClientAt client r part) :
    Follows client.assureDatabase (assureDatabase r) part ClientBy := by
  unfold Redis2.assureDatabase assureDatabase
  rw [here.dbIndex, here.dbIndexSelectFailure]
  split
  · exact select_follows here _
  · exact follows_pure ⟨rfl, here⟩

/-- `assure_connect`. -/
theorem assureConnect_follows (here : ClientAt client r part) :
    Follows client.assureConnect (assureConnect r) part ClientBy := by
  unfold Redis2.assureConnect assureConnect
  rw [here.proto]
  generalize client.proto.assureConnect = result
  obtain ⟨ok, status, proto⟩ := result
  cases ok with
  | false => exact follows_pure ⟨rfl, here.withProto proto⟩
  | true =>
    by_cases fresh : status = 1
    · simp only [if_pos fresh]
      exact (onReset_runs (here.withProto proto)).follow fun r left reset =>
        assureDatabase_follows reset
    · simp only [if_neg fresh]
      exact assureDatabase_follows (here.withProto proto)

/-- `exec_command`, in either way. -/
theorem execBy_follows
    {execute : Redis2 π → RedisCommand → Except Abort (Bool × RedisCommand × Redis2 π)}
    {execute' : ClientFields π → CommandFields → Mem (Bool × CommandFields × ClientFields π)}
    (executes : ∀ client r part c fields own, ClientAt client r part → CommandAt c fields own →
      Follows (execute client c) (execute' r fields) (own + part) Executes)
    (here : ClientAt client r part) (command : CommandAt c fields own) :
    Follows (client.assureConnect >>= fun (ok, client) =>
        if !ok then pure (false, c, client) else execute client c)
      (execBy execute' r fields) (own + part) Executes := by
  rw [add_comm]
  refine (assureConnect_follows here).andThen ?_
  rintro ⟨_, client⟩ ⟨ok, r⟩ left ⟨rfl, here⟩
  rw [add_comm]
  cases ok with
  | false => exact follows_pure ⟨rfl, own, left, rfl, command, here⟩
  | true => exact executes client r left c fields own here command

/-- A command that blocks is sent, and the mode put back. -/
theorem execBlocking_follows (here : ClientAt client r part) (command : CommandAt c fields own) :
    Follows (client.execBlocking c) (execBlocking r fields) (own + part) Executes := by
  rw [add_comm]
  refine (assureConnect_follows here).andThen ?_
  rintro ⟨_, client⟩ ⟨ok, r⟩ left ⟨rfl, here⟩
  rw [add_comm]
  cases ok with
  | false => exact follows_pure ⟨rfl, own, left, rfl, command, here⟩
  | true =>
    have blocking : ClientAt (client.setBlockingMode true) (setBlockingMode r true) left := by
      unfold setBlockingMode Redis2.setBlockingMode
      rw [here.proto]
      exact here.withProto _
    refine (protoExecCommand_follows blocking command).bind ?_
    rintro ⟨_, c, client'⟩ ⟨ok, fields, r'⟩ _ ⟨rfl, own, rest, rfl, command, here'⟩
    refine follows_pure ⟨rfl, own, rest, rfl, command, ?_⟩
    unfold setBlockingMode Redis2.setBlockingMode
    rw [here.proto, here'.proto]
    exact here'.withProto _

omit [Peer π] in
/-- A round of a loop of `exec_pipeline` leaves the command object with what its output owns. -/
theorem pipelineRound_follows
    {operation : RedisProtocol π → RedisCommand →
      Except Abort (Bool × RedisCommand × RedisProtocol π)}
    {operation' : RedisProtocol π → CommandFields → Mem (Bool × CommandFields × RedisProtocol π)}
    (operates : ∀ p c fields own, CommandAt c fields own →
      Follows (operation p c) (operation' p fields) own Commands)
    (p : RedisProtocol π) (a : Nat) (command : CommandAt c fields own) :
    Follows (RedisProtocol.pipelineRound operation p c) (pipelineRound operation' p (some a))
      ({(a, .command fields)} + own) fun value out left => out = (value.1, value.2.2) ∧
        ∃ fields' own', CommandAt value.2.1 fields' own' ∧ left = {(a, .command fields')} + own' := by
  refine (deref_runs a).follow ?_
  rintro a _ ⟨rfl, rfl⟩
  refine (runs_read Cell.asCommand rfl).before ?_
  rintro fields _ ⟨rfl, rfl⟩
  rw [add_comm]
  refine (operates p c fields own command).andThen ?_
  rintro ⟨_, c, _⟩ ⟨ok, fields', p⟩ left ⟨rfl, rfl, command⟩
  rw [add_comm]
  refine (runs_write Cell.asCommand rfl _).before ?_
  rintro _ _ rfl
  cases ok with
  | false => exact follows_pure ⟨rfl, fields', left, command, rfl⟩
  | true => exact follows_pure ⟨rfl, fields', left, command, rfl⟩

omit [Peer π] in
/-- So does a loop with all of them. -/
theorem pipelineLoop_follows
    {operation : RedisProtocol π → RedisCommand →
      Except Abort (Bool × RedisCommand × RedisProtocol π)}
    {operation' : RedisProtocol π → CommandFields → Mem (Bool × CommandFields × RedisProtocol π)}
    (operates : ∀ p c fields own, CommandAt c fields own →
      Follows (operation p c) (operation' p fields) own Commands)
    {commands : List RedisCommand} {ptrs : List Pointer} (here : CommandsAt commands ptrs own)
    (p : RedisProtocol π) :
    Follows (RedisProtocol.pipelineLoop operation commands p) (pipelineLoop operation' ptrs p) own
      fun value out left => out = (value.1, value.2.2) ∧ CommandsAt value.2.1 ptrs left := by
  induction here generalizing p with
  | nil => exact follows_pure ⟨rfl, .nil⟩
  | @cons a c fields own commands ptrs others head tail ih =>
    refine (pipelineRound_follows operates p a head).andThen ?_
    rintro ⟨ok, c, p⟩ _ _ ⟨rfl, fields', own', head, rfl⟩
    cases ok with
    | false => exact follows_pure ⟨rfl, .cons a head tail⟩
    | true =>
      refine Follows.of_eq (add_comm _ _) (((ih p).beside _).last ?_)
      rintro ⟨ok, rest, p⟩
      refine ⟨_, rfl, ?_⟩
      rintro _ _ ⟨left, rfl, rfl, tail⟩
      refine ⟨rfl, ?_⟩
      rw [add_comm]
      exact .cons a head tail

/-- `exec_pipeline` leaves the command objects with what their outputs own. -/
theorem protoExecPipeline_follows {commands : List RedisCommand} {ptrs : List Pointer}
    (here : CommandsAt commands ptrs own) (p : RedisProtocol π) :
    Follows (p.execPipeline commands) (protoExecPipeline p ptrs) own
      fun value out left => out = (value.1, value.2.2) ∧ CommandsAt value.2.1 ptrs left := by
  refine (pipelineLoop_follows (fun p _ _ _ command => writeCommand_follows command p) here p).bind ?_
  rintro ⟨ok, commands, p⟩ _ left ⟨rfl, here⟩
  cases ok with
  | false => exact follows_pure ⟨rfl, here⟩
  | true => exact pipelineLoop_follows (fun p _ _ _ command => readReply_follows command p) here p

/-- So does that of the client. -/
theorem execPipeline_follows (here : ClientAt client r part) {commands : List RedisCommand}
    {ptrs : List Pointer} (objects : CommandsAt commands ptrs own) :
    Follows (client.execPipeline commands) (execPipeline r ptrs) (part + own)
      fun value out left => out.1 = value.1 ∧ ∃ part' own', left = part' + own' ∧
        ClientAt value.2.2 out.2 part' ∧ CommandsAt value.2.1 ptrs own' := by
  refine (assureConnect_follows here).andThen ?_
  rintro ⟨_, client⟩ ⟨ok, r⟩ left ⟨rfl, here⟩
  cases ok with
  | false => exact follows_pure ⟨rfl, left, own, rfl, here, objects⟩
  | true =>
    have same := here.proto
    simp only at same
    rw [add_comm]
    simp only [Bool.not_true, Bool.false_eq_true, if_false, same]
    refine (protoExecPipeline_follows objects client.proto).andThen ?_
    rintro ⟨ok, commands, proto⟩ _ own' ⟨rfl, objects⟩
    exact follows_pure ⟨rfl, left, own', add_comm _ _, here.withProto proto, objects⟩

/-- A method that checks for the status OK destroys its command object on every exit. -/
theorem statusOkMethod_follows (here : ClientAt client r part) (fresh : c.out = .none) :
    Follows (client.statusOkMethod c) (statusOkMethod r c) part ClientBy := by
  unfold Redis2.statusOkMethod statusOkMethod
  refine Follows.of_eq (zero_add part).symm ((execBy_follows
    (fun _ _ _ _ _ _ here command => protoExecCommand_follows here command) here
    (onStack_at fresh)).bind ?_)
  rintro ⟨_, c, client⟩ ⟨ok, fields, r⟩ _ ⟨rfl, own, rest, rfl, command, here⟩
  cases ok with
  | false => exact destroyed_follows command here false
  | true =>
    refine (isStatusOk_runs command.out).before ?_
    rintro good _ ⟨rfl, rfl⟩
    cases good : c.out.isStatusOk with
    | true =>
      simp only [good, Redis2.checkStatusOk]
      exact destroyed_follows command here true
    | false =>
      simp only [good, Redis2.checkStatusOk]
      exact destroyed_follows command (onReplyTypeError_at here command) false

/-- DISCARD releases the commands, and its own object on every exit. -/
theorem discard_follows (here : ClientAt client r part) :
    Follows client.discard (discard r) part ClientBy := by
  have checked := checkConnect_at here
  unfold Redis2.discard discard
  generalize client.checkConnect = value at checked ⊢
  generalize checkConnect r = state at checked ⊢
  obtain ⟨_, client⟩ := value
  obtain ⟨connected, r⟩ := state
  obtain ⟨rfl, here⟩ := checked
  cases connected with
  | false => exact follows_pure ⟨rfl, here⟩
  | true =>
    refine Follows.of_eq (zero_add part).symm
      ((protoExecCommand_follows here (onStack_at rfl)).bind ?_)
    rintro ⟨_, c, client⟩ ⟨ok, fields, r⟩ _ ⟨rfl, own, rest, rfl, command, here⟩
    cases ok with
    | false => exact destroyed_follows command here false
    | true =>
      refine (isStatusOk_runs command.out).before ?_
      rintro good _ ⟨rfl, rfl⟩
      cases good : c.out.isStatusOk with
      | true =>
        simp only [good]
        rw [add_comm]
        refine (clearCommands_runs here.transactionCmds).before ?_
        rintro _ _ ⟨rfl, rfl⟩
        rw [add_comm]
        refine destroyed_follows command ?_ true
        exact ⟨here.proto, here.dbIndex, here.dbIndexSelectFailure, .nil⟩
      | false =>
        simp only [good]
        exact destroyed_follows command (onReplyTypeError_at here command) false

end Calls

end Memory

end LibRedis
