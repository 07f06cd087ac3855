import LibRedis.ClientMemory

/-!
# What runs leave in memory

A program with a client, a command object, a vector of command objects and a vector of bulks, from the
construction of the client to the end of all of them. No run follows a pointer to nothing, uses what
is released or releases it again, and where all calls return, what is left behind its end are the
objects that three exits lose: the inner command of `add_command` when it is not queued on an open
connection, the elements of a reply to EXEC that are not as many as the queued commands, and those of
a reply to BLPOP or BRPOP that are not a key and a member. A call that a `std::length_error` leaves
stops the run there: what it has lost by then is not counted.
-/

namespace LibRedis

open Decimal (ascii)
open Heaps

/-- What no pointer leads to any more. -/
inductive Lost where
  /-- The inner command of `add_command`. -/
  | command (c : RedisCommand)
  /-- The elements that `exec` has taken out of a reply. -/
  | outputs (elements : List RedisOutput)
  /-- The elements that `bxpop` has taken out of a reply. -/
  | strings (elements : List (Option Bytes))

namespace Redis2

variable {π : Type} [Peer π]

/-- `add_command`, from how the inner command is executed and what is returned then, with what is
lost and the caller's object. -/
def addLosing (execute : Redis2 π → RedisCommand → Except Abort (Bool × RedisCommand × Redis2 π))
    (queued : Bool) (r : Redis2 π) (command : RedisCommand) :
    Except Abort (Bool × List Lost × RedisCommand × Redis2 π) := do
  let (connected, r) := r.checkConnect
  if !connected then return (false, [], command, r)
  else
    let (ok, innerCommand, r) ← execute r command
    if !ok then return (false, [.command innerCommand], .new .noop, r)
    else
      return (queued, [], .new .noop,
        { r with transactionCmds := r.transactionCmds ++ [innerCommand] })

/-- `exec`, with what is lost and the caller's vector. -/
def execLosing (r : Redis2 π) (commands : List RedisCommand) :
    Except Abort (Bool × List Lost × List RedisCommand × Redis2 π) := do
  let (connected, r) := r.checkConnect
  if !connected then return (false, [], commands, r)
  else
    let (ok, c, r) ← r.protoExecCommand (.new .exec)
    if !ok then return (false, [], commands, r)
    else
      match c.out.getSmbulks with
      | some smb =>
        if smb.length = r.transactionCmds.length then
          return (true, [], List.zipWith answered r.transactionCmds smb,
            { r with transactionCmds := [] })
        else return (false, [.outputs smb], commands, r.onReplyTypeError c)
      | none => return (false, [], commands, r.onReplyTypeError c)

/-- A method that returns a vector of bulks, with the caller's vector. -/
def mbulksMethod (r : Redis2 π) (c : RedisCommand) (mb : List (Option Bytes)) :
    Except Abort (Bool × List (Option Bytes) × Redis2 π) := do
  let (ok, c, r) ← r.execCommand c
  if !ok then return (false, mb, r)
  else
    match c.out.takeMbulks with
    | some elements => return (true, elements, r)
    | none => return (false, [], r.onReplyTypeError c)

/-- The elements that `bxpop` has taken out of a reply that is no pop. -/
def notPopped : RedisOutput → List Lost
  | .mbulks elements => [.strings elements]
  | _ => []

/-- `bxpop`, with what is lost. -/
def bxpopLosing (r : Redis2 π) (isBlpop : Bool) (keys : List Bytes) (timeout : Int64) :
    Except Abort (Option (Option (Bytes × Bytes)) × List Lost × Redis2 π) := do
  let (ok, c, r) ← r.execBlocking (bxpopCommand isBlpop keys timeout)
  if !ok then return (none, [], r)
  else
    match c.out.takePop with
    | some outputs => return (some outputs, [], r)
    | none => return (none, notPopped c.out, r.onReplyTypeError c)

/-- This is `add_command` with a command object. -/
theorem addLosing_addCommand (r : Redis2 π) (command : RedisCommand) :
    (addLosing protoExecCommand false r command).map (fun (ok, _, _, r) => (ok, r)) =
      r.addCommand command := by
  unfold addLosing addCommand
  generalize r.checkConnect = checked
  obtain ⟨connected, r⟩ := checked
  cases connected with
  | false => rfl
  | true =>
    show Except.map _ (r.protoExecCommand command >>= _) = r.protoExecCommand command >>= _
    cases r.protoExecCommand command with
    | error abort => rfl
    | ok result =>
      obtain ⟨ok, inner, r⟩ := result
      cases ok with
      | false => rfl
      | true => rfl

/-- This is `add_command` with a text. -/
theorem addLosing_addCommandv (r : Redis2 π) (command : RedisCommand) (buf : Bytes) :
    (addLosing (fun r c => r.protoExecCommandv c buf) true r command).map
        (fun (ok, _, _, r) => (ok, r)) = r.addCommandv command buf := by
  unfold addLosing addCommandv
  generalize r.checkConnect = checked
  obtain ⟨connected, r⟩ := checked
  cases connected with
  | false => rfl
  | true =>
    show Except.map _ (r.protoExecCommandv command buf >>= _) = r.protoExecCommandv command buf >>= _
    cases r.protoExecCommandv command buf with
    | error abort => rfl
    | ok result =>
      obtain ⟨ok, inner, r⟩ := result
      cases ok with
      | false => rfl
      | true => rfl

/-- This is `exec`. -/
theorem execLosing_exec (r : Redis2 π) (commands : List RedisCommand) :
    (execLosing r commands).map (fun (ok, _, results, r) => (if ok then some results else none, r)) =
      r.exec := by
  unfold execLosing exec
  generalize r.checkConnect = checked
  obtain ⟨connected, r⟩ := checked
  cases connected with
  | false => rfl
  | true =>
    show Except.map _ (r.protoExecCommand (.new .exec) >>= _) = r.protoExecCommand (.new .exec) >>= _
    cases r.protoExecCommand (.new .exec) with
    | error abort => rfl
    | ok result =>
      obtain ⟨ok, c, r⟩ := result
      cases ok with
      | false => rfl
      | true =>
        cases smbulks : c.out.getSmbulks with
        | none =>
          simp only [bind, Except.bind, smbulks]
          rfl
        | some smb =>
          by_cases same : smb.length = r.transactionCmds.length
          · simp only [bind, Except.bind, smbulks, if_pos same]
            rfl
          · simp only [bind, Except.bind, smbulks, if_neg same]
            rfl

/-- This is the method. -/
theorem mbulksMethod_method (r : Redis2 π) (c : RedisCommand) (mb : List (Option Bytes)) :
    (mbulksMethod r c mb).map (fun (ok, mb, r) => (if ok then some mb else none, r)) =
      r.method c RedisOutput.takeMbulks := by
  unfold mbulksMethod method
  cases r.execCommand c with
  | error abort => rfl
  | ok result =>
    obtain ⟨ok, c, r⟩ := result
    cases ok with
    | false => rfl
    | true =>
      cases taken : c.out.takeMbulks with
      | none =>
        simp only [bind, Except.bind, taken]
        rfl
      | some elements =>
        simp only [bind, Except.bind, taken]
        rfl

/-- This is `bxpop`. -/
theorem bxpopLosing_bxpop (r : Redis2 π) (isBlpop : Bool) (keys : List Bytes) (timeout : Int64) :
    (bxpopLosing r isBlpop keys timeout).map (fun (out, _, r) => (out, r)) =
      r.bxpop isBlpop keys timeout := by
  unfold bxpopLosing bxpop blockingMethod
  cases r.execBlocking (bxpopCommand isBlpop keys timeout) with
  | error abort => rfl
  | ok result =>
    obtain ⟨ok, c, r⟩ := result
    cases ok with
    | false => rfl
    | true =>
      cases taken : c.out.takePop with
      | none =>
        simp only [bind, Except.bind, taken]
        rfl
      | some outputs =>
        simp only [bind, Except.bind, taken]
        rfl

end Redis2

/-- A program that uses a client. -/
structure Session (π : Type) where
  /-- The client. -/
  client : Redis2 π
  /-- A command object. -/
  object : RedisCommand
  /-- A vector of command objects. -/
  commands : List RedisCommand
  /-- A vector of bulks. -/
  mb : List (Option Bytes)

namespace Session

variable {π : Type}

/-- A call of the client, or what the program does with its own objects. -/
inductive Call where
  /-- A new input of the command object. -/
  | fill (command : Command) (args : List Bytes)
  /-- The command object changes places with a new one, which goes into the vector. -/
  | push
  /-- `clear_commands` of the vector. -/
  | clear
  /-- `clear_mbulks` of the vector of bulks. -/
  | clearMbulks
  /-- `connect`. -/
  | connect
  /-- `close`. -/
  | close
  /-- `select`. -/
  | select (index : Int32)
  /-- A method that checks for the status OK, such as `multi` and `watch`. -/
  | statusOk (command : Command) (args : List Bytes)
  /-- A method that returns a vector of bulks, such as `keys`, `mget` and `lrange`. -/
  | mbulks (command : Command) (args : List Bytes)
  /-- `blpop` and `brpop`. -/
  | bxpop (isBlpop : Bool) (keys : List Bytes) (timeout : Int64)
  /-- `exec_command` of the command object. -/
  | execCommand
  /-- `exec_command` with a format, from the text that it has printed. -/
  | execCommandv (buf : Bytes)
  /-- `exec_pipeline` of the vector. -/
  | execPipeline
  /-- `add_command` of the command object. -/
  | addCommand
  /-- `add_command` with a format, from the text that it has printed. -/
  | addCommandv (buf : Bytes)
  /-- `exec` into the vector. -/
  | exec
  /-- `discard`. -/
  | discard

/-- What a call returns. -/
inductive Returned where
  /-- True or false. -/
  | bool (ok : Bool)
  /-- What `bxpop` returns. -/
  | popped (out : Option (Option (Bytes × Bytes)))

/-- The start: nothing is connected, and the objects are new. -/
def new (host port : Bytes) (dbIndex : Int32) (timeout : Int) (os : Os π) : Session π where
  client := .new host port dbIndex timeout os
  object := .new .noop
  commands := []
  mb := []

/-- What a call returns, loses and leaves. -/
def perform [Peer π] (s : Session π) : Call → Except Abort (Returned × List Lost × Session π)
  | .fill command args =>
    return (.bool true, [], { s with object := { s.object with command := command, args := args } })
  | .push =>
    return (.bool true, [], { s with object := .new .noop, commands := s.commands ++ [s.object] })
  | .clear => return (.bool true, [], { s with commands := [] })
  | .clearMbulks => return (.bool true, [], { s with mb := [] })
  | .connect =>
    let (ok, client) := s.client.connect
    return (.bool ok, [], { s with client := client })
  | .close => return (.bool true, [], { s with client := s.client.close })
  | .select index => do
    let (ok, client) ← s.client.select index
    return (.bool ok, [], { s with client := client })
  | .statusOk command args => do
    let (ok, client) ← s.client.statusOkMethod ((RedisCommand.new command).pushArgs args)
    return (.bool ok, [], { s with client := client })
  | .mbulks command args => do
    let (ok, mb, client) ← s.client.mbulksMethod ((RedisCommand.new command).pushArgs args) s.mb
    return (.bool ok, [], { s with client := client, mb := mb })
  | .bxpop isBlpop keys timeout => do
    let (out, lost, client) ← s.client.bxpopLosing isBlpop keys timeout
    return (.popped out, lost, { s with client := client })
  | .execCommand => do
    let (ok, object, client) ← s.client.execCommand s.object
    return (.bool ok, [], { s with client := client, object := object })
  | .execCommandv buf => do
    let (ok, object, client) ← s.client.execCommandv s.object buf
    return (.bool ok, [], { s with client := client, object := object })
  | .execPipeline => do
    let (ok, commands, client) ← s.client.execPipeline s.commands
    return (.bool ok, [], { s with client := client, commands := commands })
  | .addCommand => do
    let (ok, lost, object, client) ← s.client.addLosing Redis2.protoExecCommand false s.object
    return (.bool ok, lost, { s with client := client, object := object })
  | .addCommandv buf => do
    let (ok, lost, object, client) ←
      s.client.addLosing (fun r c => r.protoExecCommandv c buf) true s.object
    return (.bool ok, lost, { s with client := client, object := object })
  | .exec => do
    let (ok, lost, commands, client) ← s.client.execLosing s.commands
    return (.bool ok, lost, { s with client := client, commands := commands })
  | .discard => do
    let (ok, client) ← s.client.discard
    return (.bool ok, [], { s with client := client })

/-- Calls one after the other: what they return, all that they lose, and what they leave. -/
def run [Peer π] (s : Session π) : List Call → Except Abort (List Returned × List Lost × Session π)
  | [] => return ([], [], s)
  | call :: rest => do
    let (out, lost, s) ← s.perform call
    let (outs, losts, s) ← s.run rest
    return (out :: outs, lost ++ losts, s)

end Session

namespace Memory

variable {π : Type}

/-- A program that uses a client, in memory. -/
structure SessionFields (π : Type) where
  /-- The client. -/
  client : ClientFields π
  /-- A command object. -/
  object : CommandFields
  /-- A vector of command objects. -/
  commands : List Pointer
  /-- A vector of bulks. -/
  mb : List Pointer

/-- The start: nothing is connected, and the objects are new. -/
def SessionFields.new (host port : Bytes) (dbIndex : Int32) (timeout : Int) (os : Os π) :
    SessionFields π where
  client := ⟨.new host port timeout os, dbIndex, true, []⟩
  object := onStack (.new .noop)
  commands := []
  mb := []

/-- What a call returns and leaves. -/
def perform [Peer π] (s : SessionFields π) : Session.Call → Mem (Session.Returned × SessionFields π)
  | .fill command args =>
    return (.bool true, { s with object := { s.object with command := command, args := args } })
  | .push => do
    let c ← Prog.alloc (.command (onStack (.new .noop)))
    let fresh ← Prog.read c Cell.asCommand
    Prog.write c Cell.asCommand (.command s.object)
    return (.bool true, { s with object := fresh, commands := s.commands ++ [some c] })
  | .clear => do
    let commands ← clearCommands s.commands
    return (.bool true, { s with commands := commands })
  | .clearMbulks => do
    let mb ← clearMbulks s.mb
    return (.bool true, { s with mb := mb })
  | .connect =>
    let (ok, proto) := s.client.proto.connect
    return (.bool ok, { s with client := { s.client with proto := proto } })
  | .close =>
    return (.bool true, { s with client := { s.client with proto := s.client.proto.close } })
  | .select index => do
    let (ok, client) ← select s.client index
    return (.bool ok, { s with client := client })
  | .statusOk command args => do
    let (ok, client) ← statusOkMethod s.client ((RedisCommand.new command).pushArgs args)
    return (.bool ok, { s with client := client })
  | .mbulks command args => do
    let (ok, mb, client) ← mbulksMethod s.client ((RedisCommand.new command).pushArgs args) s.mb
    return (.bool ok, { s with client := client, mb := mb })
  | .bxpop isBlpop keys timeout => do
    let (out, client) ← bxpop s.client isBlpop keys timeout
    return (.popped out, { s with client := client })
  | .execCommand => do
    let (ok, object, client) ← execBy protoExecCommand s.client s.object
    return (.bool ok, { s with client := client, object := object })
  | .execCommandv buf => do
    let (ok, object, client) ← execBy (fun r c => protoExecCommandv r c buf) s.client s.object
    return (.bool ok, { s with client := client, object := object })
  | .execPipeline => do
    let (ok, client) ← execPipeline s.client s.commands
    return (.bool ok, { s with client := client })
  | .addCommand => do
    let (ok, object, client) ← addBy protoExecCommand false s.client s.object
    return (.bool ok, { s with client := client, object := object })
  | .addCommandv buf => do
    let (ok, object, client) ← addBy (fun r c => protoExecCommandv r c buf) true s.client s.object
    return (.bool ok, { s with client := client, object := object })
  | .exec => do
    let (ok, commands, client) ← exec s.client s.commands
    return (.bool ok, { s with client := client, commands := commands })
  | .discard => do
    let (ok, client) ← discard s.client
    return (.bool ok, { s with client := client })

/-- Calls one after the other. -/
def run [Peer π] : List Session.Call → SessionFields π → Mem (List Session.Returned × SessionFields π)
  | [], s => return ([], s)
  | call :: rest, s => do
    let (out, s) ← perform s call
    let (outs, s) ← run rest s
    return (out :: outs, s)

/-- The end: the program clears its vectors, and the destructors run. -/
def finish (s : SessionFields π) : Mem Unit := do
  let _ ← clearMbulks s.mb
  let _ ← clearCommands s.commands
  destroy s.object
  let _ ← onReset s.client

/-- A run from its start to its end. -/
def lifetime [Peer π] (calls : List Session.Call) (s : SessionFields π) :
    Mem (List Session.Returned) := do
  let (outs, s) ← run calls s
  finish s
  return outs

/-- The cells of what is lost. -/
inductive LostAt : List Lost → Part → Prop
  | nil : LostAt [] 0
  | command (a : Nat) {c : RedisCommand} {fields : CommandFields} {own : Part} {losts : List Lost}
      {others : Part} (head : CommandAt c fields own) (tail : LostAt losts others) :
      LostAt (.command c :: losts) ({(a, .command fields)} + own + others)
  | outputs {elements : List RedisOutput} {ptrs : List Pointer} {own : Part} {losts : List Lost}
      {others : Part} (head : OutputsAt elements ptrs own) (tail : LostAt losts others) :
      LostAt (.outputs elements :: losts) (own + others)
  | strings {elements : List (Option Bytes)} {ptrs : List Pointer} {own : Part} {losts : List Lost}
      {others : Part} (head : StringsAt elements ptrs own) (tail : LostAt losts others) :
      LostAt (.strings elements :: losts) (own + others)

/-- A program in memory, and the cells that it owns. -/
def SessionAt (value : Session π) (s : SessionFields π) (part : Part) : Prop :=
  ∃ own object vector mb, part = own + object + vector + mb ∧ ClientAt value.client s.client own ∧
    CommandAt value.object s.object object ∧ CommandsAt value.commands s.commands vector ∧
      StringsAt value.mb s.mb mb

/-- The same result, a program with what it owns, and what is lost. -/
def Performs (value : Session.Returned × List Lost × Session π)
    (out : Session.Returned × SessionFields π) (left : Part) : Prop :=
  out.1 = value.1 ∧ ∃ own lost, left = own + lost ∧ SessionAt value.2.2 out.2 own ∧
    LostAt value.2.1 lost

open Prog

/-- An output has the members of a nil multi-bulk if it is one. -/
theorem OutputAt.isNilMbulks_iff {value : RedisOutput} {output : OutputFields} {part : Part}
    (here : OutputAt value output part) : isNilMbulks output = true ↔ value = .nilMbulks := by
  cases here with
  | nilMbulks => exact iff_of_true rfl rfl
  | _ => exact iff_of_false Bool.false_ne_true RedisOutput.noConfusion

/-- The pointers of a pop are those of two strings. -/
theorem StringsAt.pop {elements : List (Option Bytes)} {ptrs : List Pointer} {part : Part}
    (here : StringsAt elements ptrs part) :
    (∃ a key b member, elements = [some key, some member] ∧ ptrs = [some a, some b] ∧
      part = {(a, .string key)} + {(b, .string member)}) ∨
    (RedisOutput.takePop (.mbulks elements) = none ∧ pairOf ptrs = none) := by
  cases here with
  | nil => exact Or.inr ⟨rfl, rfl⟩
  | cons first rest =>
    cases rest with
    | nil => cases first <;> exact Or.inr ⟨rfl, rfl⟩
    | cons second rest =>
      cases rest with
      | cons third rest => cases first <;> cases second <;> exact Or.inr ⟨rfl, rfl⟩
      | nil =>
        cases first with
        | null => exact Or.inr ⟨rfl, rfl⟩
        | string a key =>
          cases second with
          | null => exact Or.inr ⟨rfl, rfl⟩
          | string b member => exact Or.inl ⟨a, key, b, member, rfl, rfl, by rw [add_zero]⟩

/-- As many outputs as pointers. -/
theorem OutputsAt.length_eq {outputs : List RedisOutput} {ptrs : List Pointer} {part : Part}
    (here : OutputsAt outputs ptrs part) : outputs.length = ptrs.length := by
  induction outputs generalizing ptrs part with
  | nil =>
    cases here
    rfl
  | cons output outputs ih =>
    cases here with
    | cons a head tail => rw [List.length_cons, List.length_cons, ih tail]

/-- As many command objects as pointers. -/
theorem CommandsAt.length_eq {commands : List RedisCommand} {ptrs : List Pointer} {part : Part}
    (here : CommandsAt commands ptrs part) : commands.length = ptrs.length := by
  induction here with
  | nil => rfl
  | cons a head tail ih => rw [List.length_cons, List.length_cons, ih]

/-- One more command object. -/
theorem CommandsAt.push {commands : List RedisCommand} {ptrs : List Pointer} {part : Part}
    (here : CommandsAt commands ptrs part) (a : Nat) {c : RedisCommand} {fields : CommandFields}
    {own : Part} (last : CommandAt c fields own) :
    CommandsAt (commands ++ [c]) (ptrs ++ [some a]) (part + ({(a, .command fields)} + own)) := by
  induction here with
  | nil =>
    rw [add_comm]
    exact .cons a last .nil
  | cons a head tail ih =>
    rw [add_assoc]
    exact .cons a head ih

/-- No command objects own nothing. -/
theorem CommandsAt.part_of_nil {ptrs : List Pointer} {part : Part} (here : CommandsAt [] ptrs part) :
    part = 0 := by
  cases here
  rfl

/-- What is lost by one call and by others. -/
theorem LostAt.append {losts others : List Lost} {part part' : Part} (first : LostAt losts part)
    (second : LostAt others part') : LostAt (losts ++ others) (part + part') := by
  induction first with
  | nil => rwa [List.nil_append, zero_add]
  | command a head tail ih =>
    rw [add_assoc]
    exact .command a head ih
  | outputs head tail ih =>
    rw [add_assoc]
    exact .outputs head ih
  | strings head tail ih =>
    rw [add_assoc]
    exact .strings head ih

/-- One command object is lost. -/
theorem LostAt.one (a : Nat) {c : RedisCommand} {fields : CommandFields} {own : Part}
    (here : CommandAt c fields own) : LostAt [.command c] ({(a, .command fields)} + own) := by
  rw [← add_zero ({(a, Cell.command fields)} + own)]
  exact .command a here .nil

/-- So are strings. -/
theorem LostAt.bulks {elements : List (Option Bytes)} {ptrs : List Pointer} {own : Part}
    (here : StringsAt elements ptrs own) : LostAt [.strings elements] own := by
  rw [← add_zero own]
  exact .strings here .nil

/-- The elements of one reply are lost. -/
theorem LostAt.elements {outputs : List RedisOutput} {ptrs : List Pointer} {own : Part}
    (here : OutputsAt outputs ptrs own) : LostAt [.outputs outputs] own := by
  rw [← add_zero own]
  exact .outputs here .nil

variable [Peer π] {client : Redis2 π} {r : ClientFields π} {c : RedisCommand}
  {fields : CommandFields} {part own : Part}

omit [Peer π] in
/-- `add_command` leaves the inner command to the client, or loses it. -/
theorem addBy_follows
    {execute : Redis2 π → RedisCommand → Except Abort (Bool × RedisCommand × Redis2 π)}
    {execute' : ClientFields π → CommandFields → Mem (Bool × CommandFields × ClientFields π)}
    (executes : ∀ client r part c fields own, ClientAt client r part → CommandAt c fields own →
      Follows (execute client c) (execute' r fields) (own + part) Executes)
    (queued : Bool) (here : ClientAt client r part) (command : CommandAt c fields own) :
    Follows (client.addLosing execute queued c) (addBy execute' queued r fields) (own + part)
      fun value out left => out.1 = value.1 ∧ ∃ own object lost, left = own + object + lost ∧
        ClientAt value.2.2.2 out.2.2 own ∧ CommandAt value.2.2.1 out.2.1 object ∧
          LostAt value.2.1 lost := by
  have checked := checkConnect_at here
  unfold Redis2.addLosing addBy
  generalize client.checkConnect = value at checked ⊢
  generalize checkConnect r = state at checked ⊢
  obtain ⟨_, client⟩ := value
  obtain ⟨connected, r⟩ := state
  obtain ⟨rfl, here⟩ := checked
  cases connected with
  | false => exact follows_pure ⟨rfl, part, own, 0, by abel, here, command, .nil⟩
  | true =>
    refine Follows.of_eq (zero_add _).symm ((runs_alloc _).before ?_)
    rintro inner _ rfl
    refine (runs_read Cell.asCommand rfl).before ?_
    rintro fresh _ ⟨freshly, rfl⟩
    refine (runs_write Cell.asCommand rfl _).before ?_
    rintro _ _ rfl
    refine (runs_read Cell.asCommand rfl).before ?_
    rintro fields _ ⟨rfl, rfl⟩
    rw [add_comm]
    refine (executes client r part c fields own here command).andThen ?_
    rintro ⟨_, c, client⟩ ⟨ok, fields', r⟩ _ ⟨rfl, own, rest, rfl, command, here⟩
    rw [add_comm]
    refine (runs_write Cell.asCommand rfl _).before ?_
    rintro _ _ rfl
    have object : CommandAt (.new .noop) fresh 0 := by
      rw [freshly]
      exact onStack_at rfl
    cases ok with
    | false =>
      exact follows_pure ⟨rfl, rest, 0, {(inner, Cell.command fields')} + own, by abel, here, object,
        .one inner command⟩
    | true =>
      exact follows_pure ⟨rfl, rest + ({(inner, Cell.command fields')} + own), 0, 0, by abel,
        ⟨here.proto, here.dbIndex, here.dbIndexSelectFailure,
          here.transactionCmds.push inner command⟩, object, .nil⟩

/-- `exec` hands the commands to the caller's vector and releases what was there, or leaves both and
may lose the elements of the reply. -/
theorem exec_follows (here : ClientAt client r part) {commands : List RedisCommand}
    {ptrs : List Pointer} {vector : Part} (objects : CommandsAt commands ptrs vector) :
    Follows (client.execLosing commands) (exec r ptrs) (part + vector)
      fun value out left => out.1 = value.1 ∧ ∃ own vector lost, left = own + vector + lost ∧
        ClientAt value.2.2.2 out.2.2 own ∧ CommandsAt value.2.2.1 out.2.1 vector ∧
          LostAt value.2.1 lost := by
  have checked := checkConnect_at here
  unfold Redis2.execLosing exec
  generalize client.checkConnect = value at checked ⊢
  generalize checkConnect r = state at checked ⊢
  obtain ⟨_, client⟩ := value
  obtain ⟨connected, r⟩ := state
  obtain ⟨rfl, here⟩ := checked
  cases connected with
  | false => exact follows_pure ⟨rfl, part, vector, 0, by abel, here, objects, .nil⟩
  | true =>
    refine Follows.of_eq (by rw [zero_add])
      ((protoExecCommand_follows here (onStack_at rfl)).andThen ?_)
    rintro ⟨_, c, client⟩ ⟨ok, fields, r⟩ _ ⟨rfl, own, rest, rfl, command, here⟩
    rw [add_assoc]
    cases ok with
    | false =>
      refine (destroy_runs command).before fun _ left gone => ?_
      rw [show left = 0 from gone, zero_add]
      exact follows_pure ⟨rfl, rest, vector, 0, by abel, here, objects, .nil⟩
    | true =>
      refine (getSmbulks_runs command.out).before ?_
      rintro smb _ ⟨emptied, taken, rfl, ⟨value', out⟩, found⟩
      have object : CommandAt { c with out := value' } fields emptied :=
        ⟨command.command, command.args, out⟩
      have report : ClientAt (client.onReplyTypeError c) (onReplyTypeError r fields) rest :=
        onReplyTypeError_at here command
      have queued : client.transactionCmds.length = r.transactionCmds.length :=
        here.transactionCmds.length_eq
      simp only at found
      simp only [Bool.not_true, Bool.false_eq_true, if_false]
      generalize c.out.getSmbulks = smbulks at found ⊢
      cases found with
      | none =>
        rw [add_zero]
        refine (destroy_runs object).before fun _ left gone => ?_
        rw [show left = 0 from gone, zero_add]
        exact follows_pure ⟨rfl, rest, vector, 0, by abel, report, objects, .nil⟩
      | @some elements smb _ all =>
        have counts := all.length_eq
        by_cases same : elements.length = client.transactionCmds.length
        · have same' : smb.length = r.transactionCmds.length := by omega
          simp only [if_pos same, if_pos same']
          have parts : emptied + taken + (rest + vector) = taken + rest + (emptied + vector) := by
            abel
          rw [parts]
          refine (answerAll_runs all here.transactionCmds same).before ?_
          rintro _ _ ⟨olds, old, answered, rfl, outputs, results⟩
          rw [add_assoc]
          refine (clearSmbulks_runs outputs).before ?_
          rintro _ _ ⟨-, rfl⟩
          have parts : 0 + (answered + (emptied + vector)) = vector + (emptied + answered) := by abel
          rw [parts]
          refine (clearCommands_runs objects).before ?_
          rintro _ _ ⟨rfl, rfl⟩
          rw [zero_add]
          refine (destroy_runs object).before fun _ left gone => ?_
          rw [show left = 0 from gone, zero_add]
          exact follows_pure ⟨rfl, 0, answered, 0, by abel,
            ⟨here.proto, here.dbIndex, here.dbIndexSelectFailure, .nil⟩, results, .nil⟩
        · have other : smb.length ≠ r.transactionCmds.length := by omega
          simp only [if_neg same, if_neg other]
          rw [add_assoc]
          refine (destroy_runs object).before fun _ left gone => ?_
          rw [show left = 0 from gone, zero_add]
          exact follows_pure ⟨rfl, rest, vector, taken, by abel, report, objects, .elements all⟩

/-- A method that returns a vector of bulks clears the caller's before it fills it. -/
theorem mbulksMethod_follows (here : ClientAt client r part) (fresh : c.out = .none)
    {strings : List (Option Bytes)} {ptrs : List Pointer} {mb : Part}
    (caller : StringsAt strings ptrs mb) :
    Follows (client.mbulksMethod c strings) (mbulksMethod r c ptrs) (part + mb)
      fun value out left => out.1 = value.1 ∧ ∃ own mb, left = own + mb ∧
        ClientAt value.2.2 out.2.2 own ∧ StringsAt value.2.1 out.2.1 mb := by
  unfold Redis2.mbulksMethod mbulksMethod
  refine Follows.of_eq (by rw [zero_add]) ((execBy_follows
    (fun _ _ _ _ _ _ here command => protoExecCommand_follows here command) here
    (onStack_at fresh)).andThen ?_)
  rintro ⟨_, c, client⟩ ⟨ok, fields, r⟩ _ ⟨rfl, own, rest, rfl, command, here⟩
  cases ok with
  | false =>
    rw [add_assoc]
    refine (destroy_runs command).before fun _ left gone => ?_
    rw [show left = 0 from gone, zero_add]
    exact follows_pure ⟨rfl, rest, mb, rfl, here, caller⟩
  | true =>
    rw [add_comm]
    refine (clearMbulks_runs caller).before ?_
    rintro _ _ ⟨rfl, rfl⟩
    rw [zero_add]
    refine (getMbulks_runs command.out).before ?_
    rintro taken _ ⟨emptied, strings, rfl, ⟨value', out⟩, found⟩
    have object : CommandAt { c with out := value' } fields emptied :=
      ⟨command.command, command.args, out⟩
    have report : ClientAt (client.onReplyTypeError c) (onReplyTypeError r fields) rest :=
      onReplyTypeError_at here command
    simp only at found
    simp only [Bool.not_true, Bool.false_eq_true, if_false]
    generalize c.out.takeMbulks = elements at found ⊢
    rw [add_assoc]
    cases found with
    | none =>
      refine (destroy_runs object).before fun _ left gone => ?_
      exact follows_pure ⟨rfl, rest, 0, by rw [show left = 0 from gone]; abel, report, .nil⟩
    | some all =>
      refine (destroy_runs object).before fun _ left gone => ?_
      exact follows_pure ⟨rfl, rest, strings, by rw [show left = 0 from gone]; abel, here, all⟩

/-- `bxpop` hands over the texts of a pop and releases the strings, or may lose them. -/
theorem bxpop_follows (here : ClientAt client r part) (isBlpop : Bool) (keys : List Bytes)
    (timeout : Int64) :
    Follows (client.bxpopLosing isBlpop keys timeout) (bxpop r isBlpop keys timeout) part
      fun value out left => out.1 = value.1 ∧ ∃ own lost, left = own + lost ∧
        ClientAt value.2.2 out.2 own ∧ LostAt value.2.1 lost := by
  refine Follows.of_eq (zero_add part).symm
    ((execBlocking_follows here (onStack_at rfl)).bind ?_)
  rintro ⟨_, c, client⟩ ⟨ok, fields, r⟩ _ ⟨rfl, own, rest, rfl, command, here⟩
  cases ok with
  | false =>
    refine (destroy_runs command).before fun _ left gone => ?_
    rw [show left = 0 from gone, zero_add]
    exact follows_pure ⟨rfl, rest, 0, by abel, here, .nil⟩
  | true =>
    refine (getMbulks_runs command.out).before ?_
    rintro taken _ ⟨emptied, strings, rfl, ⟨value', out⟩, found⟩
    have object : CommandAt { c with out := value' } fields emptied :=
      ⟨command.command, command.args, out⟩
    have wrong := command.out.isNilMbulks_iff
    simp only at found
    simp only [Bool.not_true, Bool.false_eq_true, if_false]
    have others (popped : c.out.takePop = if isNilMbulks fields.out then some none else none)
        {lost : Part} (losing : LostAt (Redis2.notPopped c.out) lost)
        (nothing : isNilMbulks fields.out = true → lost = 0) :
        Follows
          (match c.out.takePop with
            | some outputs => .ok (some outputs, [], client)
            | none => .ok (none, Redis2.notPopped c.out, client.onReplyTypeError c))
          (expiredOrWrong r fields) (emptied + lost + rest) fun value out left =>
            out.1 = value.1 ∧ ∃ own lost, left = own + lost ∧ ClientAt value.2.2 out.2 own ∧
              LostAt value.2.1 lost := by
      rw [popped, add_assoc]
      unfold expiredOrWrong
      by_cases expired : isNilMbulks fields.out = true
      · simp only [if_pos expired]
        rw [nothing expired]
        refine (destroy_runs object).before fun _ left gone => ?_
        rw [show left = 0 from gone, zero_add]
        exact follows_pure ⟨rfl, rest, 0, by abel, here, .nil⟩
      · simp only [if_neg expired]
        refine (destroy_runs object).before fun _ left gone => ?_
        rw [show left = 0 from gone, zero_add]
        exact follows_pure ⟨rfl, rest, lost, by abel, onReplyTypeError_at here command, losing⟩
    cases reply : c.out with
    | mbulks elements =>
      rw [reply] at found wrong others
      have isNot : isNilMbulks fields.out = false := by
        rw [Bool.eq_false_iff, Ne, wrong]
        exact RedisOutput.noConfusion
      cases found with
      | @some _ ptrs _ all =>
        rcases all.pop with ⟨a, key, b, member, rfl, rfl, rfl⟩ | ⟨noPop, noPair⟩
        · have parts : emptied + ({(a, Cell.string key)} + {(b, Cell.string member)}) + rest =
              {(a, Cell.string key)} + ({(b, Cell.string member)} + (emptied + rest)) := by abel
          rw [parts]
          refine (runs_read Cell.asString rfl).before ?_
          rintro key _ ⟨rfl, rfl⟩
          rw [add_left_comm]
          refine (runs_read Cell.asString rfl).before ?_
          rintro member _ ⟨rfl, rfl⟩
          rw [add_left_comm, ← add_assoc, ← add_zero {(b, Cell.string member)}]
          refine (clearMbulks_runs (.cons (.string a key) (.cons (.string b member) .nil))).before ?_
          rintro _ _ ⟨-, rfl⟩
          rw [zero_add]
          refine (destroy_runs object).before fun _ left gone => ?_
          rw [show left = 0 from gone, zero_add]
          exact follows_pure ⟨rfl, rest, 0, by abel, here, .nil⟩
        · rw [isNot] at others
          simp only [Option.bind_some, noPair]
          exact others noPop (.bulks all) (fun yes => Bool.noConfusion yes)
    | nilMbulks =>
      rw [reply] at found wrong others
      cases found
      exact others (by rw [if_pos (wrong.mpr rfl)]; rfl) .nil fun _ => rfl
    | _ =>
      rw [reply] at found wrong others
      have isNot : isNilMbulks fields.out ≠ true := fun yes => RedisOutput.noConfusion (wrong.mp yes)
      cases found
      exact others (by rw [if_neg isNot]; rfl) .nil fun _ => rfl

variable {value : Session π} {s : SessionFields π}

/-- Every call leaves the cells that the program owns and those that it loses, and no others. -/
theorem perform_follows (here : SessionAt value s part) (call : Session.Call) :
    Follows (value.perform call) (perform s call) part Performs := by
  obtain ⟨own, object, vector, mb, rfl, client, command, objects, strings⟩ := here
  have clientOnly {act : Except Abort (Bool × Redis2 π)} {act' : Mem (Bool × ClientFields π)}
      (follows : Follows act act' own ClientBy) :
      Follows (act >>= fun (ok, client) => pure (.bool ok, [], { value with client := client }))
        (act' >>= fun (ok, client) => pure (.bool ok, { s with client := client }))
        (own + object + vector + mb) Performs := by
    have parts : own + object + vector + mb = own + (object + vector + mb) := by abel
    refine Follows.of_eq parts (follows.andThen ?_)
    rintro ⟨_, client⟩ ⟨ok, r⟩ left ⟨rfl, client'⟩
    exact follows_pure ⟨rfl, _, 0, by abel,
      ⟨left, object, vector, mb, rfl, client', command, objects, strings⟩, .nil⟩
  have withObject {act : Except Abort (Bool × RedisCommand × Redis2 π)}
      {act' : Mem (Bool × CommandFields × ClientFields π)}
      (follows : Follows act act' (object + own) Executes) :
      Follows
        (act >>= fun (ok, c, client) =>
          pure (.bool ok, [], { value with client := client, object := c }))
        (act' >>= fun (ok, c, client) => pure (.bool ok, { s with client := client, object := c }))
        (own + object + vector + mb) Performs := by
    have parts : own + object + vector + mb = object + own + (vector + mb) := by abel
    refine Follows.of_eq parts (follows.andThen ?_)
    rintro ⟨_, c, client⟩ ⟨ok, fields, r⟩ _ ⟨rfl, object, own, rfl, command, client'⟩
    exact follows_pure ⟨rfl, own + object + vector + mb, 0, by abel,
      ⟨own, object, vector, mb, rfl, client', command, objects, strings⟩, .nil⟩
  have withLost {act : Except Abort (Bool × List Lost × RedisCommand × Redis2 π)}
      {act' : Mem (Bool × CommandFields × ClientFields π)}
      (follows : Follows act act' (object + own) fun value out left => out.1 = value.1 ∧
        ∃ own object lost, left = own + object + lost ∧ ClientAt value.2.2.2 out.2.2 own ∧
          CommandAt value.2.2.1 out.2.1 object ∧ LostAt value.2.1 lost) :
      Follows
        (act >>= fun (ok, lost, c, client) =>
          pure (.bool ok, lost, { value with client := client, object := c }))
        (act' >>= fun (ok, c, client) => pure (.bool ok, { s with client := client, object := c }))
        (own + object + vector + mb) Performs := by
    have parts : own + object + vector + mb = object + own + (vector + mb) := by abel
    refine Follows.of_eq parts (follows.andThen ?_)
    rintro ⟨_, losts, c, client⟩ ⟨ok, fields, r⟩ _
      ⟨rfl, own, object, lost, rfl, client', command, losing⟩
    exact follows_pure ⟨rfl, own + object + vector + mb, lost, by abel,
      ⟨own, object, vector, mb, rfl, client', command, objects, strings⟩, losing⟩
  cases call with
  | fill name args =>
    exact follows_pure ⟨rfl, _, 0, by abel,
      ⟨own, object, vector, mb, rfl, client, ⟨rfl, rfl, command.out⟩, objects, strings⟩, .nil⟩
  | push =>
    refine Follows.of_eq (zero_add _).symm ((runs_alloc _).before ?_)
    rintro a _ rfl
    refine (runs_read Cell.asCommand rfl).before ?_
    rintro fresh _ ⟨freshly, rfl⟩
    refine (runs_write Cell.asCommand rfl _).before ?_
    rintro _ _ rfl
    have object' : CommandAt (.new .noop) fresh 0 := by
      rw [freshly]
      exact onStack_at rfl
    exact follows_pure ⟨rfl, own + 0 + (vector + ({(a, Cell.command s.object)} + object)) + mb, 0,
      by abel, ⟨own, 0, _, mb, rfl, client, object', objects.push a command, strings⟩, .nil⟩
  | clear =>
    have parts : own + object + vector + mb = vector + (own + object + mb) := by abel
    refine Follows.of_eq parts ((clearCommands_runs objects).before ?_)
    rintro _ _ ⟨rfl, rfl⟩
    exact follows_pure ⟨rfl, own + object + 0 + mb, 0, by abel,
      ⟨own, object, 0, mb, rfl, client, command, .nil, strings⟩, .nil⟩
  | clearMbulks =>
    rw [add_comm]
    refine (clearMbulks_runs strings).before ?_
    rintro _ _ ⟨rfl, rfl⟩
    exact follows_pure ⟨rfl, own + object + vector + 0, 0, by abel,
      ⟨own, object, vector, 0, rfl, client, command, objects, .nil⟩, .nil⟩
  | connect =>
    unfold Session.perform perform Redis2.connect
    rw [client.proto]
    exact follows_pure ⟨rfl, _, 0, by abel,
      ⟨own, object, vector, mb, rfl, client.withProto _, command, objects, strings⟩, .nil⟩
  | close =>
    unfold Session.perform perform Redis2.close
    rw [client.proto]
    exact follows_pure ⟨rfl, _, 0, by abel,
      ⟨own, object, vector, mb, rfl, client.withProto _, command, objects, strings⟩, .nil⟩
  | select index => exact clientOnly (select_follows client index)
  | statusOk name args => exact clientOnly (statusOkMethod_follows client rfl)
  | mbulks name args =>
    have parts : own + object + vector + mb = own + mb + (object + vector) := by abel
    refine Follows.of_eq parts ((mbulksMethod_follows client rfl strings).andThen ?_)
    rintro ⟨_, _, client⟩ ⟨ok, ptrs, r⟩ _ ⟨rfl, own, mb, rfl, client', strings⟩
    exact follows_pure ⟨rfl, own + object + vector + mb, 0, by abel,
      ⟨own, object, vector, mb, rfl, client', command, objects, strings⟩, .nil⟩
  | bxpop isBlpop keys timeout =>
    have parts : own + object + vector + mb = own + (object + vector + mb) := by abel
    refine Follows.of_eq parts ((bxpop_follows client isBlpop keys timeout).andThen ?_)
    rintro ⟨_, losts, client⟩ ⟨out, r⟩ _ ⟨rfl, own, lost, rfl, client', losing⟩
    exact follows_pure ⟨rfl, own + object + vector + mb, lost, by abel,
      ⟨own, object, vector, mb, rfl, client', command, objects, strings⟩, losing⟩
  | execCommand =>
    exact withObject (execBy_follows
      (fun _ _ _ _ _ _ here command => protoExecCommand_follows here command) client command)
  | execCommandv buf =>
    have follows := execBy_follows
      (fun _ _ _ _ _ _ here command => protoExecCommandv_follows here command buf) client command
    unfold Session.perform Redis2.execCommandv
    exact withObject follows
  | execPipeline =>
    have parts : own + object + vector + mb = own + vector + (object + mb) := by abel
    refine Follows.of_eq parts ((execPipeline_follows client objects).andThen ?_)
    rintro ⟨_, commands, client⟩ ⟨ok, r⟩ _ ⟨rfl, own, vector, rfl, client', objects⟩
    exact follows_pure ⟨rfl, own + object + vector + mb, 0, by abel,
      ⟨own, object, vector, mb, rfl, client', command, objects, strings⟩, .nil⟩
  | addCommand =>
    exact withLost (addBy_follows
      (fun _ _ _ _ _ _ here command => protoExecCommand_follows here command) false client command)
  | addCommandv buf =>
    exact withLost (addBy_follows
      (fun _ _ _ _ _ _ here command => protoExecCommandv_follows here command buf) true client
        command)
  | exec =>
    have parts : own + object + vector + mb = own + vector + (object + mb) := by abel
    refine Follows.of_eq parts ((exec_follows client objects).andThen ?_)
    rintro ⟨_, losts, commands, client⟩ ⟨ok, ptrs, r⟩ _
      ⟨rfl, own, vector, lost, rfl, client', objects, losing⟩
    exact follows_pure ⟨rfl, own + object + vector + mb, lost, by abel,
      ⟨own, object, vector, mb, rfl, client', command, objects, strings⟩, losing⟩
  | discard => exact clientOnly (discard_follows client)

/-- So does every run: what the calls lose adds up. -/
theorem run_follows (here : SessionAt value s part) (calls : List Session.Call) :
    Follows (value.run calls) (run calls s) part fun value out left => out.1 = value.1 ∧
      ∃ own lost, left = own + lost ∧ SessionAt value.2.2 out.2 own ∧ LostAt value.2.1 lost := by
  induction calls generalizing value s part with
  | nil => exact follows_pure ⟨rfl, part, 0, by abel, here, .nil⟩
  | cons call rest ih =>
    refine (perform_follows here call).bind ?_
    rintro ⟨_, losts, value⟩ ⟨out, s⟩ _ ⟨rfl, own, lost, rfl, here, losing⟩
    refine (ih here).andThen ?_
    rintro ⟨outs, losts', value⟩ ⟨_, s⟩ _ ⟨rfl, own, lost', rfl, here, losing'⟩
    exact follows_pure ⟨rfl, own, lost + lost', by abel, here, losing.append losing'⟩

omit [Peer π] in
/-- At the end everything is released that the program owns. -/
theorem finish_runs (here : SessionAt value s part) : Runs (finish s) part Gone := by
  obtain ⟨own, object, vector, mb, rfl, client, command, objects, strings⟩ := here
  have parts : own + object + vector + mb = mb + (vector + (object + own)) := by abel
  refine ((clearMbulks_runs strings).andThen ?_).of_eq parts
  rintro _ _ ⟨-, rfl⟩
  rw [zero_add]
  refine (clearCommands_runs objects).andThen ?_
  rintro _ _ ⟨-, rfl⟩
  rw [zero_add]
  refine (destroy_runs command).andThen fun _ left gone => ?_
  rw [show left = 0 from gone, zero_add]
  refine (onReset_runs client).bind fun r left reset => runs_pure ?_
  exact reset.transactionCmds.part_of_nil

omit [Peer π] in
/-- The start owns nothing. -/
theorem new_at (host port : Bytes) (dbIndex : Int32) (timeout : Int) (os : Os π) :
    SessionAt (Session.new host port dbIndex timeout os)
      (SessionFields.new host port dbIndex timeout os) 0 :=
  ⟨0, 0, 0, 0, rfl, ⟨rfl, rfl, rfl, .nil⟩, onStack_at rfl, .nil, .nil⟩

/-- For every peer and every run of calls, from the start to the end in any memory: no pointer to
nothing is followed and nothing is released twice; and where all the calls return, they return what
they return without memory, and what is left behind is what is lost, beside what was there before. -/
theorem lifetime_follows (calls : List Session.Call) (host port : Bytes) (dbIndex : Int32)
    (timeout : Int) (os : Os π) :
    Follows ((Session.new host port dbIndex timeout os).run calls)
      (lifetime calls (SessionFields.new host port dbIndex timeout os)) 0
      fun value out left => out = value.1 ∧ LostAt value.2.1 left := by
  refine (run_follows (new_at host port dbIndex timeout os) calls).alone ?_
  rintro ⟨_, losts, value⟩ ⟨outs, s⟩ _ ⟨rfl, own, lost, rfl, here, losing⟩
  refine (finish_runs here).andThen fun _ left gone => ?_
  rw [show left = 0 from gone, zero_add]
  exact runs_pure ⟨rfl, losing⟩

/-- A refused command stays behind in two cells, its object and the text of its output. -/
example : ((lifetime [.connect, .statusOk .multi [], .fill .get [ascii "k"], .addCommand]
    (SessionFields.new (ascii "localhost") (ascii "6379") 0 1000
      (.start (⟨[[], ascii "+OK\r\n", ascii "-ERR\r\n"]⟩ : ScriptedPeer) [.chunk 100, .chunk 100]))
    Heap.empty).toOption.map fun returned => returned.2.cells.length) = some 2 := by decide +kernel

end Memory

end LibRedis
