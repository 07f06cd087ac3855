import LibRedis.ReplyMemory

/-!
# Reading replies into memory

The functions of `RedisProtocol` that fill outputs, with what they allocate and release. Each does
what its model on values does, and the cells that it leaves are those of the output that it leaves:
nothing leaks, on the failing exits either, and nothing is released twice.
-/

namespace LibRedis

open Decimal (ascii)
open Heaps

namespace Memory

variable {π : Type}

/-- `read_bulk`: the pointer, or none if it returns false. -/
def readBulk (p : RedisProtocol π) : Mem (Option Pointer × RedisProtocol π) := do
  let (bulk, p) ← Prog.lift p.readBulk
  match bulk with
  | none => return (none, p)
  | some none => return (some none, p)
  | some (some b) =>
    let str ← Prog.alloc (.string b)
    return (some (some str), p)

/-- Loop of `read_multi_bulk_2`: the vector, or none if it returns false. -/
def readBulks : Nat → List Pointer → RedisProtocol π → Mem (Option (List Pointer) × RedisProtocol π)
  | 0, mbulks, p => return (some mbulks, p)
  | count + 1, mbulks, p => do
    let (bulk, p) ← readBulk p
    match bulk with
    | none =>
      let _ ← clearMbulks mbulks
      return (none, p)
    | some bulk => readBulks count (mbulks ++ [bulk]) p

/-- `read_multi_bulk_2`: none if it returns false; none inside for a nil multi-bulk. -/
def readMultiBulk2 (p : RedisProtocol π) (header : Bytes) :
    Mem (Option (Option (List Pointer)) × RedisProtocol π) := do
  let (number, p) ← Prog.lift (p.parseInteger header)
  match number with
  | none => return (none, p.abandon (ascii "read") (ascii "integer error : " ++ header))
  | some i =>
    if i < -1 then
      return (none, p.abandon (ascii "read") (ascii "unexpected integer : " ++ Decimal.intText i))
    else if i = -1 then return (some none, p)
    else if maxSize 8 < i.toNat then Prog.lift (.error .lengthError)
    else
      let (bulks, p) ← readBulks i.toNat [] p
      return (bulks.map some, p)

/-- A failing exit of `__read_reply` that has left its text in `error_`. -/
def refused (output : OutputFields) (p : RedisProtocol π) :
    Mem (Bool × OutputFields × RedisProtocol π) := do
  let output ← setError output p.error
  return (false, output, p)

/-- `__read_reply` on a line that begins with `:`. -/
def readInteger (output : OutputFields) (p : RedisProtocol π) (buf : Bytes) :
    Mem (Bool × OutputFields × RedisProtocol π) := do
  let (number, p) ← Prog.lift (p.parseInteger buf)
  match number with
  | some i =>
    let output ← setI output i
    return (true, output, p)
  | none => refused output (p.abandon (ascii "read") (ascii "integer error : " ++ buf))

/-- `__read_reply` on a line that begins with `$`. -/
def readBulkReply (output : OutputFields) (p : RedisProtocol π) (buf : Bytes) :
    Mem (Bool × OutputFields × RedisProtocol π) := do
  let (bulk, p) ← Prog.lift (p.readBulk2 buf)
  match bulk with
  | some (some bulk) =>
    let output ← setBulk output bulk
    return (true, output, p)
  | some none =>
    let output ← setNilBulk output
    return (true, output, p)
  | none => refused output p

/-- `__read_reply` on a line that begins with `*` for a multi-bulk of bulks. -/
def readMultiBulkReply (output : OutputFields) (p : RedisProtocol π) (buf : Bytes) :
    Mem (Bool × OutputFields × RedisProtocol π) := do
  let (bulks, p) ← readMultiBulk2 p buf
  match bulks with
  | some (some mbulks) =>
    let output ← setMbulks output mbulks
    return (true, output, p)
  | some none =>
    let output ← setNilMbulks output
    return (true, output, p)
  | none => refused output p

section Children

variable (child : OutputFields → RedisProtocol π → Mem (Bool × OutputFields × RedisProtocol π))

/-- Loop of `__read_reply` over the elements of an array: the vector, or none if a child fails. -/
def readChildren :
    Nat → List Pointer → RedisProtocol π → Mem (Option (List Pointer) × RedisProtocol π)
  | 0, smbulks, p => return (some smbulks, p)
  | count + 1, smbulks, p => do
    let outputChild ← Prog.alloc (.output ⟨.none, none⟩)
    let (ok, fields, p) ← child (← Prog.read outputChild Cell.asOutput) p
    Prog.write outputChild Cell.asOutput (.output fields)
    if !ok then
      deleteOutput (some outputChild)
      let _ ← clearSmbulks smbulks
      return (none, p)
    else readChildren count (smbulks ++ [some outputChild]) p

/-- `__read_reply` on a line that begins with `*`, treated as a special multi-bulk. -/
def readSpecialMultiBulk (endsTransaction : Bool) (output : OutputFields) (p : RedisProtocol π)
    (buf : Bytes) : Mem (Bool × OutputFields × RedisProtocol π) := do
  let (number, p) ← Prog.lift (p.parseInteger buf)
  match number with
  | none => refused output (p.abandon (ascii "read") (ascii "integer error : " ++ buf))
  | some bulkSize =>
    if bulkSize = -1 then
      let output ← setNilSmbulks output
      return (true, output, { p with transactionMode := p.transactionMode && !endsTransaction })
    else
      let (smbulks, p) ← readChildren child bulkSize.toNat [] p
      match smbulks with
      | none => return (false, output, p)
      | some smbulks =>
        let output ← setSmbulks output smbulks
        -- the local vector is empty behind the swap
        let _ ← clearSmbulks []
        return (true, output, { p with transactionMode := p.transactionMode && !endsTransaction })

/-- The exit of `__read_reply` for a reply of a type that was not expected. -/
def typeError (output : OutputFields) (p : RedisProtocol π) (mark : String) :
    Mem (Bool × OutputFields × RedisProtocol π) :=
  refused output (p.abandon (ascii "read") (ascii "reply type error " ++ ascii mark))

/-- The switch of `__read_reply` over the first byte of the line. -/
def readReplyLine (command : Command) (isCommandOut checkReplyType : Bool)
    (expReplyType : ReplyType) (output : OutputFields) (p : RedisProtocol π) (buf : Bytes) :
    Mem (Bool × OutputFields × RedisProtocol π) :=
  match buf with
  | [] => Prog.lift (.error .assertion)
  | 45 :: text => refused output { p with error := text }
  | 43 :: text =>
    if checkReplyType && expReplyType != .status then typeError output p "+"
    else do
      let output ← setStatus output text
      return (true, output,
        { p with transactionMode := RedisProtocol.modeAfterStatus p.transactionMode command })
  | 58 :: _ =>
    if checkReplyType && expReplyType != .integer then typeError output p ":"
    else readInteger output p buf
  | 36 :: _ =>
    if checkReplyType && expReplyType != .bulk then typeError output p "$"
    else readBulkReply output p buf
  | 42 :: _ =>
    if checkReplyType && expReplyType != .multiBulk && expReplyType != .specialMultiBulk then
      typeError output p "*"
    else if expReplyType = .multiBulk then readMultiBulkReply output p buf
    else readSpecialMultiBulk child (command == .exec && isCommandOut) output p buf
  | _ => refused output (p.abandon (ascii "read") (ascii "unexpected reply " ++ buf))

end Children

/-- `__read_reply`. -/
def readReplyInner (command : Command) :
    Nat → Bool → OutputFields → RedisProtocol π → Mem (Bool × OutputFields × RedisProtocol π)
  | 0, _, _, _ => Prog.lift (.error .diverges)
  | fuel + 1, isCommandOut, output, p => do
    let checkReplyType := isCommandOut && command.commandInfo.replyType != .depends
    let expReplyType :=
      if checkReplyType then RedisProtocol.expectedType p.transactionMode command
      else command.commandInfo.replyType
    let (received, buf, p) ← Prog.lift p.readLine
    if !received then refused output p
    else
      readReplyLine (readReplyInner command fuel false) command isCommandOut checkReplyType
        expReplyType output p buf

/-- `read_reply`. -/
def readReply (p : RedisProtocol π) (c : CommandFields) :
    Mem (Bool × CommandFields × RedisProtocol π) := do
  let fuel := p.tcpClient.buffer.readSize + p.tcpClient.os.incoming.length + 1
  let (ok, out, p) ← readReplyInner c.command fuel true c.out p
  return (ok, { c with out := out }, p)

/-- `check_argc`. -/
def checkArgc (p : RedisProtocol π) (c : CommandFields) (givenArgc : Int) :
    Mem (Bool × CommandFields × RedisProtocol π) := do
  if RedisProtocol.argcMatches c.command.commandInfo.argc givenArgc then return (true, c, p)
  else
    let error := ascii "argc not matched, expect " ++ Decimal.intText c.command.commandInfo.argc ++
      ascii ", given " ++ Decimal.intText givenArgc
    let out ← setError c.out error
    return (false, { c with out := out }, { p with error := error })

/-- End of `write_command` and `write_commandv`: the request is sent. -/
def sendRequest [Peer π] (p : RedisProtocol π) (c : CommandFields) (request : Bytes) :
    Mem (Bool × CommandFields × RedisProtocol π) := do
  let (ec, tcpClient) ← Prog.lift (p.tcpClient.write request p.timeout)
  let p := { p with tcpClient := tcpClient }
  if ec ≠ 0 then
    let p := p.abandon (ascii "write") (p.ecToString ec)
    let out ← setError c.out p.error
    return (false, { c with out := out }, p)
  else return (true, c, p)

/-- `write_command`. -/
def writeCommand [Peer π] (p : RedisProtocol π) (c : CommandFields) :
    Mem (Bool × CommandFields × RedisProtocol π) := do
  let (ok, c, p) ← checkArgc p c (toInt32 c.args.length)
  if !ok then return (false, c, p)
  else sendRequest p c (RedisProtocol.commandText ⟨c.command, c.args, .none⟩)

/-- `exec_command`. -/
def execCommand [Peer π] (p : RedisProtocol π) (c : CommandFields) :
    Mem (Bool × CommandFields × RedisProtocol π) := do
  let (ok, c, p) ← writeCommand p c
  if !ok then return (false, c, p) else readReply p c

/-- `write_commandv`, from the text that the format has printed. -/
def writeCommandv [Peer π] (p : RedisProtocol π) (c : CommandFields) (buf : Bytes) :
    Mem (Bool × CommandFields × RedisProtocol π) := do
  let args := RedisProtocol.splitWords buf
  let c := { c with args := args }
  let givenArgc := toInt32 args.length
  if givenArgc = 0 then
    let error := ascii "given argc is zero"
    let out ← setError c.out error
    return (false, { c with out := out }, { p with error := error })
  else
    let name := args.headD []
    let c := { c with command := Command.ofName name }
    if c.command = .noop then
      let error := ascii "invalid command: " ++ name
      let out ← setError c.out error
      return (false, { c with out := out }, { p with error := error })
    else
      let (ok, c, p) ← checkArgc p c (givenArgc - 1)
      if !ok then return (false, c, p)
      else
        sendRequest p c (ascii "*" ++ Decimal.intText givenArgc ++ redisLineEnd ++
          args.flatMap RedisProtocol.bulkText)

/-- `exec_commandv`, from the text that the format has printed. -/
def execCommandv [Peer π] (p : RedisProtocol π) (c : CommandFields) (buf : Bytes) :
    Mem (Bool × CommandFields × RedisProtocol π) := do
  let (ok, c, p) ← writeCommandv p c buf
  if !ok then return (false, c, p) else readReply p c

/-- Two results that are both there, or neither. -/
inductive IfAny {α β : Type} (shows : α → β → Part → Prop) : Option α → Option β → Part → Prop
  | none : IfAny shows none none 0
  | some {value : α} {out : β} {left : Part} (here : shows value out left) :
      IfAny shows (some value) (some out) left

/-- What is read, with the same protocol object. -/
def WithProtocol {α β : Type} (shows : α → β → Part → Prop) (value : α × RedisProtocol π)
    (out : β × RedisProtocol π) (left : Part) : Prop :=
  out.2 = value.2 ∧ shows value.1 out.1 left

/-- The same result and protocol object, and an output with what it owns. -/
def Fills (value : Bool × RedisOutput × RedisProtocol π) (out : Bool × OutputFields × RedisProtocol π)
    (left : Part) : Prop :=
  out.1 = value.1 ∧ out.2.2 = value.2.2 ∧ OutputAt value.2.1 out.2.1 left

open Prog

/-- The strings of two vectors. -/
theorem StringsAt.append {strings others : List (Option Bytes)} {ptrs ptrs' : List Pointer}
    {own own' : Part} (first : StringsAt strings ptrs own) (second : StringsAt others ptrs' own') :
    StringsAt (strings ++ others) (ptrs ++ ptrs') (own + own') := by
  induction first with
  | nil => rwa [List.nil_append, List.nil_append, zero_add]
  | cons head tail ih =>
    rw [add_assoc]
    exact .cons head ih

/-- One more string. -/
theorem StringsAt.push {strings : List (Option Bytes)} {string : Option Bytes} {ptrs : List Pointer}
    {ptr : Pointer} {own own' : Part} (first : StringsAt strings ptrs own)
    (last : StringAt string ptr own') :
    StringsAt (strings ++ [string]) (ptrs ++ [ptr]) (own + own') :=
  first.append (by
    rw [← add_zero own']
    exact .cons last .nil)

/-- The outputs of two vectors. -/
theorem OutputsAt.append {outputs others : List RedisOutput} {ptrs ptrs' : List Pointer}
    {own own' : Part} (first : OutputsAt outputs ptrs own) (second : OutputsAt others ptrs' own') :
    OutputsAt (outputs ++ others) (ptrs ++ ptrs') (own + own') := by
  induction outputs generalizing ptrs own with
  | nil =>
    cases first
    rwa [List.nil_append, List.nil_append, zero_add]
  | cons output outputs ih =>
    cases first with
    | cons a head tail =>
      rw [add_assoc]
      exact .cons a head (ih tail)

/-- One more output. -/
theorem OutputsAt.push {outputs : List RedisOutput} {output : RedisOutput} {fields : OutputFields}
    {ptrs : List Pointer} {own own' : Part} (first : OutputsAt outputs ptrs own) (a : Nat)
    (last : OutputAt output fields own') :
    OutputsAt (outputs ++ [output]) (ptrs ++ [some a]) (own + ({(a, .output fields)} + own')) :=
  first.append (by
    rw [← add_zero ({(a, Cell.output fields)} + own')]
    exact .cons a last .nil)

/-- `read_bulk` allocates a string if there is one. -/
theorem readBulk_follows (p : RedisProtocol π) :
    Follows p.readBulk (readBulk p) 0 (WithProtocol (IfAny StringAt)) := by
  refine (follows_lift p.readBulk).alone ?_
  rintro ⟨bulk, p⟩ _ _ ⟨rfl, rfl⟩
  match bulk with
  | none => exact runs_pure ⟨rfl, .none⟩
  | some none => exact runs_pure ⟨rfl, .some .null⟩
  | some (some b) =>
    refine (runs_alloc _).bind ?_
    rintro a _ rfl
    exact runs_pure ⟨rfl, .some (.string a b)⟩

/-- The loop of `read_multi_bulk_2` collects the strings, or releases them. -/
theorem readBulks_follows (count : Nat) {strings : List (Option Bytes)} {mbulks : List Pointer}
    {own : Part} (here : StringsAt strings mbulks own) (p : RedisProtocol π) :
    Follows (RedisProtocol.readBulks count p) (readBulks count mbulks p) own
      fun value out left => out.2 = value.2 ∧
        IfAny StringsAt (value.1.map (strings ++ ·)) out.1 left := by
  induction count generalizing strings mbulks own p with
  | zero =>
    refine follows_pure ⟨rfl, ?_⟩
    rw [Option.map_some, List.append_nil]
    exact .some here
  | succ count ih =>
    refine Follows.of_eq (zero_add own).symm ((readBulk_follows p).andThen ?_)
    rintro ⟨bulk, p⟩ ⟨ptr, p'⟩ left ⟨rfl, found⟩
    cases found with
    | none =>
      rw [zero_add]
      refine (clearMbulks_runs here).follow ?_
      rintro _ _ ⟨-, rfl⟩
      exact follows_pure ⟨rfl, .none⟩
    | @some bulk ptr left string =>
      rw [add_comm]
      refine (ih (here.push string) p').last ?_
      rintro ⟨bulks, p⟩
      refine ⟨_, rfl, ?_⟩
      rintro ⟨ptrs, p'⟩ left ⟨rfl, all⟩
      refine ⟨rfl, ?_⟩
      rw [Option.map_map]
      have same : (strings ++ ·) ∘ (bulk :: ·) = ((strings ++ [bulk]) ++ ·) := by
        funext rest
        simp
      rw [same]
      exact all

/-- `read_multi_bulk_2` leaves the strings of the vector, or none. -/
theorem readMultiBulk2_follows (p : RedisProtocol π) (header : Bytes) :
    Follows (p.readMultiBulk2 header) (readMultiBulk2 p header) 0
      (WithProtocol (IfAny (IfAny StringsAt))) := by
  refine (follows_lift (p.parseInteger header)).bind ?_
  rintro ⟨number, p⟩ _ _ ⟨rfl, rfl⟩
  cases number with
  | none => exact follows_pure ⟨rfl, .none⟩
  | some i =>
    by_cases negative : i < -1
    · simp only [if_pos negative]
      exact follows_pure ⟨rfl, .none⟩
    · by_cases nil : i = -1
      · simp only [if_neg negative, if_pos nil]
        exact follows_pure ⟨rfl, .some .none⟩
      · by_cases many : maxSize 8 < i.toNat
        · simp only [if_neg negative, if_neg nil, if_pos many]
          exact follows_stop _
        · simp only [if_neg negative, if_neg nil, if_neg many]
          refine (readBulks_follows i.toNat .nil p).bind ?_
          rintro ⟨bulks, p⟩ ⟨ptrs, _⟩ left ⟨rfl, all⟩
          cases bulks with
          | none =>
            cases all
            exact follows_pure ⟨rfl, .none⟩
          | some bulks =>
            cases all with
            | some all => exact follows_pure ⟨rfl, .some (.some all)⟩

variable {value : RedisOutput} {output : OutputFields} {part : Part}

/-- An output is set, and the call returns. -/
theorem filled_runs {set : Mem OutputFields} {value' : RedisOutput}
    (runs : Runs set part (OutputAt value')) (ok : Bool) (p : RedisProtocol π) :
    Runs (set >>= fun output => pure (ok, output, p)) part (Fills (ok, value', p)) :=
  runs.bind fun _ _ here => runs_pure ⟨rfl, rfl, here⟩

/-- A failing exit leaves the text. -/
theorem refused_runs (here : OutputAt value output part) (p : RedisProtocol π) :
    Runs (refused output p) part (Fills p.refused) :=
  filled_runs (setError_runs here p.error) false p

/-- A number. -/
theorem readInteger_follows (here : OutputAt value output part) (p : RedisProtocol π) (buf : Bytes) :
    Follows (p.readInteger buf) (readInteger output p buf) part Fills := by
  refine (follows_lift (p.parseInteger buf)).bind ?_
  rintro ⟨number, p⟩ _ _ ⟨rfl, rfl⟩
  cases number with
  | none => exact (refused_runs here _).follows
  | some i => exact (filled_runs (setI_runs here i) true p).follows

/-- A bulk. -/
theorem readBulkReply_follows (here : OutputAt value output part) (p : RedisProtocol π)
    (buf : Bytes) : Follows (p.readBulkReply buf) (readBulkReply output p buf) part Fills := by
  refine (follows_lift (p.readBulk2 buf)).bind ?_
  rintro ⟨bulk, p⟩ _ _ ⟨rfl, rfl⟩
  match bulk with
  | none => exact (refused_runs here p).follows
  | some none => exact (filled_runs (setNilBulk_runs here) true p).follows
  | some (some bulk) => exact (filled_runs (setBulk_runs here bulk) true p).follows

/-- A multi-bulk of bulks. -/
theorem readMultiBulkReply_follows (here : OutputAt value output part) (p : RedisProtocol π)
    (buf : Bytes) :
    Follows (p.readMultiBulkReply buf) (readMultiBulkReply output p buf) part Fills := by
  refine Follows.of_eq (zero_add part).symm ((readMultiBulk2_follows p buf).andThen ?_)
  rintro ⟨bulks, p⟩ ⟨ptrs, _⟩ left ⟨rfl, all⟩
  cases all with
  | none =>
    rw [zero_add]
    exact (refused_runs here _).follows
  | some all =>
    cases all with
    | none =>
      rw [zero_add]
      exact (filled_runs (setNilMbulks_runs here) true _).follows
    | some all =>
      rw [add_comm]
      exact (filled_runs (setMbulks_runs here all) true _).follows

section Children

variable
  {child : RedisOutput → RedisProtocol π → Except Abort (Bool × RedisOutput × RedisProtocol π)}
  {child' : OutputFields → RedisProtocol π → Mem (Bool × OutputFields × RedisProtocol π)}
  (fills : ∀ value output part p, OutputAt value output part →
    Follows (child value p) (child' output p) part Fills)

include fills

/-- The loop over an array collects the outputs of the elements, or releases them. -/
theorem readChildren_follows (count : Nat) {outputs : List RedisOutput} {smbulks : List Pointer}
    {own : Part} (here : OutputsAt outputs smbulks own) (p : RedisProtocol π) :
    Follows (RedisProtocol.readChildren child count p) (readChildren child' count smbulks p) own
      fun value out left => out.2 = value.2 ∧
        IfAny OutputsAt (value.1.map (outputs ++ ·)) out.1 left := by
  induction count generalizing outputs smbulks own p with
  | zero =>
    refine follows_pure ⟨rfl, ?_⟩
    rw [Option.map_some, List.append_nil]
    exact .some here
  | succ count ih =>
    refine Follows.of_eq (zero_add own).symm ((runs_alloc _).before ?_)
    rintro a _ rfl
    refine (runs_read Cell.asOutput rfl).before ?_
    rintro _ _ ⟨rfl, rfl⟩
    refine Follows.of_eq (zero_add _).symm ((fills .none _ 0 p .none).andThen ?_)
    rintro ⟨_, output, _⟩ ⟨ok, fields, p⟩ left ⟨rfl, rfl, filled⟩
    rw [add_left_comm]
    refine (runs_write Cell.asOutput rfl _).before ?_
    rintro _ _ rfl
    cases ok with
    | false =>
      rw [← add_assoc]
      refine (deleteOutput_runs a filled).before fun _ gone none => ?_
      rw [show gone = 0 from none, zero_add]
      refine (clearSmbulks_runs here).follow ?_
      rintro _ _ ⟨-, rfl⟩
      exact follows_pure ⟨rfl, .none⟩
    | true =>
      rw [← add_assoc, add_comm]
      refine (ih (here.push a filled) _).last ?_
      rintro ⟨others, p⟩
      refine ⟨_, rfl, ?_⟩
      rintro ⟨ptrs, _⟩ left ⟨rfl, all⟩
      refine ⟨rfl, ?_⟩
      rw [Option.map_map]
      have same : (outputs ++ ·) ∘ (output :: ·) = ((outputs ++ [output]) ++ ·) := by
        funext rest
        simp
      rw [same]
      exact all

variable {value : RedisOutput} {output : OutputFields} {part : Part}

/-- An array. -/
theorem readSpecialMultiBulk_follows (here : OutputAt value output part) (endsTransaction : Bool)
    (p : RedisProtocol π) (buf : Bytes) :
    Follows (RedisProtocol.readSpecialMultiBulk child endsTransaction value p buf)
      (readSpecialMultiBulk child' endsTransaction output p buf) part Fills := by
  refine (follows_lift (p.parseInteger buf)).bind ?_
  rintro ⟨number, p⟩ _ _ ⟨rfl, rfl⟩
  cases number with
  | none => exact (refused_runs here _).follows
  | some bulkSize =>
    by_cases nil : bulkSize = -1
    · simp only [if_pos nil]
      exact (filled_runs (setNilSmbulks_runs here) true _).follows
    · simp only [if_neg nil]
      refine Follows.of_eq (zero_add _).symm
        ((readChildren_follows fills bulkSize.toNat .nil p).andThen ?_)
      rintro ⟨smbulks, p⟩ ⟨ptrs, _⟩ left ⟨rfl, all⟩
      cases smbulks with
      | none =>
        cases all
        rw [zero_add]
        exact follows_pure ⟨rfl, rfl, here⟩
      | some smbulks =>
        cases all with
        | some all =>
          rw [add_comm]
          refine (setSmbulks_runs here all).follow fun output left filled => ?_
          refine Follows.of_eq (zero_add left).symm ((clearSmbulks_runs .nil).before ?_)
          rintro _ _ ⟨-, rfl⟩
          rw [zero_add]
          exact follows_pure ⟨rfl, rfl, filled⟩

/-- Any line. -/
theorem readReplyLine_follows (here : OutputAt value output part) (command : Command)
    (isCommandOut checkReplyType : Bool) (expReplyType : ReplyType) (p : RedisProtocol π)
    (buf : Bytes) :
    Follows (RedisProtocol.readReplyLine child command isCommandOut checkReplyType expReplyType value
        p buf)
      (readReplyLine child' command isCommandOut checkReplyType expReplyType output p buf) part
      Fills := by
  unfold RedisProtocol.readReplyLine readReplyLine
  split
  · exact follows_stop _
  · exact (refused_runs here _).follows
  · split
    · exact (refused_runs here _).follows
    · exact (filled_runs (setStatus_runs here _) true _).follows
  · split
    · exact (refused_runs here _).follows
    · exact readInteger_follows here p _
  · split
    · exact (refused_runs here _).follows
    · exact readBulkReply_follows here p _
  · split
    · exact (refused_runs here _).follows
    · split
      · exact readMultiBulkReply_follows here p _
      · exact readSpecialMultiBulk_follows fills here _ p _
  · simpa only using
      (refused_runs here (p.abandon (ascii "read") (ascii "unexpected reply " ++ buf))).follows

end Children

/-- `__read_reply` leaves the output that it fills, and nothing else. -/
theorem readReplyInner_follows (command : Command) (fuel : Nat) (isCommandOut : Bool)
    (here : OutputAt value output part) (p : RedisProtocol π) :
    Follows (RedisProtocol.readReplyInner command fuel isCommandOut value p)
      (readReplyInner command fuel isCommandOut output p) part Fills := by
  induction fuel generalizing isCommandOut value output part p with
  | zero => exact follows_stop _
  | succ fuel ih =>
    refine (follows_lift p.readLine).bind ?_
    rintro ⟨received, buf, p⟩ _ _ ⟨rfl, rfl⟩
    cases received with
    | false => exact (refused_runs here p).follows
    | true =>
      exact readReplyLine_follows (fun _ _ _ p here => ih false here p) here command isCommandOut _ _
        p buf

/-- The members of a command object, and the cells that it owns. -/
structure CommandAt (value : RedisCommand) (c : CommandFields) (part : Part) : Prop where
  /-- The command. -/
  command : c.command = value.command
  /-- Its arguments. -/
  args : c.args = value.args
  /-- The output owns the cells. -/
  out : OutputAt value.out c.out part

/-- The same result and protocol object, and a command object with what it owns. -/
def Commands (value : Bool × RedisCommand × RedisProtocol π)
    (out : Bool × CommandFields × RedisProtocol π) (left : Part) : Prop :=
  out.1 = value.1 ∧ out.2.2 = value.2.2 ∧ CommandAt value.2.1 out.2.1 left

variable {c : RedisCommand} {fields : CommandFields}

/-- `read_reply`. -/
theorem readReply_follows (here : CommandAt c fields part) (p : RedisProtocol π) :
    Follows (p.readReply c) (readReply p fields) part Commands := by
  obtain ⟨command, args, out⟩ := fields
  obtain ⟨rfl, rfl, here⟩ := here
  refine (readReplyInner_follows c.command _ true here p).bind ?_
  rintro ⟨_, output, _⟩ ⟨ok, fields, p⟩ left ⟨rfl, rfl, filled⟩
  exact follows_pure ⟨rfl, rfl, rfl, rfl, filled⟩

/-- An error is set in a command object, and the call returns. -/
theorem failed_runs (here : CommandAt c fields part) (e : Bytes) (p : RedisProtocol π) :
    Runs (setError fields.out e >>= fun out => pure (false, { fields with out := out }, p)) part
      (Commands (false, { c with out := .error e }, p)) :=
  (setError_runs here.out e).bind fun _ _ set => runs_pure ⟨rfl, rfl, here.command, here.args, set⟩

/-- `check_argc`. -/
theorem checkArgc_runs (here : CommandAt c fields part) (p : RedisProtocol π) (givenArgc : Int) :
    Runs (checkArgc p fields givenArgc) part (Commands (p.checkArgc c givenArgc)) := by
  obtain ⟨command, args, out⟩ := fields
  obtain ⟨rfl, rfl, here⟩ := here
  unfold checkArgc RedisProtocol.checkArgc RedisCommand.commandInfo
  split
  · exact runs_pure ⟨rfl, rfl, rfl, rfl, here⟩
  · exact failed_runs ⟨rfl, rfl, here⟩ _ _

/-- A request is sent. -/
theorem sendRequest_follows [Peer π] (here : CommandAt c fields part) (p : RedisProtocol π)
    (request : Bytes) :
    Follows (p.sendRequest c request) (sendRequest p fields request) part Commands := by
  refine (follows_lift (p.tcpClient.write request p.timeout)).bind ?_
  rintro ⟨ec, tcpClient⟩ _ _ ⟨rfl, rfl⟩
  by_cases failed : ec ≠ 0
  · simp only [if_pos failed]
    exact (failed_runs here _ _).follows
  · simp only [if_neg failed]
    exact follows_pure ⟨rfl, rfl, here⟩

/-- The text of a request is that of the members. -/
theorem CommandAt.commandText (here : CommandAt c fields part) :
    RedisProtocol.commandText ⟨fields.command, fields.args, .none⟩ = RedisProtocol.commandText c := by
  rw [here.command, here.args]
  rfl

/-- What is sent is checked first. -/
theorem sendChecked_follows [Peer π] {write : RedisCommand → Bytes} {write' : CommandFields → Bytes}
    (texts : ∀ c fields part, CommandAt c fields part → write' fields = write c)
    (here : CommandAt c fields part) (p : RedisProtocol π) (givenArgc : Int) :
    Follows
      (match p.checkArgc c givenArgc with
        | (ok, c, p) => if !ok then return (false, c, p) else p.sendRequest c (write c))
      (checkArgc p fields givenArgc >>= fun (ok, c, p) =>
        if !ok then return (false, c, p) else sendRequest p c (write' c)) part Commands := by
  refine (checkArgc_runs here p givenArgc).follow ?_
  generalize p.checkArgc c givenArgc = checked
  obtain ⟨_, c, _⟩ := checked
  rintro ⟨ok, fields, p⟩ left ⟨rfl, rfl, here⟩
  cases ok with
  | false => exact follows_pure ⟨rfl, rfl, here⟩
  | true =>
    have same := texts c fields left here
    show Follows (p.sendRequest c (write c)) (sendRequest p fields (write' fields)) left Commands
    rw [same]
    exact sendRequest_follows here p (write c)

/-- `write_command`. -/
theorem writeCommand_follows [Peer π] (here : CommandAt c fields part) (p : RedisProtocol π) :
    Follows (p.writeCommand c) (writeCommand p fields) part Commands := by
  have args := here.args
  unfold RedisProtocol.writeCommand writeCommand
  rw [args]
  exact sendChecked_follows (fun c fields part here => here.commandText) here p _

/-- `write_commandv`. -/
theorem writeCommandv_follows [Peer π] (here : CommandAt c fields part) (p : RedisProtocol π)
    (buf : Bytes) : Follows (p.writeCommandv c buf) (writeCommandv p fields buf) part Commands := by
  have split : CommandAt { c with args := RedisProtocol.splitWords buf }
      { fields with args := RedisProtocol.splitWords buf } part := ⟨here.command, rfl, here.out⟩
  have named (command : Command) :
      CommandAt { c with args := RedisProtocol.splitWords buf, command := command }
        { fields with args := RedisProtocol.splitWords buf, command := command } part :=
    ⟨rfl, rfl, here.out⟩
  unfold RedisProtocol.writeCommandv writeCommandv
  by_cases nothing : toInt32 (RedisProtocol.splitWords buf).length = 0
  · simp only [if_pos nothing]
    exact (failed_runs split _ _).follows
  simp only [if_neg nothing]
  by_cases unknown : Command.ofName ((RedisProtocol.splitWords buf).headD []) = .noop
  · simp only [if_pos unknown]
    exact (failed_runs (named _) _ _).follows
  simp only [if_neg unknown]
  exact sendChecked_follows (fun _ _ _ _ => rfl) (named _) p _

/-- The reply is read if the request was written. -/
theorem readIf_follows (here : CommandAt c fields part) (ok : Bool) (p : RedisProtocol π) :
    Follows (if !ok then .ok (false, c, p) else p.readReply c)
      (if !ok then pure (false, fields, p) else readReply p fields) part Commands := by
  cases ok with
  | false => exact follows_pure ⟨rfl, rfl, here⟩
  | true => exact readReply_follows here p

/-- `exec_command` leaves the command object with what its output owns, and nothing else. -/
theorem execCommand_follows [Peer π] (here : CommandAt c fields part) (p : RedisProtocol π) :
    Follows (p.execCommand c) (execCommand p fields) part Commands := by
  refine (writeCommand_follows here p).bind ?_
  rintro ⟨_, c, _⟩ ⟨ok, fields, p⟩ left ⟨rfl, rfl, here⟩
  exact readIf_follows here ok p

/-- So does `exec_commandv`. -/
theorem execCommandv_follows [Peer π] (here : CommandAt c fields part) (p : RedisProtocol π)
    (buf : Bytes) : Follows (p.execCommandv c buf) (execCommandv p fields buf) part Commands := by
  refine (writeCommandv_follows here p buf).bind ?_
  rintro ⟨_, c, _⟩ ⟨ok, fields, p⟩ left ⟨rfl, rfl, here⟩
  exact readIf_follows here ok p

end Memory

end LibRedis
