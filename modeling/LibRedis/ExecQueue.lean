import LibRedis.ExecResults

/-!
# Results of EXEC and the queue

`exec` moves each element of the reply into the command that it answers, converts an array of bulks
on the way, and hands the commands over to the caller. The loop, the swaps and the conversion are
written out here; `execInto_eq` says that they do what `exec` does in one expression.
-/

namespace LibRedis

open Decimal (ascii)
open Resp (encode)

namespace RedisOutput

/-- `convert`: the bulks, and the array that they were taken out of. None if it returns false. -/
def convert (elements : List RedisOutput) :
    Option (List (Option Bytes) × List RedisOutput) :=
  if convertible2Mbulks elements then some (elements.map toBulk, []) else Option.none

/-- The output for a bulk. -/
def ofBulk : Option Bytes → RedisOutput
  | some bytes => .bulk bytes
  | Option.none => .nilBulk

/-- How an element is presented: an array of bulks as a multi-bulk, all else as it is. -/
inductive Presents : RedisOutput → RedisOutput → Prop where
  /-- The bulks keep their order, and nil bulks their places. -/
  | bulks (mb : List (Option Bytes)) : Presents (.smbulks (mb.map ofBulk)) (.mbulks mb)
  /-- Everything else is unchanged. -/
  | other {output : RedisOutput} (unlike : ∀ mb : List (Option Bytes),
      output ≠ .smbulks (mb.map ofBulk)) : Presents output output

/-- A bulk is the output for what is taken out of it. -/
theorem ofBulk_toBulk {output : RedisOutput} (isBulk : output.replyType = .bulk) :
    ofBulk output.toBulk = output := by
  cases output with
  | bulk bytes => rfl
  | nilBulk => rfl
  | _ => cases isBulk

/-- What is taken out of the output for a bulk is the bulk. -/
@[simp] theorem toBulk_ofBulk (bulk : Option Bytes) : (ofBulk bulk).toBulk = bulk := by
  cases bulk with
  | none => rfl
  | some bytes => rfl

/-- The output for a bulk has its type. -/
@[simp] theorem replyType_ofBulk (bulk : Option Bytes) : (ofBulk bulk).replyType = .bulk := by
  cases bulk with
  | none => rfl
  | some bytes => rfl

/-- The arrays that can be converted are those of bulks. -/
theorem convertible2Mbulks_iff {elements : List RedisOutput} :
    convertible2Mbulks elements = true ↔ ∃ mb : List (Option Bytes), elements = mb.map ofBulk := by
  unfold convertible2Mbulks
  constructor
  · intro all
    have each : ∀ output ∈ elements, (ofBulk ∘ toBulk) output = output := by
      intro output member
      have isBulk := List.all_eq_true.mp all output member
      exact ofBulk_toBulk (beq_iff_eq.mp isBulk)
    refine ⟨elements.map toBulk, ?_⟩
    rw [List.map_map]
    exact (List.map_congr_left each).trans (List.map_id elements) |>.symm
  · rintro ⟨mb, rfl⟩
    simp

end RedisOutput

namespace Redis2

variable {π : Type}

/-- One round of the loop of `exec`: the element is swapped with the output of the command, which is
then converted if it can be. `set_mbulks` deletes the array that `convert` has emptied. -/
def execRound (element : RedisOutput) (c : RedisCommand) : RedisOutput × RedisCommand :=
  let (element, c) := (c.out, { c with out := element })
  match c.out with
  | .smbulks smbulks =>
    match RedisOutput.convert smbulks with
    | some (mb, _) => (element, { c with out := .mbulks mb })
    | none => (element, c)
  | _ => (element, c)

/-- The loop of `exec`, over the elements of the reply and the queued commands. -/
def execRounds : List RedisOutput → List RedisCommand →
    Except Abort (List RedisOutput × List RedisCommand)
  | [], commands => return ([], commands)
  | _ :: _, [] => .error .outOfBounds
  | element :: smb, c :: commands => do
    let (element, c) := execRound element c
    let (smb, commands) ← execRounds smb commands
    return (element :: smb, c :: commands)

/-- `clear_commands`. -/
def clearCommands (_ : List RedisCommand) : List RedisCommand := []

/-- `exec` with the caller's vector: the result, what is in the vector then, and the client. -/
def execInto [Peer π] (r : Redis2 π) (commands : List RedisCommand) :
    Except Abort (Bool × List RedisCommand × Redis2 π) := do
  let (connected, r) := r.checkConnect
  if !connected then return (false, commands, r)
  else
    let (ok, c, r) ← r.protoExecCommand (.new .exec)
    if !ok then return (false, commands, r)
    else
      match c.out.getSmbulks with
      | some smb =>
        if smb.length = r.transactionCmds.length then
          let (_, transactionCmds) ← execRounds smb r.transactionCmds
          let (commands, transactionCmds) := (transactionCmds, commands)
          return (true, commands, { r with transactionCmds := clearCommands transactionCmds })
        else return (false, commands, r.onReplyTypeError c)
      | none => return (false, commands, r.onReplyTypeError c)

/-- A round leaves the command answered by the element. -/
theorem execRound_eq (element : RedisOutput) (c : RedisCommand) :
    execRound element c = (c.out, answered c element) := by
  cases element with
  | smbulks elements =>
    unfold execRound answered
    cases convertible : RedisOutput.convertible2Mbulks elements with
    | true => simp [RedisOutput.convert, convertible]
    | false => simp [RedisOutput.convert, convertible]
  | _ => rfl

/-- The loop answers every command, in order. -/
theorem execRounds_eq {smb : List RedisOutput} {commands : List RedisCommand}
    (same : smb.length = commands.length) :
    execRounds smb commands =
      .ok (commands.map RedisCommand.out, List.zipWith answered commands smb) := by
  induction smb generalizing commands with
  | nil =>
    have none : commands = [] := List.eq_nil_of_length_eq_zero same.symm
    rw [none]
    rfl
  | cons element smb ih =>
    cases commands with
    | nil => cases same
    | cons c commands =>
      have rest := ih (Nat.succ.inj same)
      rw [execRounds, execRound_eq, rest]
      rfl

/-- With the caller's vector, `exec` puts there what it returns without it, and nothing else. -/
theorem execInto_eq [Peer π] (r : Redis2 π) (commands : List RedisCommand) :
    r.execInto commands = r.exec.map fun (answers, r') =>
      (answers.isSome, answers.getD commands, r') := by
  unfold execInto exec
  cases connects : r.checkConnect with
  | mk connected r₁ =>
    cases connected with
    | false => rfl
    | true =>
      change (r₁.protoExecCommand (.new .exec) >>= _) = (r₁.protoExecCommand (.new .exec) >>= _).map _
      cases r₁.protoExecCommand (.new .exec) with
      | error abort => rfl
      | ok executed =>
        obtain ⟨ok, c, r₂⟩ := executed
        cases ok with
        | false => rfl
        | true =>
          simp only [bind, Except.bind]
          cases c.out.getSmbulks with
          | none => rfl
          | some smb =>
            by_cases same : smb.length = r₂.transactionCmds.length
            · simp only [if_pos same, execRounds_eq same]
              rfl
            · simp only [if_neg same]
              rfl

/-- An answered command is the queued one with the element as its output, presented. -/
theorem answered_presents (c : RedisCommand) (element : RedisOutput) :
    ∃ out, RedisOutput.Presents element out ∧ answered c element = { c with out := out } := by
  by_cases bulks : ∃ mb : List (Option Bytes), element = .smbulks (mb.map RedisOutput.ofBulk)
  · obtain ⟨mb, rfl⟩ := bulks
    have convertible := RedisOutput.convertible2Mbulks_iff.mpr ⟨mb, rfl⟩
    have taken : (mb.map RedisOutput.ofBulk).map RedisOutput.toBulk = mb := by
      rw [List.map_map]
      conv_rhs => rw [← List.map_id mb]
      apply List.map_congr_left
      intro bulk _
      exact RedisOutput.toBulk_ofBulk bulk
    refine ⟨.mbulks mb, .bulks mb, ?_⟩
    rw [answered, if_pos convertible, taken]
  · have unlike : ∀ mb : List (Option Bytes), element ≠ .smbulks (mb.map RedisOutput.ofBulk) :=
      fun mb same => bulks ⟨mb, same⟩
    refine ⟨element, .other unlike, ?_⟩
    cases element with
    | smbulks elements =>
      have inconvertible : RedisOutput.convertible2Mbulks elements ≠ true := by
        intro convertible
        obtain ⟨mb, same⟩ := RedisOutput.convertible2Mbulks_iff.mp convertible
        exact unlike mb (congrArg RedisOutput.smbulks same)
      rw [answered, if_neg inconvertible]
    | _ => rfl

/-- The reply to EXEC that `read_reply` has accepted as an array with these elements. -/
structure ExecAccepts [Peer π] (r : Redis2 π) (elements : List RedisOutput) : Prop where
  /-- The connection is open. -/
  connected : r.checkConnect.1 = true
  /-- EXEC is written, and its reply is an array. -/
  reads : ∃ sent c proto, r.checkConnect.2.proto.writeCommand (.new .exec) = .ok (true, sent) ∧
    sent.2.readReply sent.1 = .ok (true, c, proto) ∧ c.out = .smbulks elements

/-- When the reply to EXEC has as many elements as there are queued commands, `exec` returns true and
the caller has these commands and no others, in their order, each with its element; the queue is
empty. When it has not, `exec` returns false. -/
theorem exec_answers_queue [Peer π] {r : Redis2 π} {elements : List RedisOutput}
    (accepts : r.ExecAccepts elements) :
    (elements.length = r.transactionCmds.length → ∃ answers r',
      (∀ commands, r.execInto commands = .ok (true, answers, r')) ∧ r'.transactionCmds = [] ∧
      answers.length = r.transactionCmds.length ∧
      ∀ (i : Nat) (c : RedisCommand) (element : RedisOutput), r.transactionCmds[i]? = some c →
        elements[i]? = some element → ∃ out, RedisOutput.Presents element out ∧
          answers[i]? = some { c with out := out }) ∧
    (elements.length ≠ r.transactionCmds.length → ∃ r',
      ∀ commands, r.execInto commands = .ok (false, commands, r')) := by
  obtain ⟨connected, ⟨sentCommand, sent⟩, c, proto, writes, reads, out⟩ := accepts
  cases connects : r.checkConnect with
  | mk found r₁ =>
    rw [connects] at connected writes
    have found : found = true := connected
    subst found
    have queue : r₁.transactionCmds = r.transactionCmds :=
      (congrArg (fun checked => checked.2.transactionCmds) connects).symm
    have executes : r₁.protoExecCommand (.new .exec) =
        .ok (true, c, { r₁ with proto := proto }) := by
      have sends : r₁.proto.execCommand (.new .exec) = .ok (true, c, proto) := by
        rw [RedisProtocol.execCommand, writes]
        exact reads
      rw [protoExecCommand, sends]
      rfl
    have elements' : c.out.getSmbulks = some elements := by
      rw [out]
      rfl
    constructor
    · intro same
      have same₁ : elements.length = r₁.transactionCmds.length := by rw [queue, same]
      refine ⟨List.zipWith answered r₁.transactionCmds elements,
        { r₁ with proto := proto, transactionCmds := [] }, fun commands => ?_, rfl, ?_, ?_⟩
      · unfold execInto
        rw [connects]
        simp only [executes, bind, Except.bind, elements', if_pos same₁, execRounds_eq same₁]
        rfl
      · rw [List.length_zipWith, queue, same, Nat.min_self]
      · intro i c element queued answer
        obtain ⟨out, presents, shape⟩ := answered_presents c element
        refine ⟨out, presents, ?_⟩
        rw [List.getElem?_zipWith, queue, queued, answer, ← shape]
    · intro other
      have other₁ : elements.length ≠ r₁.transactionCmds.length := by rwa [queue]
      refine ⟨{ r₁ with proto := proto }.onReplyTypeError c, fun commands => ?_⟩
      unfold execInto
      rw [connects]
      simp only [executes, bind, Except.bind, elements', if_neg other₁]
      rfl

/-- A reply to EXEC for two queued commands, the second answered with a bulk and a nil. -/
def blpopReply : Resp.Reply := valueAnd (.array [.bulk (ascii "k"), .nilBulk])

/-- Such a reply is accepted. -/
theorem queuedBlpop_accepts : (queuedBlpop (encode blpopReply)).ExecAccepts
    [.bulk (ascii "1"), .smbulks [.bulk (ascii "k"), .nilBulk]] := by
  have sends : ((queuedBlpop (encode blpopReply)).checkConnect.2.proto.writeCommand
      (.new .exec)).toOption.map (fun sent => (sent.1, sent.2.2.stream)) =
        some (true, encode blpopReply) := by
    decide +kernel
  have reads : (((queuedBlpop (encode blpopReply)).checkConnect.2.proto.writeCommand
      (.new .exec)).toOption.bind fun sent => (sent.2.2.readReply sent.2.1).toOption).map
        (fun returned => returned.1) = some true := by
    decide +kernel
  obtain ⟨connected, p₁, looks, valid⟩ :=
    checkConnect_valid (queuedBlpop_valid (encode blpopReply))
  obtain ⟨⟨ok, c, sent⟩, writes, seen⟩ := returned_of_view sends
  have ok : ok = true := congrArg Prod.fst seen
  have stream : sent.stream = encode blpopReply := congrArg Prod.snd seen
  subst ok
  rw [writes] at reads
  obtain ⟨⟨ok, answered, proto⟩, returns, ok'⟩ := returned_of_view reads
  have ok' : ok = true := ok'
  subst ok'
  have wellFormed : blpopReply.WellFormed := by
    apply Resp.Reply.WellFormed.array
    intro e member
    rcases List.mem_pair.mp member with rfl | rfl
    · exact .bulk _
    · apply Resp.Reply.WellFormed.array
      intro e member
      rcases List.mem_pair.mp member with rfl | rfl
      · exact .bulk _
      · exact .nilBulk
  have wrote := writes
  rw [looks] at wrote
  obtain ⟨same, validSent, -⟩ := RedisProtocol.writeCommand_sent valid wrote
  subst same
  obtain ⟨out, -⟩ := RedisProtocol.readReply_denotes validSent returns
    (stream.trans (List.append_nil _).symm) (Resp.word_encode wellFormed)
  rw [RedisProtocol.replyType_exec rfl] at out
  refine ⟨by decide +kernel, ⟨_, sent⟩, answered, proto, writes, returns, out⟩

/-- The caller's vector has the GET with its value and the BLPOP with its multi-bulk, and not the
command it had before. -/
theorem exec_answers_queue_blpop : ∃ answers r' value out,
    (queuedBlpop (encode blpopReply)).execInto [.new .ping] = .ok (true, answers, r') ∧
    answers.length = 2 ∧
    RedisOutput.Presents (.bulk (ascii "1")) value ∧
    RedisOutput.Presents (.smbulks [.bulk (ascii "k"), .nilBulk]) out ∧
    answers[0]? = some { queuedGet with out := value } ∧
    answers[1]? = some { blpop with out := out } := by
  obtain ⟨answers, r', executes, -, length, each⟩ :=
    (exec_answers_queue queuedBlpop_accepts).1 rfl
  obtain ⟨value, presents, first⟩ := each 0 _ _ rfl rfl
  obtain ⟨out, presents', second⟩ := each 1 _ _ rfl rfl
  exact ⟨answers, r', value, out, executes _, length, presents, presents', first, second⟩

end Redis2

end LibRedis
