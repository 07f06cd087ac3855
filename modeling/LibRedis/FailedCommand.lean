import LibRedis.RespServer
import LibRedis.StaleErrno

/-!
# What a failed command leaves in its output

`exec_command` returns false at more than a dozen exits of the write, of the argument check and of
the reader. All of them but one put the text of `error_` into the output of the command: a child
read that fails inside an array has written to an output of its own, which is deleted, and the
array is given up without a word. The output is then the one of an earlier execution. Whether that
happens is told from the bytes that are there to be read, with the scans of `ReplyScan`.
-/

namespace LibRedis

open Decimal (ascii)

namespace ReplyScan

variable (decode : Bytes → Option Int)

/-- The stream begins with the header of an array of so many elements. -/
def Heads (stream : Bytes) (count : Int) (rest : Bytes) : Prop :=
  ∃ header, line stream = .takes header rest ∧ header.head? = some 42 ∧
    decode header.tail = some count

/-- The elements of an array, one after the other. -/
def elements (depth : Nat) (count : Int) (rest : Bytes) : Scan UInt8 (List RedisOutput) :=
  Scan.times (reply decode (2 ^ 62) depth .depends) count.toNat rest

/-- The stream begins with an array that is not nil, one of its elements cannot be read (it is an
error, or refused, or cut off), and the elements before it can. -/
def FailsInside (stream : Bytes) : Prop :=
  ∃ count rest, Heads decode stream count rest ∧ count ≠ -1 ∧
    ((∃ left, elements decode stream.length count rest = .stops left) ∨
      elements decode stream.length count rest = .refuses ∨
      elements decode stream.length count rest = .starves)

end ReplyScan

namespace RedisProtocol

variable {π : Type}

/-- A read that has returned false has put the text of `error_` into the output. -/
def Shown (returned : Bool × RedisOutput × RedisProtocol π) : Prop :=
  returned.1 = false → returned.2.1 = .error returned.2.2.error

/-- A failing exit that leaves its text in `error_` shows it. -/
theorem refused_shown (p : RedisProtocol π) : Shown p.refused := fun _ => rfl

/-- A reply that is accepted has nothing to show. -/
theorem accepted_shown (out : RedisOutput) (p : RedisProtocol π) : Shown (true, out, p) :=
  fun failed => Bool.noConfusion failed

/-- The exits of the integer case. -/
theorem readInteger_shown {p : RedisProtocol π} {buf : Bytes}
    {returned : Bool × RedisOutput × RedisProtocol π} (returns : p.readInteger buf = .ok returned) :
    Shown returned := by
  obtain ⟨⟨number, p₁⟩, -, ends⟩ := bind_returns returns
  cases number with
  | none =>
    have same := Except.ok.inj ends
    rw [← same]
    apply refused_shown
  | some i =>
    have same := Except.ok.inj ends
    rw [← same]
    apply accepted_shown

/-- The exits of the bulk case. -/
theorem readBulkReply_shown {p : RedisProtocol π} {buf : Bytes}
    {returned : Bool × RedisOutput × RedisProtocol π}
    (returns : p.readBulkReply buf = .ok returned) : Shown returned := by
  obtain ⟨⟨bulk, p₁⟩, -, ends⟩ := bind_returns returns
  rcases bulk with _ | _ | bulk
  · have same := Except.ok.inj ends
    rw [← same]
    apply refused_shown
  · have same := Except.ok.inj ends
    rw [← same]
    apply accepted_shown
  · have same := Except.ok.inj ends
    rw [← same]
    apply accepted_shown

/-- The exits of the multi-bulk case. -/
theorem readMultiBulkReply_shown {p : RedisProtocol π} {buf : Bytes}
    {returned : Bool × RedisOutput × RedisProtocol π}
    (returns : p.readMultiBulkReply buf = .ok returned) : Shown returned := by
  obtain ⟨⟨bulks, p₁⟩, -, ends⟩ := bind_returns returns
  rcases bulks with _ | _ | bulks
  · have same := Except.ok.inj ends
    rw [← same]
    apply refused_shown
  · have same := Except.ok.inj ends
    rw [← same]
    apply accepted_shown
  · have same := Except.ok.inj ends
    rw [← same]
    apply accepted_shown

section Arrays

variable
  {child : RedisOutput → RedisProtocol π → Except Abort (Bool × RedisOutput × RedisProtocol π)}

/-- One of so many elements is not accepted: those before it are read, and its own read returns
false. -/
def ElementFails
    (child : RedisOutput → RedisProtocol π → Except Abort (Bool × RedisOutput × RedisProtocol π))
    (count : Nat) (p failed : RedisProtocol π) : Prop :=
  ∃ before < count, ∃ outputs left output,
    readChildren child before p = .ok (some outputs, left) ∧
    child .none left = .ok (false, output, failed)

/-- The loop over the elements reads the first of them and goes on. -/
theorem readChildren_succ {count : Nat} {p left : RedisProtocol π} {output : RedisOutput}
    (reads : child .none p = .ok (true, output, left)) :
    readChildren child (count + 1) p =
      (readChildren child count left).map fun (outputs, p) => (outputs.map (output :: ·), p) := by
  rw [readChildren, reads]
  change (readChildren child count left >>= _) = _
  cases readChildren child count left with
  | error abort => rfl
  | ok found => rfl

/-- The loop over the elements gives up at a first one that is not accepted. -/
theorem readChildren_refused {count : Nat} {p failed : RedisProtocol π} {output : RedisOutput}
    (reads : child .none p = .ok (false, output, failed)) :
    readChildren child (count + 1) p = .ok (none, failed) := by
  rw [readChildren, reads]
  rfl

/-- The loop over the elements gives up exactly where one of them is not accepted. -/
theorem readChildren_fails {count : Nat} {p failed : RedisProtocol π} :
    readChildren child count p = .ok (none, failed) ↔ ElementFails child count p failed := by
  constructor
  · intro returns
    induction count generalizing p with
    | zero =>
      have wrong := Except.ok.inj returns
      cases wrong
    | succ count ih =>
      have first := returns
      rw [readChildren] at first
      obtain ⟨⟨ok, output, left⟩, reads, rest⟩ := bind_returns first
      cases ok with
      | false =>
        have same : left = failed := congrArg Prod.snd (Except.ok.inj rest)
        rw [← same]
        exact ⟨0, by omega, [], p, output, rfl, reads⟩
      | true =>
        rw [readChildren_succ reads] at returns
        obtain ⟨⟨outputs, q⟩, inner, same⟩ := map_returns returns
        have none : outputs = none := Option.map_eq_none_iff.mp (congrArg Prod.fst same)
        have kept : q = failed := congrArg Prod.snd same
        subst none kept
        obtain ⟨before, below, read, last, refused, reached, fails⟩ := ih inner
        refine ⟨before + 1, by omega, output :: read, last, refused, ?_, fails⟩
        rw [readChildren_succ reads, reached]
        rfl
  · rintro ⟨before, below, outputs, last, refused, reached, fails⟩
    induction before generalizing count p outputs with
    | zero =>
      have same : p = last := congrArg Prod.snd (Except.ok.inj reached)
      rw [← same] at fails
      obtain ⟨rest, rfl⟩ := Nat.exists_eq_succ_of_ne_zero (show count ≠ 0 by omega)
      apply readChildren_refused fails
    | succ before ih =>
      have first := reached
      rw [readChildren] at first
      obtain ⟨⟨ok, output, left⟩, reads, rest⟩ := bind_returns first
      cases ok with
      | false =>
        have wrong := congrArg Prod.fst (Except.ok.inj rest)
        cases wrong
      | true =>
        obtain ⟨fewer, rfl⟩ := Nat.exists_eq_succ_of_ne_zero (show count ≠ 0 by omega)
        rw [readChildren_succ reads] at reached ⊢
        obtain ⟨⟨read, q⟩, inner, same⟩ := map_returns reached
        have kept : q = last := congrArg Prod.snd same
        obtain ⟨values, read_eq, -⟩ := Option.map_eq_some_iff.mp (congrArg Prod.fst same)
        subst kept read_eq
        rw [ih (by omega) values inner]
        rfl

/-- The exits of the array case: the failure is shown, or the output is as it was because an
element was not accepted. -/
theorem readSpecialMultiBulk_shown {ends : Bool} {output : RedisOutput} {p : RedisProtocol π}
    {buf : Bytes} {returned : Bool × RedisOutput × RedisProtocol π}
    (returns : readSpecialMultiBulk child ends output p buf = .ok returned) :
    Shown returned ∨ ∃ count counted, p.parseInteger buf = .ok (some count, counted) ∧ count ≠ -1 ∧
      ElementFails child count.toNat counted returned.2.2 := by
  obtain ⟨⟨number, counted⟩, parses, rest⟩ := bind_returns returns
  cases number with
  | none =>
    have same := Except.ok.inj rest
    rw [← same]
    exact Or.inl (refused_shown _)
  | some count =>
    by_cases nil : count = -1
    · simp only [if_pos nil] at rest
      have same := Except.ok.inj rest
      rw [← same]
      exact Or.inl (accepted_shown _ _)
    · simp only [if_neg nil] at rest
      obtain ⟨⟨elements, left⟩, reads, last⟩ := bind_returns rest
      cases elements with
      | none =>
        have same := Except.ok.inj last
        have kept : left = returned.2.2 := congrArg (·.2.2) same
        rw [kept] at reads
        exact Or.inr ⟨count, counted, parses, nil, readChildren_fails.mp reads⟩
      | some elements =>
        have same := Except.ok.inj last
        rw [← same]
        exact Or.inl (accepted_shown _ _)

/-- Where an element is not accepted, the array leaves the output as it was. -/
theorem readSpecialMultiBulk_stale {ends : Bool} {output : RedisOutput}
    {p counted failed : RedisProtocol π} {buf : Bytes} {count : Int}
    (parses : p.parseInteger buf = .ok (some count, counted)) (notNil : count ≠ -1)
    (fails : ElementFails child count.toNat counted failed) :
    readSpecialMultiBulk child ends output p buf = .ok (false, output, failed) := by
  have reads := readChildren_fails.mpr fails
  rw [readSpecialMultiBulk, parses]
  simp only [bind, Except.bind, if_neg notNil, reads]
  rfl

/-- A type check before a case: its exit shows the failure. -/
theorem typeCheck_shown {p : RedisProtocol π} {mark : String} {wrong : Bool}
    {call : Except Abort (Bool × RedisOutput × RedisProtocol π)}
    {returned : Bool × RedisOutput × RedisProtocol π}
    (returns : (if wrong then .ok (p.typeError mark) else call) = .ok returned)
    (reads : call = .ok returned → Shown returned) : Shown returned := by
  cases wrong with
  | true =>
    have same : p.typeError mark = returned := Except.ok.inj returns
    rw [← same]
    apply refused_shown
  | false => exact reads returns

/-- The exits of the switch: the failure is shown, or the line announces an array that is read
element by element and one of its elements is not accepted. -/
theorem readReplyLine_shown {command : Command} {isCommandOut check : Bool} {exp type : ReplyType}
    (holds : Holds check exp type) {output : RedisOutput} {p : RedisProtocol π} {buf : Bytes}
    {returned : Bool × RedisOutput × RedisProtocol π}
    (returns : readReplyLine child command isCommandOut check exp output p buf = .ok returned) :
    Shown returned ∨ buf.head? = some 42 ∧ (type = .specialMultiBulk ∨ type = .depends) ∧
      ∃ count counted, p.parseInteger buf = .ok (some count, counted) ∧ count ≠ -1 ∧
        ElementFails child count.toNat counted returned.2.2 := by
  cases buf with
  | nil => cases returns
  | cons marker text =>
    rw [readReplyLine_eq] at returns
    by_cases error : marker = 45
    · rw [if_pos error] at returns
      have same := Except.ok.inj returns
      rw [← same]
      exact Or.inl (refused_shown _)
    rw [if_neg error] at returns
    by_cases status : marker = 43
    · rw [if_pos status] at returns
      refine Or.inl (typeCheck_shown returns fun reads => ?_)
      have same := Except.ok.inj reads
      rw [← same]
      apply accepted_shown
    rw [if_neg status] at returns
    by_cases integer : marker = 58
    · rw [if_pos integer] at returns
      exact Or.inl (typeCheck_shown returns readInteger_shown)
    rw [if_neg integer] at returns
    by_cases bulk : marker = 36
    · rw [if_pos bulk] at returns
      exact Or.inl (typeCheck_shown returns readBulkReply_shown)
    rw [if_neg bulk] at returns
    by_cases array : marker = 42
    · rw [if_pos array] at returns
      by_cases wrong : (check && exp != .multiBulk && exp != .specialMultiBulk) = true
      · rw [if_pos wrong] at returns
        have same := Except.ok.inj returns
        rw [← same]
        exact Or.inl (refused_shown _)
      rw [if_neg wrong] at returns
      by_cases bulks : exp = .multiBulk
      · rw [if_pos bulks] at returns
        exact Or.inl (readMultiBulkReply_shown returns)
      rw [if_neg bulks] at returns
      have elementwise : type = .specialMultiBulk ∨ type = .depends := by
        rcases holds with ⟨checks, same, -⟩ | ⟨-, untyped, -⟩
        · have special : exp = .specialMultiBulk := by simpa [checks, bulks] using wrong
          rw [same, special]
          exact Or.inl rfl
        · exact Or.inr untyped
      have head : (marker :: text).head? = some 42 := congrArg some array
      exact (readSpecialMultiBulk_shown returns).imp_right fun fails => ⟨head, elementwise, fails⟩
    rw [if_neg array] at returns
    have same := Except.ok.inj returns
    rw [← same]
    exact Or.inl (refused_shown _)

/-- An array that is read element by element reaches its case. -/
theorem readReplyLine_array {command : Command} {isCommandOut check : Bool} {exp type : ReplyType}
    (holds : Holds check exp type) (elementwise : type = .specialMultiBulk ∨ type = .depends)
    (output : RedisOutput) (p : RedisProtocol π) {buf : Bytes} (array : buf.head? = some 42) :
    readReplyLine child command isCommandOut check exp output p buf =
      readSpecialMultiBulk child (command == .exec && isCommandOut) output p buf := by
  cases buf with
  | nil => cases array
  | cons marker text =>
    have same : marker = 42 := Option.some.inj array
    subst same
    rw [readReplyLine_eq, if_neg (by decide), if_neg (by decide), if_neg (by decide),
      if_neg (by decide), if_pos rfl]
    rcases holds with ⟨checks, same, typed⟩ | ⟨checks, -, other⟩
    · have special : exp = .specialMultiBulk := by
        rw [← same]
        exact elementwise.resolve_right typed
      subst special
      rw [if_neg (by simp), if_neg (by decide)]
    · rw [if_neg (by simp [checks]), if_neg other]

end Arrays

/-- Reading the elements of an array of a reply to the command: the child read of `__read_reply`. -/
def readElement (p : RedisProtocol π) (command : Command) :
    RedisOutput → RedisProtocol π → Except Abort (Bool × RedisOutput × RedisProtocol π) :=
  readReplyInner command (p.tcpClient.buffer.readSize + p.tcpClient.os.incoming.length) false

/-- The reply on its way is an array that is read element by element, and one of the elements it
announces is not accepted. -/
structure ElementRefused (p : RedisProtocol π) (c : RedisCommand) (failed : RedisProtocol π) :
    Prop where
  /-- Replies to the command are read element by element. -/
  elementwise : p.replyType c = .specialMultiBulk ∨ p.replyType c = .depends
  /-- A header announces an array that is not nil, and an element of it fails. -/
  fails : ∃ header behind count counted, p.readLine = .ok (true, header, behind) ∧
    header.head? = some 42 ∧ behind.parseInteger header = .ok (some count, counted) ∧
    count ≠ -1 ∧ ElementFails (p.readElement c.command) count.toNat counted failed

/-- `read_reply` shows its failure, or an element of an array was not accepted. -/
theorem readReply_shown {p p' : RedisProtocol π} {c c' : RedisCommand}
    (returns : p.readReply c = .ok (false, c', p')) :
    c'.out = .error p'.error ∨ p.ElementRefused c p' := by
  rw [readReply, readReplyInner] at returns
  obtain ⟨⟨ok, out, q⟩, inner, same⟩ := bind_returns returns
  obtain ⟨rfl, rest⟩ := Prod.mk.inj (Except.ok.inj same)
  obtain ⟨rfl, rfl⟩ := Prod.mk.inj rest
  obtain ⟨⟨received, header, behind⟩, line, reads⟩ := bind_returns inner
  cases received with
  | false =>
    have same := Except.ok.inj reads
    have shown := refused_shown behind
    rw [show behind.refused = (false, out, q) from same] at shown
    exact Or.inl (shown rfl)
  | true =>
    have holds : Holds _ _ (typeRead true p.transactionMode c.command) :=
      (holds_typeRead true p.transactionMode fun wrong => Bool.noConfusion wrong).1
    rcases readReplyLine_shown holds reads with shown | ⟨array, elementwise, found⟩
    · exact Or.inl (shown rfl)
    · obtain ⟨count, counted, parses, notNil, fails⟩ := found
      exact Or.inr ⟨elementwise, header, behind, count, counted, line, array, parses, notNil, fails⟩

/-- Where an element is not accepted, `read_reply` leaves the output as it was. -/
theorem ElementRefused.stale {p failed : RedisProtocol π} {c : RedisCommand}
    (refused : p.ElementRefused c failed) : p.readReply c = .ok (false, c, failed) := by
  obtain ⟨elementwise, header, behind, count, counted, line, array, parses, notNil, fails⟩ :=
    refused
  have holds : Holds _ _ (typeRead true p.transactionMode c.command) :=
    (holds_typeRead true p.transactionMode fun wrong => Bool.noConfusion wrong).1
  have reads : readReplyLine (p.readElement c.command) c.command true _ _ c.out behind
      header = readSpecialMultiBulk (p.readElement c.command) _ c.out behind header :=
    readReplyLine_array holds elementwise c.out behind array
  rw [readSpecialMultiBulk_stale parses notNil fails] at reads
  have inner : readReplyInner c.command
      (p.tcpClient.buffer.readSize + p.tcpClient.os.incoming.length + 1) true c.out p =
        .ok (false, c.out, failed) := by
    rw [readReplyInner, line]
    exact reads
  rw [readReply, inner]
  rfl

/-- Replies to the command are read element by element. -/
def Elementwise (p : RedisProtocol π) (c : RedisCommand) : Prop :=
  p.replyType c = .specialMultiBulk ∨ p.replyType c = .depends

/-- The loop over the elements of a reply follows the scan of so many elements. -/
theorem readElements_follows {p q : RedisProtocol π} (valid : p.Valid) {c : RedisCommand}
    (elementwise : p.Elementwise c) {limit : Nat} (validq : q.Valid) (fits : q.Fits limit)
    (decodes : q.decode = p.decode) (shorter : q.stream.length < p.stream.length) (count : Nat) :
    Follows limit q
      (Scan.times (ReplyScan.reply p.decode limit p.stream.length .depends) count q.stream)
      ((readChildren (p.readElement c.command) count q).map id) := by
  have length : p.tcpClient.buffer.readSize + p.tcpClient.os.incoming.length = p.stream.length := by
    rw [stream, TcpClient.stream, List.length_append, valid.buffer.length_unread]
  have elements : ReadsElements c.command :=
    (holds_typeRead true p.transactionMode fun wrong => Bool.noConfusion wrong).2.2 elementwise
  rw [readElement, length]
  refine readChildren_follows ?_ count validq fits decodes shorter
  intro p' valid' fits' decodes' below output
  have inner := readReplyInner_follows c.command p.stream.length false (fun _ => elements) output
    valid' fits' below
  rw [decodes'] at inner
  exact inner

/-- Where all the bytes arrive and the reader is not kept waiting, an element is refused exactly if
the stream fails inside an array. -/
theorem elementRefused_iff {p : RedisProtocol π} (valid : p.Valid) (roomy : p.Roomy)
    (prompt : p.Prompt) (arrives : p.Arrives) (c : RedisCommand) :
    (∃ failed, p.ElementRefused c failed) ↔
      p.Elementwise c ∧ ReplyScan.FailsInside p.decode p.stream := by
  constructor
  · rintro ⟨failed, elementwise, header, behind, count, counted, line, array, parses, notNil, fails⟩
    obtain ⟨keeps, takes⟩ := readLine_takes valid line
    have filled : header ≠ [] := (ReplyScan.line_eq_takes.mp takes).2
    have shorter := ReplyScan.line_shorter takes
    obtain ⟨errno, parsed, kept⟩ := behind.parseInteger_decode filled
    obtain ⟨decoded, same⟩ := Prod.mk.inj (Except.ok.inj (parsed.symm.trans parses))
    have same : behind = counted := by
      rw [← same, kept (by rw [decoded]; exact nofun)]
    subst same
    rw [keeps.goes.decode] at decoded
    have follows := readElements_follows valid elementwise keeps.goes.reads.valid
      (keeps.fits (Or.inr ⟨rfl, roomy⟩)) keeps.goes.decode (by omega) count.toNat
    rw [readChildren_fails.mpr fails] at follows
    refine ⟨elementwise, count, behind.stream, ⟨header, takes, array, decoded⟩, notNil, ?_⟩
    rw [ReplyScan.elements]
    change Follows (2 ^ 62) behind _ (.ok (none, failed)) at follows
    generalize Scan.times _ count.toNat behind.stream = scan at follows ⊢
    cases follows with
    | closes _ reason => exact Or.inr (reason rfl (keeps.awaits.arrives arrives))
    | stops => exact Or.inl ⟨_, rfl⟩
  · rintro ⟨elementwise, count, rest, ⟨header, takes, array, decoded⟩, notNil, fails⟩
    obtain ⟨behind, line, keeps, left⟩ := readLine_of_takes valid roomy arrives takes
    have filled : header ≠ [] := (ReplyScan.line_eq_takes.mp takes).2
    have shorter := ReplyScan.line_shorter takes
    obtain ⟨errno, parsed, kept⟩ := behind.parseInteger_decode filled
    rw [keeps.goes.decode, decoded] at parsed kept
    have parses : behind.parseInteger header = .ok (some count, behind) := by
      rw [parsed, kept nofun]
    have follows := readElements_follows valid elementwise keeps.goes.reads.valid
      (keeps.fits (Or.inr ⟨rfl, roomy⟩)) keeps.goes.decode (by rw [left]; omega) count.toNat
    rw [left] at follows
    rw [ReplyScan.elements] at fails
    have refused : ∃ failed,
        readChildren (p.readElement c.command) count.toNat behind = .ok (none, failed) := by
      generalize Scan.times _ count.toNat rest = scan at follows fails
      generalize seen : (readChildren (p.readElement c.command) count.toNat behind).map id = result
        at follows
      cases follows with
      | aborts reason =>
        have stalls := reason rfl (keeps.prompt prompt)
        rw [stalls] at fails
        rcases fails with ⟨left, wrong⟩ | wrong | wrong
        · cases wrong
        · cases wrong
        · cases wrong
      | @closes _ failed =>
        obtain ⟨returned, reads, rfl⟩ := map_returns seen
        exact ⟨failed, reads⟩
      | takes =>
        rcases fails with ⟨left, wrong⟩ | wrong | wrong
        · cases wrong
        · cases wrong
        · cases wrong
      | @stops failed =>
        obtain ⟨returned, reads, same⟩ := map_returns seen
        rw [show returned = (none, failed) from same] at reads
        exact ⟨failed, reads⟩
    obtain ⟨failed, reads⟩ := refused
    exact ⟨failed, elementwise, header, behind, count, behind, line, array, parses, notNil,
      readChildren_fails.mp reads⟩

/-- The failure of a command shows: whatever its output was before, a call of `exec_command` that
returns false leaves the text of `error_` there. -/
def ShowsError [Peer π] (p : RedisProtocol π) (c : RedisCommand) : Prop :=
  ∀ out c' p', p.execCommand { c with out := out } = .ok (false, c', p') →
    c'.out = .error p'.error

/-- The object with the answer to the command on its way. -/
def behind [Peer π] (p : RedisProtocol π) (c : RedisCommand) : RedisProtocol π :=
  { p with tcpClient := { p.tcpClient with os := { p.tcpClient.os with
    incoming := p.tcpClient.os.incoming ++ (Peer.receive p.tcpClient.os.peer (commandText c)).1 } } }

/-- The command is sent, and the bytes to be read begin with an array of at least one element that is
read element by element. The number is the one that the header has under a clean `errno`. -/
def ReachesElements [Peer π] (p : RedisProtocol π) (c : RedisCommand) : Prop :=
  Passes c ∧ p.Elementwise c ∧
    ∃ count rest, ReplyScan.Heads (p.atErrno 0).decode (p.behind c).stream count rest ∧ 1 ≤ count

/-- The command is sent, and the bytes to be read fail inside an array that is read element by
element. -/
def FailsInside [Peer π] (p : RedisProtocol π) (c : RedisCommand) : Prop :=
  Passes c ∧ p.Elementwise c ∧ ReplyScan.FailsInside p.decode (p.behind c).stream

/-- A request that fails to be sent shows its failure. -/
theorem sendRequest_shown [Peer π] {p p' : RedisProtocol π} {c c' : RedisCommand} {request : Bytes}
    (returns : p.sendRequest c request = .ok (false, c', p')) : c'.out = .error p'.error := by
  obtain ⟨⟨ec, client⟩, -, rest⟩ := bind_returns returns
  by_cases failed : ec ≠ 0
  · simp only [if_pos failed] at rest
    have same := Except.ok.inj rest
    obtain ⟨-, same⟩ := Prod.mk.inj same
    obtain ⟨rfl, rfl⟩ := Prod.mk.inj same
    rfl
  · simp only [if_neg failed] at rest
    have wrong := congrArg Prod.fst (Except.ok.inj rest)
    cases wrong

/-- Sending does not look at the output, and keeps it. -/
theorem sendRequest_kept [Peer π] {p sent : RedisProtocol π} {c c' : RedisCommand}
    {request : Bytes} (returns : p.sendRequest c request = .ok (true, c', sent))
    (out : RedisOutput) :
    p.sendRequest { c with out := out } request = .ok (true, { c with out := out }, sent) := by
  unfold sendRequest at returns ⊢
  obtain ⟨⟨ec, client⟩, writes, rest⟩ := bind_returns returns
  by_cases failed : ec ≠ 0
  · simp only [if_pos failed] at rest
    have wrong := congrArg Prod.fst (Except.ok.inj rest)
    cases wrong
  · simp only [if_neg failed] at rest
    have same : { p with tcpClient := client } = sent := congrArg (·.2.2) (Except.ok.inj rest)
    rw [writes, ← same]
    simp only [bind, Except.bind, if_neg failed]
    rfl

/-- A command that is not sent shows the failure, of the argument check or of the write. -/
theorem writeCommand_shown [Peer π] {p p' : RedisProtocol π} {c c' : RedisCommand}
    (returns : p.writeCommand c = .ok (false, c', p')) : c'.out = .error p'.error := by
  by_cases passes : Passes c
  · rw [passes.writeCommand] at returns
    apply sendRequest_shown returns
  · obtain ⟨text, refused⟩ := writeCommand_refused passes p
    rw [refused] at returns
    obtain ⟨-, same⟩ := Prod.mk.inj (Except.ok.inj returns)
    obtain ⟨rfl, rfl⟩ := Prod.mk.inj same
    rfl

/-- Writing a command does not look at its output, and keeps it. -/
theorem writeCommand_kept [Peer π] {p sent : RedisProtocol π} {c c' : RedisCommand}
    (returns : p.writeCommand c = .ok (true, c', sent)) (out : RedisOutput) :
    p.writeCommand { c with out := out } = .ok (true, { c with out := out }, sent) := by
  by_cases passes : Passes c
  · have again : Passes { c with out := out } := passes
    rw [again.writeCommand]
    rw [passes.writeCommand] at returns
    apply sendRequest_kept returns
  · obtain ⟨text, refused⟩ := writeCommand_refused passes p
    rw [refused] at returns
    cases returns

/-- What decodes to a number decodes to it under a clean `errno`. -/
theorem decode_clean {p q : RedisProtocol π}
    (platform : q.tcpClient.os.platform = p.tcpClient.os.platform) {text : Bytes} {i : Int}
    (decoded : q.decode text = some i) : (p.atErrno 0).decode text = some i := by
  obtain ⟨value, error, reported, outcome⟩ := Os.strtol_outcome p.tcpClient.os.platform text
  rw [decode, outcome _ platform] at decoded
  rw [decode, outcome (p.atErrno 0).tcpClient.os rfl]
  cases error with
  | none =>
    split at decoded
    · cases decoded
    · exact decoded
  | some errno =>
    have wrong : none = some i := (if_pos (reported errno rfl)).symm.trans decoded
    cases wrong

/-- The text of a command is not empty. -/
theorem commandText_ne_nil (c : RedisCommand) : commandText c ≠ [] := by
  intro empty
  simp only [commandText, List.append_eq_nil_iff] at empty
  exact absurd empty.1.1.1.1 (by decide)

/-- A failed command has shown its failure, or it was sent and an element of the reply was not
accepted. -/
theorem execCommand_shown [Peer π] {p p' : RedisProtocol π} (valid : p.Valid) {c c' : RedisCommand}
    (small : (commandText c).length < 2 ^ 31) (returns : p.execCommand c = .ok (false, c', p')) :
    c'.out = .error p'.error ∨ Passes c ∧ ∃ client, p.tcpClient.Writes (commandText c) client ∧
      (p.tcpClient.os.Accepts → client.os.errno = p.tcpClient.os.errno) ∧
      ({ p with tcpClient := client } : RedisProtocol π).ElementRefused c p' := by
  obtain ⟨⟨ok, c₁, sent⟩, writes, reads⟩ := bind_returns returns
  cases ok with
  | false =>
    obtain ⟨-, same⟩ := Prod.mk.inj (Except.ok.inj reads)
    obtain ⟨rfl, rfl⟩ := Prod.mk.inj same
    exact Or.inl (writeCommand_shown writes)
  | true =>
    obtain ⟨rfl, -, -⟩ := writeCommand_sent valid writes
    refine (readReply_shown reads).imp_right fun refused => ?_
    by_cases passes : Passes c₁
    · rw [passes.writeCommand] at writes
      rcases sendRequest_cases valid c₁ (commandText_ne_nil c₁) small with
        ⟨hangs, -⟩ | ⟨ok, c₂, lost, same, loses, -, -⟩ | ⟨client, same, sends, quiet⟩
      · cases hangs.symm.trans writes
      · -- nothing is there to be read
        cases same.symm.trans writes
        obtain ⟨header, behind, count, counted, line, -⟩ := refused.fails
        have takes := (readLine_takes loses.valid line).2
        have nothing : sent.stream = [] := loses.valid.closed loses.fd
        rw [nothing] at takes
        cases takes
      · cases same.symm.trans writes
        exact ⟨passes, client, sends, quiet, refused⟩
    · obtain ⟨text, refused⟩ := writeCommand_refused passes p
      cases refused.symm.trans writes

/-- Behind a request that was written whole the bytes to be read are those of the answer, too. -/
theorem behind_stream [Peer π] {p : RedisProtocol π} {c : RedisCommand} {client : TcpClient π}
    (sends : p.tcpClient.Writes (commandText c) client) :
    ({ p with tcpClient := client } : RedisProtocol π).stream = (p.behind c).stream := by
  rw [stream, sends.frame]
  rfl

/-- Where an element behind the request is not accepted, the bytes to be read begin with an array that
has one. -/
theorem ElementRefused.reaches [Peer π] {p p' : RedisProtocol π} {c : RedisCommand}
    {client : TcpClient π} {out : RedisOutput} (passes : Passes c)
    (sends : p.tcpClient.Writes (commandText c) client)
    (refused : ({ p with tcpClient := client } : RedisProtocol π).ElementRefused
      { c with out := out } p') : p.ReachesElements c := by
  obtain ⟨elementwise, header, behind, count, counted, line, array, parses, notNil, fails⟩ := refused
  obtain ⟨keeps, takes⟩ := readLine_takes sends.valid line
  have filled : header ≠ [] := (ReplyScan.line_eq_takes.mp takes).2
  obtain ⟨errno, parsed, -⟩ := behind.parseInteger_decode filled
  have decoded := congrArg Prod.fst (Except.ok.inj (parsed.symm.trans parses))
  have platform : behind.tcpClient.os.platform = p.tcpClient.os.platform := by
    rw [keeps.goes.reads.client.frame]
    change client.os.platform = _
    rw [sends.frame]
  rw [behind_stream sends] at takes
  obtain ⟨before, below, -⟩ := fails
  exact ⟨passes, elementwise, count, behind.stream,
    ⟨header, takes, array, decode_clean platform decoded⟩, by omega⟩

/-- Where all the bytes behind the request arrive, an element is not accepted exactly if they fail
inside an array. The object behind the request reads the same bytes, under the same `errno`. -/
theorem elementRefused_sent [Peer π] {p : RedisProtocol π} (valid : p.Valid) {c : RedisCommand}
    {client : TcpClient π} (sends : p.tcpClient.Writes (commandText c) client)
    (quiet : client.os.errno = p.tcpClient.os.errno) (allocated : (p.behind c).Allocated)
    (prompt : (p.behind c).Prompt) (arrives : (p.behind c).Arrives)
    (short : (p.behind c).stream.length < 2 ^ 60) :
    (∃ failed, ({ p with tcpClient := client } : RedisProtocol π).ElementRefused c failed) ↔
      p.Elementwise c ∧ ReplyScan.FailsInside p.decode (p.behind c).stream := by
  let sent : RedisProtocol π := { p with tcpClient := client }
  have stream : sent.stream = (p.behind c).stream := behind_stream sends
  have roomy : sent.Roomy := by
    refine ⟨?_, by rw [stream]; exact short⟩
    change client.buffer.totalSize ≤ 2 ^ 61
    rw [sends.frame]
    exact valid.buffer.half allocated
  have prompt' : sent.Prompt := by
    refine prompt.imp_right fun ⟨alive, finishes⟩ => ?_
    change 0 ≤ client.fd ∧ client.os.Finishes
    rw [sends.frame]
    exact ⟨alive, finishes⟩
  have arrives' : sent.Arrives := by
    change client.os.Arrives
    rw [sends.frame]
    exact arrives
  have decodes : sent.decode = p.decode := by
    have platform : client.os.platform = p.tcpClient.os.platform := by rw [sends.frame]
    funext text
    obtain ⟨value, error, -, outcome⟩ := Os.strtol_outcome p.tcpClient.os.platform text
    rw [decode, decode, outcome _ rfl, outcome client.os platform, quiet]
  have found := elementRefused_iff (p := sent) sends.valid roomy prompt' arrives' c
  rw [stream, decodes] at found
  exact found

/-- A failed command shows its failure, whatever its output was before and whatever the network does,
if the bytes to be read do not begin with an array of at least one element that is read element by
element. Where the request is sent and all the bytes arrive, it does so exactly if they do not fail
inside such an array. -/
theorem showsError_iff [Peer π] {p : RedisProtocol π} (valid : p.Valid) {c : RedisCommand}
    (small : (commandText c).length < 2 ^ 31) :
    (¬ p.ReachesElements c → p.ShowsError c) ∧
    (p.CanSend → (p.behind c).Allocated → (p.behind c).Prompt → (p.behind c).Arrives →
      (p.behind c).stream.length < 2 ^ 60 → (p.ShowsError c ↔ ¬ p.FailsInside c)) := by
  constructor
  · intro none out c' p' returns
    refine (execCommand_shown (c := { c with out := out }) valid small returns).resolve_right ?_
    rintro ⟨passes, client, sends, -, refused⟩
    exact none (refused.reaches passes sends)
  · intro canSend allocated prompt arrives short
    constructor
    · rintro shows ⟨passes, inside⟩
      rcases sendRequest_cases valid c (commandText_ne_nil c) small with
        ⟨-, reason⟩ | ⟨ok, c', lost, -, -, -, reason⟩ | ⟨client, same, sends, quiet⟩
      · exact absurd canSend reason
      · exact absurd canSend reason
      · obtain ⟨failed, refused⟩ := (elementRefused_sent valid sends (quiet canSend.2) allocated
          prompt arrives short).mpr inside
        have stale : ({ p with tcpClient := client } : RedisProtocol π).ElementRefused
            { c with out := .none } failed := ⟨refused.elementwise, refused.fails⟩
        rw [← passes.writeCommand] at same
        have returns : p.execCommand { c with out := .none } =
            .ok (false, { c with out := .none }, failed) := by
          rw [execCommand, writeCommand_kept same .none]
          exact stale.stale
        have wrong : RedisOutput.none = .error failed.error := shows .none _ failed returns
        cases wrong
    · intro never out c' p' returns
      refine (execCommand_shown (c := { c with out := out }) valid small returns).resolve_right ?_
      rintro ⟨passes, client, sends, quiet, refused⟩
      exact never ⟨passes, (elementRefused_sent valid sends (quiet canSend.2) allocated prompt
        arrives short).mp ⟨p', refused.elementwise, refused.fails⟩⟩

/-- EXEC with the results of an earlier transaction in its output. -/
def execAgain : RedisCommand :=
  { RedisCommand.new .exec with out := .smbulks [.bulk (ascii "old")] }

/-- A client in a transaction of one command that fails on the server. -/
def failedInside : RedisProtocol ScriptedPeer :=
  { greeted (ascii "*1\r\n-ERR wrong kind\r\n") [] with transactionMode := true }

/-- A GET that is answered by an error shows it, and an EXEC that is answered by an array with an
error inside does not. -/
theorem showsError_iff_get : (greeted (ascii "-ERR wrong kind\r\n") []).ShowsError
    ⟨.get, [ascii "k"], .none⟩ ∧ ¬ failedInside.ShowsError execAgain := by
  constructor
  · refine (showsError_iff (greeted_valid _ _).1 (by decide +kernel)).1 ?_
    rintro ⟨-, -, count, rest, ⟨header, takes, array, -⟩, -⟩
    have line : ReplyScan.line (ascii "-ERR wrong kind\r\n") =
        .takes (ascii "-ERR wrong kind") [] := by
      apply ReplyScan.line_eq_takes.mpr
      exact ⟨(Delimited.split_eq_some _ _ _).mp (by decide +kernel), by decide⟩
    cases line.symm.trans takes
    revert array
    decide
  · have valid : failedInside.Valid := by
      have start := (greeted_valid (ascii "*1\r\n-ERR wrong kind\r\n") []).1
      exact ⟨start.buffer, start.fd, start.closed⟩
    have inside : failedInside.FailsInside execAgain := by
      refine ⟨by unfold Passes; decide, Or.inl (by decide), 1, ascii "-ERR wrong kind\r\n",
        ⟨ascii "*1", ?_, by decide, by decide +kernel⟩, by decide, Or.inl ⟨[], ?_⟩⟩
      · apply ReplyScan.line_eq_takes.mpr
        exact ⟨(Delimited.split_eq_some _ _ _).mp (by decide +kernel), by decide⟩
      · rfl
    have delivers : failedInside.CanSend := by
      refine ⟨by decide, ?_⟩
      intro outcome member
      cases member
    have shows := (showsError_iff valid (show (commandText execAgain).length < 2 ^ 31 by
      decide +kernel)).2 delivers (by unfold Allocated; decide +kernel) (Or.inl (by decide))
      (fun outcome member => by cases member) (by decide +kernel)
    exact fun shown => shows.mp shown inside

/-- A transaction of one command that fails on the server: EXEC returns false, and its output is
still the one of the earlier transaction. -/
theorem execCommand_stale : ∃ (p p' : RedisProtocol ScriptedPeer) (c' : RedisCommand),
    p.execCommand execAgain = .ok (false, c', p') ∧
    c'.out.getSmbulks.map (·.map RedisOutput.toBulk) = some [some (ascii "old")] ∧
    ¬ p.ShowsError execAgain := by
  have shows : (failedInside.execCommand execAgain).toOption.map (fun returned =>
      (returned.1, returned.2.1.out.getSmbulks.map (·.map RedisOutput.toBulk))) =
        some (false, some [some (ascii "old")]) := by
    decide +kernel
  obtain ⟨⟨ok, c', p'⟩, returns, seen⟩ := returned_of_view shows
  obtain ⟨rfl, out⟩ := Prod.mk.inj seen
  have stale : ¬ failedInside.ShowsError execAgain := by
    intro shown
    have wrong := shown execAgain.out c' p' returns
    rw [show c'.out = .error p'.error from wrong] at out
    cases out
  exact ⟨failedInside, p', c', returns, out, stale⟩

end RedisProtocol

end LibRedis
