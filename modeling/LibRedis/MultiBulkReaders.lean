import LibRedis.ExecQueue
import LibRedis.FailedCommand

/-!
# The two readers of arrays

A multi-bulk is read by a flat loop over `read_bulk`, a special multi-bulk by the general reader,
element by element, and `convert` turns the second kind into the first. Element by element the two
do the same to the connection, `readBulk_of_child` and `child_of_readBulk`; the headers are judged
differently, since only the flat reader looks at a count below -1, and only the flat reader wants
room for all the elements before it reads the first.
-/

namespace LibRedis

open Decimal (ascii)

namespace RedisProtocol

variable {π : Type}

/-- The type of an accepted integer. -/
theorem readInteger_type {p q : RedisProtocol π} {buf : Bytes} {out : RedisOutput}
    (reads : p.readInteger buf = .ok (true, out, q)) : out.replyType = .integer := by
  obtain ⟨⟨number, p₁⟩, -, ends⟩ := bind_returns reads
  cases number with
  | none =>
    have wrong := congrArg Prod.fst (Except.ok.inj ends)
    cases wrong
  | some i =>
    have same : .i i = out := congrArg (·.2.1) (Except.ok.inj ends)
    rw [← same]
    rfl

/-- What an accepted multi-bulk was read from, and its output. -/
theorem readMultiBulkReply_reads {p q : RedisProtocol π} {buf : Bytes} {out : RedisOutput}
    (reads : p.readMultiBulkReply buf = .ok (true, out, q)) : ∃ i counted,
      p.parseInteger buf = .ok (some i, counted) ∧
      (i = -1 ∧ counted = q ∧ out = .nilMbulks ∨
        0 ≤ i ∧ i < 2 ^ 60 ∧ ∃ bulks, readBulks i.toNat counted = .ok (some bulks, q) ∧
          out = .mbulks bulks) := by
  rw [readMultiBulkReply_eq] at reads
  obtain ⟨⟨number, counted⟩, parses, rest⟩ := bind_returns reads
  cases number with
  | none =>
    have wrong := congrArg Prod.fst (Except.ok.inj rest)
    cases wrong
  | some i =>
    refine ⟨i, counted, parses, ?_⟩
    by_cases low : i < -1
    · simp only [if_pos low] at rest
      have wrong := congrArg Prod.fst (Except.ok.inj rest)
      cases wrong
    simp only [if_neg low] at rest
    by_cases nil : i = -1
    · simp only [if_pos nil] at rest
      obtain ⟨-, same⟩ := Prod.mk.inj (Except.ok.inj rest)
      obtain ⟨same, kept⟩ := Prod.mk.inj same
      exact Or.inl ⟨nil, kept, same.symm⟩
    simp only [if_neg nil] at rest
    by_cases large : 2 ^ 60 ≤ i
    · simp only [if_pos large] at rest
      cases rest
    · simp only [if_neg large] at rest
      obtain ⟨⟨bulks, left⟩, loop, ends⟩ := bind_returns rest
      cases bulks with
      | none =>
        have wrong := congrArg Prod.fst (Except.ok.inj ends)
        cases wrong
      | some bulks =>
        obtain ⟨-, same⟩ := Prod.mk.inj (Except.ok.inj ends)
        obtain ⟨rfl, rfl⟩ := Prod.mk.inj same
        exact Or.inr ⟨by omega, by omega, bulks, loop, rfl⟩

/-- What an accepted special multi-bulk was read from, and its output. -/
theorem readSpecialMultiBulk_reads
    {child : RedisOutput → RedisProtocol π → Except Abort (Bool × RedisOutput × RedisProtocol π)}
    {ends : Bool} {output : RedisOutput} {p q : RedisProtocol π} {buf : Bytes} {out : RedisOutput}
    (reads : readSpecialMultiBulk child ends output p buf = .ok (true, out, q)) :
    ∃ i counted last, p.parseInteger buf = .ok (some i, counted) ∧
      q.tcpClient = last.tcpClient ∧
      (i = -1 ∧ counted = last ∧ out = .nilSmbulks ∨
        i ≠ -1 ∧ ∃ elements, readChildren child i.toNat counted = .ok (some elements, last) ∧
          out = .smbulks elements) := by
  obtain ⟨⟨number, counted⟩, parses, rest⟩ := bind_returns reads
  cases number with
  | none =>
    have wrong := congrArg Prod.fst (Except.ok.inj rest)
    cases wrong
  | some i =>
    by_cases nil : i = -1
    · simp only [if_pos nil] at rest
      obtain ⟨-, same⟩ := Prod.mk.inj (Except.ok.inj rest)
      obtain ⟨rfl, rfl⟩ := Prod.mk.inj same
      exact ⟨i, counted, counted, parses, rfl, Or.inl ⟨nil, rfl, rfl⟩⟩
    · simp only [if_neg nil] at rest
      obtain ⟨⟨elements, last⟩, loop, ends⟩ := bind_returns rest
      cases elements with
      | none =>
        have wrong := congrArg Prod.fst (Except.ok.inj ends)
        cases wrong
      | some elements =>
        obtain ⟨-, same⟩ := Prod.mk.inj (Except.ok.inj ends)
        obtain ⟨rfl, rfl⟩ := Prod.mk.inj same
        exact ⟨i, counted, last, parses, rfl, Or.inr ⟨nil, elements, loop, rfl⟩⟩

section Elements

variable {command : Command} {fuel : Nat}

/-- A bulk that the flat reader takes is taken by the general reader as an element. -/
theorem child_of_readBulk {p q : RedisProtocol π} {bulk : Option Bytes}
    (reads : p.readBulk = .ok (some bulk, q)) :
    readReplyInner command (fuel + 1) false .none p = .ok (true, .ofBulk bulk, q) := by
  obtain ⟨⟨received, header, behind⟩, line, rest⟩ := bind_returns reads
  cases received with
  | false => cases rest
  | true =>
    by_cases marker : header.head? = some 36
    · simp only [if_pos marker] at rest
      obtain ⟨text, rfl⟩ : ∃ text, header = 36 :: text := by
        cases header with
        | nil => cases marker
        | cons first text =>
          have same : first = 36 := Option.some.inj marker
          exact ⟨text, by rw [same]⟩
      have reply : behind.readBulkReply (36 :: text) = .ok (true, .ofBulk bulk, q) := by
        have behind₂ : behind.readBulk2 (36 :: text) = .ok (some bulk, q) := rest
        rw [readBulkReply, behind₂]
        cases bulk with
        | none => rfl
        | some bytes => rfl
      rw [readReplyInner, line]
      exact reply
    · simp only [if_neg marker] at rest
      have wrong := congrArg Prod.fst (Except.ok.inj rest)
      cases wrong

/-- An element that is a bulk is taken by the flat reader. -/
theorem readBulk_of_child {p q : RedisProtocol π} {out : RedisOutput}
    (reads : readReplyInner command (fuel + 1) false .none p = .ok (true, out, q))
    (isBulk : out.replyType = .bulk) : p.readBulk = .ok (some out.toBulk, q) := by
  rw [readReplyInner] at reads
  obtain ⟨⟨received, header, behind⟩, line, rest⟩ := bind_returns reads
  cases received with
  | false =>
    have wrong := congrArg Prod.fst (Except.ok.inj rest)
    cases wrong
  | true =>
    have switch : readReplyLine (readReplyInner command fuel false) command false false
        command.commandInfo.replyType .none behind header = .ok (true, out, q) := rest
    cases header with
    | nil => cases switch
    | cons marker text =>
      rw [readReplyLine_eq] at switch
      by_cases error : marker = 45
      · rw [if_pos error] at switch
        have wrong := congrArg Prod.fst (Except.ok.inj switch)
        cases wrong
      rw [if_neg error] at switch
      by_cases status : marker = 43
      · rw [if_pos status] at switch
        have same : .status text = out := congrArg (·.2.1) (Except.ok.inj switch)
        rw [← same] at isBulk
        cases isBulk
      rw [if_neg status] at switch
      by_cases integer : marker = 58
      · rw [if_pos integer] at switch
        have other := readInteger_type switch
        cases other.symm.trans isBulk
      rw [if_neg integer] at switch
      by_cases bulk : marker = 36
      · rw [if_pos bulk] at switch
        have found : behind.readBulk2 (marker :: text) = .ok (some out.toBulk, q) := by
          obtain ⟨⟨found, last⟩, reads, ends⟩ := bind_returns switch
          rw [reads]
          rcases found with _ | _ | bytes
          · have wrong := congrArg Prod.fst (Except.ok.inj ends)
            cases wrong
          · obtain ⟨-, same⟩ := Prod.mk.inj (Except.ok.inj ends)
            obtain ⟨rfl, rfl⟩ := Prod.mk.inj same
            rfl
          · obtain ⟨-, same⟩ := Prod.mk.inj (Except.ok.inj ends)
            obtain ⟨rfl, rfl⟩ := Prod.mk.inj same
            rfl
        have head : (marker :: text).head? = some 36 := congrArg some bulk
        rw [readBulk, line]
        simp only [bind, Except.bind, Bool.not_true, Bool.false_eq_true, if_false, if_pos head]
        exact found
      rw [if_neg bulk] at switch
      by_cases array : marker = 42
      · rw [if_pos array] at switch
        have unchecked : ¬ (false && command.commandInfo.replyType != .multiBulk &&
            command.commandInfo.replyType != .specialMultiBulk) = true := by simp
        rw [if_neg unchecked] at switch
        by_cases bulks : command.commandInfo.replyType = .multiBulk
        · rw [if_pos bulks] at switch
          obtain ⟨i, counted, -, ⟨-, -, rfl⟩ | ⟨-, -, bulks, -, rfl⟩⟩ :=
            readMultiBulkReply_reads switch
          · cases isBulk
          · cases isBulk
        · rw [if_neg bulks] at switch
          obtain ⟨i, counted, last, -, -, ⟨-, -, rfl⟩ | ⟨-, elements, -, rfl⟩⟩ :=
            readSpecialMultiBulk_reads switch
          · cases isBulk
          · cases isBulk
      rw [if_neg array] at switch
      have wrong := congrArg Prod.fst (Except.ok.inj switch)
      cases wrong

/-- The flat loop and the loop over elements take the same bulks off the connection. -/
theorem readChildren_of_readBulks {count : Nat} {p q : RedisProtocol π}
    {bulks : List (Option Bytes)} (reads : readBulks count p = .ok (some bulks, q)) :
    readChildren (readReplyInner command (fuel + 1) false) count p =
      .ok (some (bulks.map RedisOutput.ofBulk), q) := by
  induction count generalizing p bulks with
  | zero =>
    obtain ⟨same, rfl⟩ := Prod.mk.inj (Except.ok.inj reads)
    obtain rfl := Option.some.inj same
    rfl
  | succ count ih =>
    obtain ⟨⟨bulk, left⟩, first, rest⟩ := bind_returns reads
    cases bulk with
    | none =>
      have wrong := congrArg Prod.fst (Except.ok.inj rest)
      cases wrong
    | some bulk =>
      obtain ⟨⟨later, last⟩, loop, same⟩ := bind_returns rest
      obtain ⟨found, rfl⟩ := Prod.mk.inj (Except.ok.inj same)
      obtain ⟨behind, rfl, rfl⟩ := Option.map_eq_some_iff.mp found
      rw [readChildren_succ (child_of_readBulk first), ih loop]
      rfl

/-- Elements that are all bulks are taken by the flat loop. -/
theorem readBulks_of_readChildren {count : Nat} {p q : RedisProtocol π}
    {elements : List RedisOutput}
    (reads : readChildren (readReplyInner command (fuel + 1) false) count p =
      .ok (some elements, q)) (bulks : RedisOutput.convertible2Mbulks elements = true) :
    readBulks count p = .ok (some (elements.map RedisOutput.toBulk), q) := by
  induction count generalizing p elements with
  | zero =>
    obtain ⟨same, rfl⟩ := Prod.mk.inj (Except.ok.inj reads)
    obtain rfl := Option.some.inj same
    rfl
  | succ count ih =>
    have first := reads
    rw [readChildren] at first
    obtain ⟨⟨ok, out, left⟩, element, rest⟩ := bind_returns first
    cases ok with
    | false =>
      have wrong := congrArg Prod.fst (Except.ok.inj rest)
      cases wrong
    | true =>
      rw [readChildren_succ element] at reads
      obtain ⟨⟨later, last⟩, loop, same⟩ := map_returns reads
      obtain ⟨found, rfl⟩ := Prod.mk.inj same
      obtain ⟨behind, rfl, rfl⟩ := Option.map_eq_some_iff.mp found
      obtain ⟨isBulk, all⟩ := List.all_cons.symm.trans bulks |> Bool.and_eq_true_iff.mp
      rw [readBulks, readBulk_of_child element (beq_iff_eq.mp isBulk)]
      simp only [bind, Except.bind]
      rw [ih loop all]
      rfl

/-- Where the flat reader does not return from a bulk, the general reader does not either. -/
theorem child_aborts {p : RedisProtocol π} {abort : Abort} (aborts : p.readBulk = .error abort) :
    readReplyInner command (fuel + 1) false .none p = .error abort := by
  rw [readReplyInner]
  rcases bind_aborts aborts with line | ⟨⟨received, header, behind⟩, line, rest⟩
  · rw [line]
    rfl
  · rw [line]
    cases received with
    | false => cases rest
    | true =>
      by_cases marker : header.head? = some 36
      · simp only [if_pos marker] at rest
        obtain ⟨text, rfl⟩ : ∃ text, header = 36 :: text := by
          cases header with
          | nil => cases marker
          | cons first text =>
            have same : first = 36 := Option.some.inj marker
            exact ⟨text, by rw [same]⟩
        have behind₂ : behind.readBulk2 (36 :: text) = .error abort := rest
        change behind.readBulkReply (36 :: text) = .error abort
        rw [readBulkReply, behind₂]
        rfl
      · simp only [if_neg marker] at rest
        cases rest

/-- Where the flat loop does not return, the loop over elements does not either. -/
theorem readChildren_aborts {count : Nat} {p : RedisProtocol π} {abort : Abort}
    (aborts : readBulks count p = .error abort) :
    readChildren (readReplyInner command (fuel + 1) false) count p = .error abort := by
  induction count generalizing p with
  | zero => cases aborts
  | succ count ih =>
    rw [readBulks] at aborts
    rcases bind_aborts aborts with first | ⟨⟨bulk, left⟩, first, rest⟩
    · rw [readChildren, child_aborts first]
      rfl
    · cases bulk with
      | none => cases rest
      | some bulk =>
        rcases bind_aborts rest with loop | ⟨later, -, wrong⟩
        · rw [readChildren_succ (child_of_readBulk first), ih loop]
          rfl
        · cases wrong

end Elements

/-- Reading a reply to the command succeeds with this output, and leaves the connection like this,
with what is unread on it. -/
def ReadsOut (p : RedisProtocol π) (c : RedisCommand) (out : RedisOutput) (client : TcpClient π) :
    Prop :=
  ∃ c' p', p.readReply c = .ok (true, c', p') ∧ c'.out = out ∧ p'.tcpClient = client

/-- The line on its way announces an array of so many elements. -/
def Announces (p : RedisProtocol π) (count : Int) (counted : RedisProtocol π) : Prop :=
  ∃ header behind, p.readLine = .ok (true, header, behind) ∧ header.head? = some 42 ∧
    behind.parseInteger header = .ok (some count, counted)

/-- The reply behind a line is what the switch makes of the line. -/
theorem readReply_behind {p behind : RedisProtocol π} {header : Bytes}
    (line : p.readLine = .ok (true, header, behind)) (c : RedisCommand) :
    ∃ check exp, Holds check exp (p.replyType c) ∧ p.readReply c =
      (readReplyLine (p.readElement c.command) c.command true check exp c.out behind header).map
        fun (ok, out, p') => (ok, { c with out := out }, p') := by
  have holds : Holds _ _ (typeRead true p.transactionMode c.command) :=
    (holds_typeRead true p.transactionMode fun wrong => Bool.noConfusion wrong).1
  refine ⟨_, _, holds, ?_⟩
  rw [readReply, readReplyInner, line]
  change (readReplyLine (p.readElement c.command) c.command true _ _ c.out behind header >>= _) = _
  generalize readReplyLine _ _ _ _ _ _ _ _ = result
  cases result with
  | error abort => rfl
  | ok returned => rfl

/-- The switch for a reply that is to be an array refuses every other line. -/
theorem readReplyLine_refuses
    (child : RedisOutput → RedisProtocol π → Except Abort (Bool × RedisOutput × RedisProtocol π))
    {command : Command} {check : Bool} {exp type : ReplyType} (holds : Holds check exp type)
    (arrays : type = .multiBulk ∨ type = .specialMultiBulk) (output : RedisOutput)
    (p : RedisProtocol π) {header : Bytes} (filled : header ≠ []) (other : header.head? ≠ some 42) :
    ∃ out q, readReplyLine child command true check exp output p header = .ok (false, out, q) := by
  have wrong (other : ReplyType) (notBulks : other ≠ .multiBulk)
      (notSpecial : other ≠ .specialMultiBulk) : (check && exp != other) = true := by
    rcases holds with ⟨checks, same, -⟩ | ⟨-, untyped, -⟩
    · rw [← same, checks, Bool.true_and, bne_iff_ne]
      rcases arrays with rfl | rfl
      · exact notBulks.symm
      · exact notSpecial.symm
    · rw [untyped] at arrays
      rcases arrays with wrong | wrong
      · cases wrong
      · cases wrong
  cases header with
  | nil => exact absurd rfl filled
  | cons marker text =>
    rw [readReplyLine_eq]
    by_cases error : marker = 45
    · rw [if_pos error]
      exact ⟨_, _, rfl⟩
    rw [if_neg error]
    by_cases status : marker = 43
    · rw [if_pos status, if_pos (wrong .status (by decide) (by decide))]
      exact ⟨_, _, rfl⟩
    rw [if_neg status]
    by_cases integer : marker = 58
    · rw [if_pos integer, if_pos (wrong .integer (by decide) (by decide))]
      exact ⟨_, _, rfl⟩
    rw [if_neg integer]
    by_cases bulk : marker = 36
    · rw [if_pos bulk, if_pos (wrong .bulk (by decide) (by decide))]
      exact ⟨_, _, rfl⟩
    rw [if_neg bulk]
    by_cases array : marker = 42
    · exact absurd (congrArg some array) other
    rw [if_neg array]
    exact ⟨_, _, rfl⟩

/-- An array that is read by the flat loop reaches its case. -/
theorem readReplyLine_bulks
    {child : RedisOutput → RedisProtocol π → Except Abort (Bool × RedisOutput × RedisProtocol π)}
    {command : Command} {check : Bool} {exp type : ReplyType} (holds : Holds check exp type)
    (bulks : type = .multiBulk) (output : RedisOutput) (p : RedisProtocol π) {header : Bytes}
    (array : header.head? = some 42) :
    readReplyLine child command true check exp output p header = p.readMultiBulkReply header := by
  subst bulks
  cases header with
  | nil => cases array
  | cons marker text =>
    have same : marker = 42 := Option.some.inj array
    subst same
    rw [readReplyLine_eq, if_neg (by decide), if_neg (by decide), if_neg (by decide),
      if_neg (by decide), if_pos rfl]
    rcases holds with ⟨-, same, -⟩ | ⟨-, wrong, -⟩
    · rw [← same, if_neg (by simp), if_pos rfl]
    · cases wrong

/-- A reply to a command whose replies are arrays is accepted from the line of an array. -/
theorem readsOut_line {p : RedisProtocol π} {c : RedisCommand}
    (arrays : p.replyType c = .multiBulk ∨ p.replyType c = .specialMultiBulk) {out : RedisOutput}
    {client : TcpClient π} (reads : p.ReadsOut c out client) :
    ∃ header behind, p.readLine = .ok (true, header, behind) ∧ header.head? = some 42 := by
  obtain ⟨c', p', returns, -, -⟩ := reads
  have whole := returns
  rw [readReply, readReplyInner] at whole
  obtain ⟨⟨ok, found, q⟩, inner, same⟩ := bind_returns whole
  have accepted : ok = true := congrArg Prod.fst (Except.ok.inj same)
  subst accepted
  obtain ⟨⟨received, header, behind⟩, line, switch⟩ := bind_returns inner
  cases received with
  | false =>
    have wrong := congrArg Prod.fst (Except.ok.inj switch)
    cases wrong
  | true =>
    have holds : Holds _ _ (typeRead true p.transactionMode c.command) :=
      (holds_typeRead true p.transactionMode fun wrong => Bool.noConfusion wrong).1
    refine ⟨header, behind, line, ?_⟩
    by_contra other
    by_cases empty : header = []
    · subst empty
      cases switch
    · obtain ⟨out₁, q₁, refuses⟩ := readReplyLine_refuses _ holds arrays c.out behind empty other
      have wrong := congrArg Prod.fst (Except.ok.inj (refuses.symm.trans switch))
      cases wrong

/-- When the flat reader accepts: the header announces a nil array, or an array of so many bulks,
and they follow. -/
theorem readsOut_multiBulk {p : RedisProtocol π} {c : RedisCommand}
    (type : p.replyType c = .multiBulk) (out : RedisOutput) (client : TcpClient π) :
    p.ReadsOut c out client ↔ ∃ i counted, p.Announces i counted ∧
      (i = -1 ∧ counted.tcpClient = client ∧ out = .nilMbulks ∨
        0 ≤ i ∧ i < 2 ^ 60 ∧ ∃ bulks q, readBulks i.toNat counted = .ok (some bulks, q) ∧
          q.tcpClient = client ∧ out = .mbulks bulks) := by
  constructor
  · intro reads
    obtain ⟨header, behind, line, array⟩ := readsOut_line (Or.inl type) reads
    obtain ⟨c', p', returns, rfl, rfl⟩ := reads
    obtain ⟨check, exp, holds, same⟩ := readReply_behind line c
    rw [same, readReplyLine_bulks holds type _ _ array] at returns
    obtain ⟨⟨ok, found, q⟩, switch, view⟩ := map_returns returns
    obtain ⟨rfl, kept⟩ := Prod.mk.inj view
    obtain ⟨rfl, rfl⟩ := Prod.mk.inj kept
    obtain ⟨i, counted, parses, ⟨nil, rfl, same⟩ | ⟨count, few, bulks, loop, same⟩⟩ :=
      readMultiBulkReply_reads switch
    · exact ⟨i, counted, ⟨header, behind, line, array, parses⟩, Or.inl ⟨nil, rfl, same⟩⟩
    · exact ⟨i, counted, ⟨header, behind, line, array, parses⟩,
        Or.inr ⟨count, few, bulks, q, loop, rfl, same⟩⟩
  · rintro ⟨i, counted, ⟨header, behind, line, array, parses⟩, cases⟩
    obtain ⟨check, exp, holds, same⟩ := readReply_behind line c
    rw [readReplyLine_bulks holds type _ _ array] at same
    rw [readMultiBulkReply_eq, parses] at same
    rcases cases with ⟨rfl, rfl, rfl⟩ | ⟨count, few, bulks, q, loop, rfl, rfl⟩
    · exact ⟨_, counted, same, rfl, rfl⟩
    · simp only [bind, Except.bind, if_neg (show ¬ i < -1 by omega),
        if_neg (show ¬ i = -1 by omega), if_neg (not_le.mpr few), loop] at same
      exact ⟨_, q, same, rfl, rfl⟩

/-- When the reader of elements accepts: the header announces a nil array, or a number of elements
that is not negative or another negative number, and they follow. -/
theorem readsOut_special {p : RedisProtocol π} {c : RedisCommand}
    (type : p.replyType c = .specialMultiBulk) (out : RedisOutput) (client : TcpClient π) :
    p.ReadsOut c out client ↔ ∃ i counted, p.Announces i counted ∧
      (i = -1 ∧ counted.tcpClient = client ∧ out = .nilSmbulks ∨
        i ≠ -1 ∧ ∃ elements q,
          readChildren (p.readElement c.command) i.toNat counted = .ok (some elements, q) ∧
          q.tcpClient = client ∧ out = .smbulks elements) := by
  constructor
  · intro reads
    obtain ⟨header, behind, line, array⟩ := readsOut_line (Or.inr type) reads
    obtain ⟨c', p', returns, rfl, rfl⟩ := reads
    obtain ⟨check, exp, holds, same⟩ := readReply_behind line c
    rw [same, readReplyLine_array holds (Or.inl type) _ _ array] at returns
    obtain ⟨⟨ok, found, q⟩, switch, view⟩ := map_returns returns
    obtain ⟨rfl, kept⟩ := Prod.mk.inj view
    obtain ⟨rfl, rfl⟩ := Prod.mk.inj kept
    obtain ⟨i, counted, last, parses, client, ⟨nil, rfl, same⟩ | ⟨count, elements, loop, same⟩⟩ :=
      readSpecialMultiBulk_reads switch
    · exact ⟨i, counted, ⟨header, behind, line, array, parses⟩, Or.inl ⟨nil, client.symm, same⟩⟩
    · exact ⟨i, counted, ⟨header, behind, line, array, parses⟩,
        Or.inr ⟨count, elements, last, loop, client.symm, same⟩⟩
  · rintro ⟨i, counted, ⟨header, behind, line, array, parses⟩, cases⟩
    obtain ⟨check, exp, holds, same⟩ := readReply_behind line c
    rw [readReplyLine_array holds (Or.inl type) _ _ array] at same
    rcases cases with ⟨nil, rfl, rfl⟩ | ⟨count, elements, q, loop, rfl, rfl⟩
    · rw [readSpecialMultiBulk, parses] at same
      simp only [bind, Except.bind, if_pos nil] at same
      exact ⟨_, _, same, rfl, rfl⟩
    · rw [readSpecialMultiBulk, parses] at same
      simp only [bind, Except.bind, if_neg count, loop] at same
      exact ⟨_, _, same, rfl, rfl⟩

/-- The first line of the stream announces an array of so many elements. -/
def Announced (p : RedisProtocol π) (count : Int) : Prop :=
  ∃ header rest, ReplyScan.line p.stream = .takes header rest ∧ header.head? = some 42 ∧
    p.decode header.tail = some count

/-- The two readers agree on what comes on a connection: the flat reader takes a list of bulks
exactly where the other takes elements that can be converted to it, a nil array exactly where the
other does, and neither accepts a negative count but -1. Both leave the same connection. Where the
flat reader does not return, the other does not either. -/
def ReadersAgree (p : RedisProtocol π) (c₁ c₂ : RedisCommand) : Prop :=
  (∀ bulks client, p.ReadsOut c₁ (.mbulks bulks) client ↔
    ∃ elements, p.ReadsOut c₂ (.smbulks elements) client ∧
      RedisOutput.convert elements = some (bulks, [])) ∧
  (∀ client, p.ReadsOut c₁ .nilMbulks client ↔ p.ReadsOut c₂ .nilSmbulks client) ∧
  (∀ i, p.Announced i → i < -1 → ∀ out client,
    ¬ p.ReadsOut c₁ out client ∧ ¬ p.ReadsOut c₂ out client) ∧
  ∀ abort, p.readReply c₁ = .error abort → ∀ returned, p.readReply c₂ ≠ .ok returned

/-- What is taken out of the outputs for bulks are the bulks. -/
theorem map_toBulk_ofBulk (bulks : List (Option Bytes)) :
    (bulks.map RedisOutput.ofBulk).map RedisOutput.toBulk = bulks := by
  rw [List.map_map]
  have each : ∀ bulk ∈ bulks, (RedisOutput.toBulk ∘ RedisOutput.ofBulk) bulk = bulk :=
    fun bulk _ => RedisOutput.toBulk_ofBulk bulk
  exact (List.map_congr_left each).trans (List.map_id bulks)

/-- What is converted to bulks are the outputs for them. -/
theorem convert_eq_some {elements : List RedisOutput} {bulks : List (Option Bytes)} :
    RedisOutput.convert elements = some (bulks, []) ↔ elements = bulks.map RedisOutput.ofBulk := by
  unfold RedisOutput.convert
  constructor
  · intro converts
    split at converts
    · rename_i convertible
      obtain ⟨mb, rfl⟩ := RedisOutput.convertible2Mbulks_iff.mp convertible
      have taken := congrArg Prod.fst (Option.some.inj converts)
      have same : mb = bulks := (map_toBulk_ofBulk mb).symm.trans taken
      rw [same]
    · cases converts
  · rintro rfl
    rw [if_pos (RedisOutput.convertible2Mbulks_iff.mpr ⟨bulks, rfl⟩), map_toBulk_ofBulk]

/-- What was read and parsed is announced by the stream. -/
theorem Announces.announced {p counted : RedisProtocol π} {i : Int} (valid : p.Valid)
    (announces : p.Announces i counted) : p.Announced i := by
  obtain ⟨header, behind, line, array, parses⟩ := announces
  obtain ⟨keeps, takes⟩ := readLine_takes valid line
  have some : header ≠ [] := (ReplyScan.line_eq_takes.mp takes).2
  obtain ⟨errno, parsed, -⟩ := behind.parseInteger_decode some
  rw [parsed, keeps.goes.decode] at parses
  exact ⟨header, _, takes, array, congrArg Prod.fst (Except.ok.inj parses)⟩

/-- There was something to read before a line that was read, so elements may be read. -/
theorem readElement_succ {p behind : RedisProtocol π} (valid : p.Valid) {header : Bytes}
    (line : p.readLine = .ok (true, header, behind)) (command : Command) :
    ∃ fuel, p.readElement command = readReplyInner command (fuel + 1) false := by
  have shorter := ReplyScan.line_shorter (readLine_takes valid line).2
  have length : p.tcpClient.buffer.readSize + p.tcpClient.os.incoming.length = p.stream.length := by
    rw [stream, TcpClient.stream, List.length_append, valid.buffer.length_unread]
  refine ⟨p.stream.length - 1, ?_⟩
  have fuel : p.stream.length - 1 + 1 = p.stream.length := by omega
  rw [readElement, length, fuel]

/-- No negative count but -1 is announced, and none that there is no room for. -/
def CountWithin (p : RedisProtocol π) : Prop := ∀ i, p.Announced i → -1 ≤ i ∧ i < 2 ^ 60

/-- Then the two readers agree on lists of bulks. -/
theorem CountWithin.bulks {p : RedisProtocol π} (within : p.CountWithin) (valid : p.Valid)
    {c₁ c₂ : RedisCommand} (flat : p.replyType c₁ = .multiBulk)
    (special : p.replyType c₂ = .specialMultiBulk) (bulks : List (Option Bytes))
    (client : TcpClient π) :
    p.ReadsOut c₁ (.mbulks bulks) client ↔ ∃ elements, p.ReadsOut c₂ (.smbulks elements) client ∧
      RedisOutput.convert elements = some (bulks, []) := by
  rw [readsOut_multiBulk flat]
  constructor
  · rintro ⟨i, counted, announces, ⟨-, -, wrong⟩ | ⟨count, -, mb, q, loop, left, same⟩⟩
    · cases wrong
    · obtain rfl := RedisOutput.mbulks.inj same
      have reads : p.ReadsOut c₂ (.smbulks (bulks.map RedisOutput.ofBulk)) client := by
        apply (readsOut_special special _ _).mpr
        obtain ⟨header, behind, line, array⟩ := announces
        obtain ⟨fuel, child⟩ := readElement_succ valid line c₂.command
        have elements : readChildren (p.readElement c₂.command) i.toNat counted =
            .ok (some (bulks.map RedisOutput.ofBulk), q) := by
          rw [child]
          apply readChildren_of_readBulks loop
        exact ⟨i, counted, ⟨header, behind, line, array⟩,
          Or.inr ⟨by omega, _, q, elements, left, rfl⟩⟩
      exact ⟨_, reads, convert_eq_some.mpr rfl⟩
  · rintro ⟨elements, reads, converts⟩
    obtain rfl := convert_eq_some.mp converts
    obtain ⟨i, counted, announces, ⟨-, -, wrong⟩ | ⟨count, found, q, loop, left, same⟩⟩ :=
      (readsOut_special special _ _).mp reads
    · cases wrong
    · obtain rfl := RedisOutput.smbulks.inj same
      obtain ⟨above, few⟩ := within i (announces.announced valid)
      obtain ⟨header, behind, line, array⟩ := announces
      obtain ⟨fuel, child⟩ := readElement_succ valid line c₂.command
      rw [child] at loop
      have taken := readBulks_of_readChildren loop
        (RedisOutput.convertible2Mbulks_iff.mpr ⟨bulks, rfl⟩)
      rw [map_toBulk_ofBulk] at taken
      exact ⟨i, counted, ⟨header, behind, line, array⟩,
        Or.inr ⟨by omega, few, bulks, q, taken, left, rfl⟩⟩

/-- Where the flat reader does not return behind the header of an array, it had no room for so many
elements or does not return from one of them. -/
theorem readMultiBulkReply_aborts {p : RedisProtocol π} {header : Bytes} (filled : header ≠ [])
    {abort : Abort} (aborts : p.readMultiBulkReply header = .error abort) :
    ∃ i counted, p.parseInteger header = .ok (some i, counted) ∧ 0 ≤ i ∧
      (2 ^ 60 ≤ i ∨ readBulks i.toNat counted = .error abort) := by
  obtain ⟨errno, parsed, -⟩ := p.parseInteger_decode filled
  rw [readMultiBulkReply_eq] at aborts
  rcases bind_aborts aborts with wrong | ⟨⟨number, counted⟩, parses, rest⟩
  · cases parsed.symm.trans wrong
  · cases number with
    | none => cases rest
    | some i =>
      refine ⟨i, counted, parses, ?_⟩
      by_cases low : i < -1
      · simp only [if_pos low] at rest
        cases rest
      simp only [if_neg low] at rest
      by_cases nil : i = -1
      · simp only [if_pos nil] at rest
        cases rest
      simp only [if_neg nil] at rest
      refine ⟨by omega, ?_⟩
      by_cases large : 2 ^ 60 ≤ i
      · exact Or.inl large
      · simp only [if_neg large] at rest
        rcases bind_aborts rest with loop | ⟨⟨bulks, left⟩, -, wrong⟩
        · exact Or.inr loop
        · cases bulks with
          | none => cases wrong
          | some bulks => cases wrong

/-- And where the flat reader does not return, the other does not either. -/
theorem CountWithin.aborts {p : RedisProtocol π} (within : p.CountWithin) (valid : p.Valid)
    {c₁ c₂ : RedisCommand} (flat : p.replyType c₁ = .multiBulk)
    (special : p.replyType c₂ = .specialMultiBulk) {abort : Abort}
    (aborts : p.readReply c₁ = .error abort) : p.readReply c₂ = .error abort := by
  -- both read the line, the flat reader goes on only at an array, and then both read its elements
  rw [readReply, readReplyInner] at aborts
  cases line : p.readLine with
  | error reason =>
    rw [line] at aborts
    have same : reason = abort := Except.error.inj aborts
    rw [readReply, readReplyInner, line, same]
    rfl
  | ok returned =>
    obtain ⟨received, header, behind⟩ := returned
    cases received with
    | false =>
      rw [line] at aborts
      cases aborts
    | true =>
      obtain ⟨check, exp, holds, same⟩ := readReply_behind line c₁
      rw [readReply, readReplyInner] at same
      rw [same] at aborts
      have filled : header ≠ [] := (ReplyScan.line_eq_takes.mp (readLine_takes valid line).2).2
      by_cases array : header.head? = some 42
      · rw [readReplyLine_bulks holds flat _ _ array] at aborts
        have aborts : behind.readMultiBulkReply header = .error abort := by
          cases switch : behind.readMultiBulkReply header with
          | error reason =>
            rw [switch] at aborts
            have same : reason = abort := Except.error.inj aborts
            rw [same]
          | ok returned =>
            rw [switch] at aborts
            cases aborts
        obtain ⟨i, counted, parses, count, stops⟩ := readMultiBulkReply_aborts filled aborts
        have announced : p.Announced i :=
          Announces.announced valid ⟨header, behind, line, array, parses⟩
        have loop := stops.resolve_left (not_le.mpr (within i announced).2)
        obtain ⟨check', exp', holds', same'⟩ := readReply_behind line c₂
        obtain ⟨fuel, child⟩ := readElement_succ valid line c₂.command
        have elements : readChildren (p.readElement c₂.command) i.toNat counted = .error abort := by
          rw [child]
          exact readChildren_aborts loop
        rw [same', readReplyLine_array holds' (Or.inl special) _ _ array, readSpecialMultiBulk,
          parses]
        simp only [bind, Except.bind, if_neg (show ¬ i = -1 by omega), elements]
        rfl
      · obtain ⟨out, q, refuses⟩ :=
          readReplyLine_refuses (p.readElement c₁.command) holds (Or.inl flat) c₁.out behind
            filled array
        rw [refuses] at aborts
        cases aborts

/-- The two readers agree on nil arrays in any case. -/
theorem readsOut_nil {p : RedisProtocol π} {c₁ c₂ : RedisCommand}
    (flat : p.replyType c₁ = .multiBulk) (special : p.replyType c₂ = .specialMultiBulk)
    (client : TcpClient π) :
    p.ReadsOut c₁ .nilMbulks client ↔ p.ReadsOut c₂ .nilSmbulks client := by
  rw [readsOut_multiBulk flat, readsOut_special special]
  constructor
  · rintro ⟨i, counted, announces, ⟨nil, left, -⟩ | ⟨-, -, mb, q, -, -, wrong⟩⟩
    · exact ⟨i, counted, announces, Or.inl ⟨nil, left, rfl⟩⟩
    · cases wrong
  · rintro ⟨i, counted, announces, ⟨nil, left, -⟩ | ⟨-, elements, q, -, -, wrong⟩⟩
    · exact ⟨i, counted, announces, Or.inl ⟨nil, left, rfl⟩⟩
    · cases wrong

/-- Where the counts are within these bounds the two readers agree, whatever the network does. -/
theorem CountWithin.agree {p : RedisProtocol π} (within : p.CountWithin) (valid : p.Valid)
    {c₁ c₂ : RedisCommand} (flat : p.replyType c₁ = .multiBulk)
    (special : p.replyType c₂ = .specialMultiBulk) : p.ReadersAgree c₁ c₂ := by
  refine ⟨within.bulks valid flat special, readsOut_nil flat special, ?_, ?_⟩
  · intro i announced below
    have above := (within i announced).1
    omega
  · intro abort aborts returned returns
    cases (within.aborts valid flat special aborts).symm.trans returns

/-- The scan behind the header of an array. -/
theorem scan_array {p : RedisProtocol π} {header rest : Bytes}
    (line : ReplyScan.line p.stream = .takes header rest) (array : header.head? = some 42)
    (limit : Nat) (c : RedisCommand) :
    p.scan limit c =
      if p.replyType c = .multiBulk then ReplyScan.multiBulkReply p.decode limit header rest
      else if p.replyType c = .specialMultiBulk ∨ p.replyType c = .depends then
        ReplyScan.specialReply p.decode
          (ReplyScan.reply p.decode limit p.stream.length .depends) header rest
      else .refuses := by
  rw [scan, ReplyScan.reply, line, Scan.bind_takes, ReplyScan.replyBehind, array,
    if_neg (by decide), if_neg (by decide), if_neg (by decide), if_neg (by decide), if_pos rfl]

/-- The flat reader has no room for so many elements. -/
theorem Announced.stalls {p : RedisProtocol π} {i : Int} (announced : p.Announced i)
    (large : 2 ^ 60 ≤ i) {c : RedisCommand} (flat : p.replyType c = .multiBulk) :
    p.scan (2 ^ 62) c = .stalls := by
  obtain ⟨header, rest, line, array, decoded⟩ := announced
  rw [scan_array line array, if_pos flat, ReplyScan.multiBulkReply, ReplyScan.number, decoded]
  simp only [Scan.bind_takes]
  rw [if_neg (by omega), if_neg (by omega), if_pos large]

/-- The reader of elements takes an array of less than -1 elements for an empty one. -/
theorem Announced.takes_empty {p : RedisProtocol π} {i : Int} (announced : p.Announced i)
    (below : i < -1) {c : RedisCommand} (special : p.replyType c = .specialMultiBulk) :
    ∃ rest, p.scan (2 ^ 62) c = .takes (.smbulks []) rest := by
  obtain ⟨header, rest, line, array, decoded⟩ := announced
  have none : i.toNat = 0 := by omega
  refine ⟨rest, ?_⟩
  rw [scan_array line array, if_neg (by rw [special]; decide), if_pos (Or.inl special),
    ReplyScan.specialReply, ReplyScan.number, decoded]
  simp only [Scan.bind_takes]
  rw [if_neg (by omega), none]
  rfl

/-- A reader accepts nothing where it does not return. -/
theorem not_readsOut {p : RedisProtocol π} {c : RedisCommand} {abort : Abort}
    (aborts : p.readReply c = .error abort) (out : RedisOutput) (client : TcpClient π) :
    ¬ p.ReadsOut c out client := by
  rintro ⟨c', p', returns, -⟩
  cases aborts.symm.trans returns

/-- The two readers agree if the count that the first line announces is -1 or more and below
`2 ^ 60`. Where all the bytes arrive they agree only then, or where a larger count is announced and
the reader of elements comes to a byte string that there is no room for, so that it does not return
either. -/
theorem readersAgree_iff {p : RedisProtocol π} (valid : p.Valid) {c₁ c₂ : RedisCommand}
    (flat : p.replyType c₁ = .multiBulk) (special : p.replyType c₂ = .specialMultiBulk) :
    (p.CountWithin → p.ReadersAgree c₁ c₂) ∧
    (p.Allocated → p.Prompt → p.stream.length < 2 ^ 60 → p.Arrives →
      (p.ReadersAgree c₁ c₂ ↔ ∀ i, p.Announced i →
        -1 ≤ i ∧ (i < 2 ^ 60 ∨ p.scan (2 ^ 62) c₂ = .stalls))) := by
  refine ⟨fun within => within.agree valid flat special, fun allocated prompt short arrives => ?_⟩
  have roomy : p.Roomy := ⟨allocated.small valid, short⟩
  constructor
  · rintro ⟨-, -, rejects, waits⟩ i announced
    constructor
    · by_contra below
      obtain ⟨rest, takes⟩ := announced.takes_empty (not_le.mp below) special
      obtain ⟨p', returns⟩ := readReply_of_takes valid roomy arrives takes
      exact (rejects i announced (not_le.mp below) _ _).2 ⟨_, p', returns, rfl, rfl⟩
    · by_contra neither
      obtain ⟨large, moves⟩ := not_or.mp neither
      obtain ⟨abort, aborts⟩ := readReply_of_stalls valid roomy arrives
        (announced.stalls (not_lt.mp large) flat)
      cases returns : p.readReply c₂ with
      | error reason => exact moves (scan_stalls valid roomy prompt returns)
      | ok returned => exact waits abort aborts returned returns
  · intro counts
    by_cases large : ∃ i, p.Announced i ∧ 2 ^ 60 ≤ i
    · obtain ⟨i, announced, large⟩ := large
      -- neither returns
      have stalls : p.scan (2 ^ 62) c₂ = .stalls :=
        (counts i announced).2.resolve_left (not_lt.mpr large)
      obtain ⟨abort₁, aborts₁⟩ := readReply_of_stalls valid roomy arrives
        (announced.stalls large flat)
      obtain ⟨abort₂, aborts₂⟩ := readReply_of_stalls valid roomy arrives stalls
      refine ⟨fun bulks client => iff_of_false (not_readsOut aborts₁ _ _) ?_,
        readsOut_nil flat special,
        fun _ _ _ out client => ⟨not_readsOut aborts₁ _ _, not_readsOut aborts₂ _ _⟩, ?_⟩
      · rintro ⟨elements, reads, -⟩
        exact not_readsOut aborts₂ _ _ reads
      · intro abort _ returned returns
        cases aborts₂.symm.trans returns
    · have within : p.CountWithin := fun i announced =>
        ⟨(counts i announced).1, not_le.mp fun many => large ⟨i, announced, many⟩⟩
      exact within.agree valid flat special

/-- A nil and a text, in two chunks. -/
def nilAndText : RedisProtocol ScriptedPeer :=
  greeted (ascii "*2\r\n$-1\r\n$1\r\nv\r\n") [.chunk 3]

/-- A reader for MGET and one for EXEC agree on them. -/
theorem readersAgree_iff_mget : nilAndText.ReadersAgree (.new .mget) (.new .exec) := by
  have flat : nilAndText.replyType (.new .mget) = .multiBulk := by decide
  have special : nilAndText.replyType (.new .exec) = .specialMultiBulk := by decide
  apply (readersAgree_iff (greeted_valid _ _).1 flat special).1
  rintro i ⟨header, rest, line, -, decoded⟩
  have taken : ReplyScan.line nilAndText.stream =
      .takes (ascii "*2") (ascii "$-1\r\n$1\r\nv\r\n") := by
    apply ReplyScan.line_eq_takes.mpr
    exact ⟨(Delimited.split_eq_some _ _ _).mp (by decide +kernel), by decide⟩
  cases taken.symm.trans line
  have two : nilAndText.decode (ascii "2") = some 2 := by decide +kernel
  cases two.symm.trans decoded
  decide

/-- An array of -2 elements. -/
def minusTwo : RedisProtocol ScriptedPeer := greeted (ascii "*-2\r\n") []

/-- The reader for MGET rejects it, and the one for EXEC takes it for an empty array. -/
theorem readers_disagree : minusTwo.Valid ∧ minusTwo.replyType (.new .mget) = .multiBulk ∧
    minusTwo.replyType (.new .exec) = .specialMultiBulk ∧
    (∃ c' p', minusTwo.readReply (.new .mget) = .ok (false, c', p')) ∧
    (∃ c' p', minusTwo.readReply (.new .exec) = .ok (true, c', p')) ∧
    ¬ minusTwo.ReadersAgree (.new .mget) (.new .exec) := by
  have rejects : (minusTwo.readReply (.new .mget)).toOption.map (fun returned => returned.1) =
      some false := by
    decide +kernel
  have accepts : (minusTwo.readReply (.new .exec)).toOption.map (fun returned => returned.1) =
      some true := by
    decide +kernel
  have announced : minusTwo.Announced (-2) := by
    refine ⟨ascii "*-2", [], ReplyScan.line_eq_takes.mpr ⟨?_, by decide⟩, by decide,
      by decide +kernel⟩
    exact (Delimited.split_eq_some _ _ _).mp (by decide +kernel)
  obtain ⟨⟨ok₁, c₁, p₁⟩, first, no⟩ := returned_of_view rejects
  obtain ⟨⟨ok₂, c₂, p₂⟩, second, yes⟩ := returned_of_view accepts
  have no : ok₁ = false := no
  have yes : ok₂ = true := yes
  subst no yes
  refine ⟨(greeted_valid _ _).1, by decide, by decide, ⟨c₁, p₁, first⟩, ⟨c₂, p₂, second⟩, ?_⟩
  rintro ⟨-, -, reject, -⟩
  exact (reject (-2) announced (by decide) c₂.out p₂.tcpClient).2 ⟨c₂, p₂, second, rfl, rfl⟩

end RedisProtocol

end LibRedis
