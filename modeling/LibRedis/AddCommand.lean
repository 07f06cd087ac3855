import LibRedis.ExecResults
import LibRedis.FormattedCommand
import Mathlib.Algebra.Order.BigOperators.Group.List

/-!
# The two ways to queue a command

`add_command` takes a command object or a format. Where the words of the command are a format that
is printed as it is, both send the same bytes, leave the same connection behind and queue one
command when it is accepted; but the first returns false even then. A percent sign in an argument
starts a conversion, and a NUL ends the format: then other words are sent.
-/

namespace LibRedis

open Decimal (ascii)
open Printf (Conversions Piece Starves VaList expand pieces)

/-- A peer, and all that it has heard. -/
structure Listening (π : Type) where
  /-- The peer. -/
  peer : π
  /-- The bytes that have arrived on any of its connections. -/
  heard : Bytes

instance {π : Type} [Peer π] : Peer (Listening π) where
  accept l := ((Peer.accept l.peer).1, { l with peer := (Peer.accept l.peer).2 })
  receive l bytes := ((Peer.receive l.peer bytes).1,
    ⟨(Peer.receive l.peer bytes).2, l.heard ++ bytes⟩)

namespace RedisProtocol

variable {π : Type}

/-- The words of a text, with a space between two of them. -/
def joinWords (words : List Bytes) : Bytes := List.intercalate [32] words

/-- A word that is not empty and has no whitespace. -/
def Plainly (word : Bytes) : Prop := word ≠ [] ∧ ∀ byte ∈ word, isSpace byte = false

/-- A text begins with a byte of its first word. -/
theorem joinWords_begins {words : List Bytes} (some : words ≠ [])
    (plain : ∀ word ∈ words, Plainly word) :
    ∃ byte rest, joinWords words = byte :: rest ∧ isSpace byte = false := by
  obtain ⟨word, more, rfl⟩ := List.exists_cons_of_ne_nil some
  obtain ⟨filled, clean⟩ := plain word List.mem_cons_self
  obtain ⟨byte, tail, rfl⟩ := List.exists_cons_of_ne_nil filled
  have first := clean byte List.mem_cons_self
  cases more with
  | nil => exact ⟨byte, tail, List.intercalate_singleton, first⟩
  | cons next more => exact ⟨byte, _, List.intercalate_cons_cons, first⟩

/-- It ends with a byte of its last word. -/
theorem joinWords_ends {words : List Bytes} (some : words ≠ [])
    (plain : ∀ word ∈ words, Plainly word) :
    ∃ front byte, joinWords words = front ++ [byte] ∧ isSpace byte = false := by
  induction words with
  | nil => exact absurd rfl some
  | cons word more ih =>
    cases more with
    | nil =>
      obtain ⟨filled, clean⟩ := plain word List.mem_cons_self
      have shape := List.dropLast_append_getLast filled
      have last := clean _ (List.getLast_mem filled)
      exact ⟨word.dropLast, word.getLast filled, List.intercalate_singleton.trans shape.symm, last⟩
    | cons next more =>
      have others : ∀ other ∈ next :: more, Plainly other :=
        fun other member => plain other (List.mem_cons_of_mem word member)
      obtain ⟨front, byte, shape, last⟩ := ih (List.cons_ne_nil next more) others
      refine ⟨word ++ [32] ++ front, byte, ?_, last⟩
      rw [joinWords, List.intercalate_cons_cons, List.append_assoc (word ++ [32]), ← shape]
      rfl

/-- The words of a text are found again. -/
theorem splitWords_joinWords {words : List Bytes} (some : words ≠ [])
    (plain : ∀ word ∈ words, Plainly word) : splitWords (joinWords words) = words := by
  obtain ⟨first, rest, begins, clean⟩ := joinWords_begins some plain
  obtain ⟨front, last, ends, clean'⟩ := joinWords_ends some plain
  have trimFront : (joinWords words).dropWhile isSpace = joinWords words := by
    rw [begins]
    exact List.dropWhile_cons_of_neg (by simp [clean])
  have trimBack : (joinWords words).reverse.dropWhile isSpace = (joinWords words).reverse := by
    rw [ends, List.reverse_append, List.reverse_singleton, List.singleton_append]
    exact List.dropWhile_cons_of_neg (by simp [clean'])
  have spaceless : ∀ word ∈ words, (32 : UInt8) ∉ word := by
    intro word member inside
    have space := (plain word member).2 32 inside
    cases space
  have split : (joinWords words).splitOn 32 = words := List.splitOn_intercalate 32 spaceless some
  unfold splitWords
  rw [trimFront, trimBack, List.reverse_reverse]
  simp only [split, List.filter_eq_self, decide_eq_true_eq]
  exact fun word member => (plain word member).1

/-- The length of a text, and one more, is that of its words with a byte behind each. -/
theorem joinWords_length {words : List Bytes} (some : words ≠ []) :
    (joinWords words).length + 1 = (words.map fun word => word.length + 1).sum := by
  induction words with
  | nil => exact absurd rfl some
  | cons word more ih =>
    cases more with
    | nil => simp [joinWords, List.intercalate_singleton]
    | cons next more =>
      have rest := ih (List.cons_ne_nil next more)
      rw [joinWords] at rest ⊢
      rw [List.intercalate_cons_cons, List.map_cons, List.sum_cons, ← rest]
      simp only [List.length_append, List.length_singleton]
      omega

/-- The words of a text with a space between two of them are no longer than the text. -/
theorem joinWords_splitWords (text : Bytes) :
    (joinWords (splitWords text)).length ≤ text.length := by
  by_cases none : splitWords text = []
  · rw [none]
    exact Nat.zero_le _
  · let trimmed := ((text.dropWhile isSpace).reverse.dropWhile isSpace).reverse
    have front := (List.dropWhile_suffix isSpace (l := text)).length_le
    have back := (List.dropWhile_suffix isSpace (l := (text.dropWhile isSpace).reverse)).length_le
    rw [List.length_reverse] at back
    have short : trimmed.length ≤ text.length := by
      rw [List.length_reverse]
      exact back.trans front
    have whole : joinWords (trimmed.splitOn 32) = trimmed := List.intercalate_splitOn 32
    have parts := joinWords_length (List.splitOn_ne_nil 32 trimmed)
    have words := joinWords_length none
    have fewer : (splitWords text).Sublist (trimmed.splitOn 32) := List.filter_sublist
    have less := (fewer.map fun word => word.length + 1).sum_le_sum (fun _ _ => Nat.zero_le _)
    rw [whole] at parts
    omega

/-- A text that is shorter than some words has others. -/
theorem splitWords_shorter {words : List Bytes} {text : Bytes}
    (shorter : text.length < (joinWords words).length) : splitWords text ≠ words := by
  rintro rfl
  exact absurd (joinWords_splitWords text) (not_le.mpr shorter)

/-- What is left of a call for a command but the command. -/
def settled (result : Except Abort (Bool × RedisCommand × RedisProtocol π)) :
    Except Abort (Bool × RedisProtocol π) :=
  result.map fun (ok, _, p) => (ok, p)

/-- An array that is read does not depend on what the output was. -/
theorem settled_readSpecialMultiBulk
    (child : RedisOutput → RedisProtocol π → Except Abort (Bool × RedisOutput × RedisProtocol π))
    (endsTransaction : Bool) (output output' : RedisOutput) (p : RedisProtocol π) (buf : Bytes) :
    (readSpecialMultiBulk child endsTransaction output p buf).map (fun (ok, _, p) => (ok, p)) =
      (readSpecialMultiBulk child endsTransaction output' p buf).map fun (ok, _, p) => (ok, p) := by
  unfold readSpecialMultiBulk
  cases p.parseInteger buf with
  | error abort => rfl
  | ok parsed =>
    obtain ⟨number, p₁⟩ := parsed
    cases number with
    | none => rfl
    | some bulkSize =>
      by_cases nil : bulkSize = -1
      · simp only [bind, Except.bind, if_pos nil]
      · simp only [bind, Except.bind, if_neg nil]
        cases readChildren child bulkSize.toNat p₁ with
        | error abort => rfl
        | ok children =>
          obtain ⟨smbulks, p₂⟩ := children
          cases smbulks with
          | none => rfl
          | some smbulks => rfl

/-- Nor does what comes behind any other line. -/
theorem settled_readReplyLine
    (child : RedisOutput → RedisProtocol π → Except Abort (Bool × RedisOutput × RedisProtocol π))
    (command : Command) (isCommandOut checkReplyType : Bool) (expReplyType : ReplyType)
    (output output' : RedisOutput) (p : RedisProtocol π) (buf : Bytes) :
    (readReplyLine child command isCommandOut checkReplyType expReplyType output p buf).map
        (fun (ok, _, p) => (ok, p)) =
      (readReplyLine child command isCommandOut checkReplyType expReplyType output' p buf).map
        fun (ok, _, p) => (ok, p) := by
  unfold readReplyLine
  split
  · rfl
  · rfl
  · rfl
  · rfl
  · rfl
  · split_ifs
    · rfl
    · rfl
    · exact settled_readSpecialMultiBulk child _ output output' p _
  · rfl

/-- Commands of one name settle in the same way when their reply is read. -/
theorem settled_readReply (p : RedisProtocol π) {c c' : RedisCommand}
    (same : c.command = c'.command) : settled (p.readReply c) = settled (p.readReply c') := by
  have inner : ∀ fuel, (readReplyInner c.command fuel true c.out p).map (fun (ok, _, p) => (ok, p)) =
      (readReplyInner c'.command fuel true c'.out p).map fun (ok, _, p) => (ok, p) := by
    intro fuel
    rw [same]
    cases fuel with
    | zero => rfl
    | succ fuel =>
      unfold readReplyInner
      cases p.readLine with
      | error abort => rfl
      | ok line =>
        obtain ⟨received, buf, p₁⟩ := line
        cases received with
        | false => rfl
        | true => exact settled_readReplyLine _ _ _ _ _ _ _ p₁ buf
  have seen : ∀ c : RedisCommand, settled (p.readReply c) = (readReplyInner c.command
      (p.tcpClient.buffer.readSize + p.tcpClient.os.incoming.length + 1) true c.out p).map
        fun (ok, _, p) => (ok, p) := by
    intro c
    unfold settled readReply
    simp only
    generalize readReplyInner c.command _ true c.out p = result
    cases result with
    | error abort => rfl
    | ok read => rfl
  rw [seen c, seen c', inner]

/-- So they do when the same request is sent for them first. -/
theorem settled_sendRequest [Peer π] (p : RedisProtocol π) {c c' : RedisCommand}
    (same : c.command = c'.command) (request : Bytes) :
    settled (do
        let (ok, c, p) ← p.sendRequest c request
        if !ok then return (false, c, p) else p.readReply c) =
      settled (do
        let (ok, c, p) ← p.sendRequest c' request
        if !ok then return (false, c, p) else p.readReply c) := by
  unfold sendRequest
  cases p.tcpClient.write request p.timeout with
  | error abort => rfl
  | ok written =>
    obtain ⟨ec, tcpClient⟩ := written
    by_cases failed : ec ≠ 0
    · simp only [bind, Except.bind, if_pos failed]
      rfl
    · simp only [bind, Except.bind, if_neg failed]
      exact settled_readReply _ same

/-- So they do when only the request is sent. -/
theorem settled_written [Peer π] (p : RedisProtocol π) (c c' : RedisCommand) (request : Bytes) :
    settled (p.sendRequest c request) = settled (p.sendRequest c' request) := by
  unfold sendRequest
  cases p.tcpClient.write request p.timeout with
  | error abort => rfl
  | ok written =>
    obtain ⟨ec, tcpClient⟩ := written
    by_cases failed : ec ≠ 0
    · simp only [bind, Except.bind, if_pos failed]
      rfl
    · simp only [bind, Except.bind, if_neg failed]
      rfl

/-- Names of commands are words, without a percent sign and without a NUL. -/
theorem plainly_commandStr : ∀ command ∈ Command.named, Plainly command.commandInfo.commandStr ∧
    37 ∉ command.commandInfo.commandStr ∧ 0 ∉ command.commandInfo.commandStr := by
  have names : ∀ command ∈ Command.named, command.commandInfo.commandStr ≠ [] ∧
      command.commandInfo.commandStr.all (fun byte => !isSpace byte) = true ∧
      37 ∉ command.commandInfo.commandStr ∧ 0 ∉ command.commandInfo.commandStr := by
    decide +kernel
  intro command named
  obtain ⟨some, clean, literal⟩ := names command named
  refine ⟨⟨some, fun byte member => ?_⟩, literal⟩
  simpa using List.all_eq_true.mp clean byte member

/-- What the two calls have in common: a known command, whose arguments are words. -/
structure Spoken (c : RedisCommand) : Prop where
  /-- The command has a name. -/
  named : c.command ∈ Command.named
  /-- Its arguments are words. -/
  plain : ∀ arg ∈ c.args, Plainly arg

/-- The words of the text are those of the command. -/
theorem Spoken.splitWords {c : RedisCommand} (spoken : Spoken c) :
    splitWords (joinWords (requestOf c)) = requestOf c := by
  apply splitWords_joinWords (List.cons_ne_nil _ _)
  intro word member
  rcases List.mem_cons.mp member with rfl | member
  · exact (plainly_commandStr c.command spoken.named).1
  · exact spoken.plain word member

/-- A text that is not too long has few words. -/
theorem Spoken.few {c : RedisCommand} (spoken : Spoken c)
    (small : (joinWords (requestOf c)).length < 2 ^ 31) : c.args.length + 1 < 2 ^ 31 := by
  have words := splitWords_length (joinWords (requestOf c))
  rw [spoken.splitWords, requestOf, List.length_cons] at words
  rw [requestOf] at small
  omega

/-- A text with the words of a command is checked and sent as the command is. -/
theorem Spoken.writeCommandv [Peer π] {c : RedisCommand} (spoken : Spoken c)
    (small : (joinWords (requestOf c)).length < 2 ^ 31) (p : RedisProtocol π) (c' : RedisCommand) :
    p.writeCommandv c' (joinWords (requestOf c)) = (do
      let (ok, c', p) :=
        p.checkArgc ⟨c.command, requestOf c, c'.out⟩ (toInt32 c.args.length)
      if !ok then return (false, c', p) else p.sendRequest c' (commandText c)) := by
  have few := spoken.few small
  have one : toInt32 c.args.length = c.args.length := Os.toInt32_small (by omega)
  have count : toInt32 (requestOf c).length = toInt32 c.args.length + 1 := by
    have both : toInt32 (c.args.length + 1) = (c.args.length + 1 : Nat) := Os.toInt32_small few
    change toInt32 (c.args.length + 1) = _
    rw [both, one]
    omega
  have some : toInt32 (requestOf c).length ≠ 0 := by omega
  have found : Command.ofName ((requestOf c).headD []) = c.command :=
    Command.ofName_named c.command spoken.named
  have known : c.command ≠ .noop := by
    intro noop
    have named := spoken.named
    rw [noop] at named
    exact absurd named (by decide)
  have text : ascii "*" ++ Decimal.intText (toInt32 (requestOf c).length) ++ redisLineEnd ++
      (requestOf c).flatMap bulkText = commandText c := by
    rw [count, commandText, requestOf, List.flatMap_cons, ← List.append_assoc]
  have given : toInt32 (requestOf c).length - 1 = toInt32 c.args.length := by omega
  unfold RedisProtocol.writeCommandv
  simp only [spoken.splitWords, if_neg some, found, if_neg known, given, text]

/-- So it is written in the same way. -/
theorem Spoken.settled_writeCommandv [Peer π] {c : RedisCommand} (spoken : Spoken c)
    (small : (joinWords (requestOf c)).length < 2 ^ 31) (p : RedisProtocol π) (c' : RedisCommand) :
    settled (p.writeCommandv c' (joinWords (requestOf c))) = settled (p.writeCommand c) := by
  rw [spoken.writeCommandv small]
  have argc : (⟨c.command, requestOf c, c'.out⟩ : RedisCommand).commandInfo.argc =
    c.commandInfo.argc := rfl
  by_cases passes : argcMatches c.commandInfo.argc (toInt32 c.args.length) = true
  · rw [Passes.writeCommand passes p, checkArgc, argc, if_pos passes]
    exact settled_written p _ c (commandText c)
  · rw [writeCommand, checkArgc, checkArgc, argc, if_neg passes, if_neg passes]
    rfl

/-- It is executed in the same way. -/
theorem Spoken.settled_execCommandv [Peer π] {c : RedisCommand} (spoken : Spoken c)
    (small : (joinWords (requestOf c)).length < 2 ^ 31) (p : RedisProtocol π) (c' : RedisCommand) :
    settled (p.execCommandv c' (joinWords (requestOf c))) = settled (p.execCommand c) := by
  have argc : (⟨c.command, requestOf c, c'.out⟩ : RedisCommand).commandInfo.argc =
    c.commandInfo.argc := rfl
  unfold execCommandv execCommand
  rw [spoken.writeCommandv small]
  by_cases passes : argcMatches c.commandInfo.argc (toInt32 c.args.length) = true
  · rw [Passes.writeCommand passes p, checkArgc, argc, if_pos passes]
    have same : (⟨c.command, requestOf c, c'.out⟩ : RedisCommand).command = c.command := rfl
    exact settled_sendRequest p same (commandText c)
  · rw [writeCommand, checkArgc, checkArgc, argc, if_neg passes, if_neg passes]
    rfl

/-- Two calls that settle in the same way both abort, or both return the same with the same
connection. -/
theorem settled_cases {first second : Except Abort (Bool × RedisCommand × RedisProtocol π)}
    (same : settled first = settled second) :
    (∃ abort, first = .error abort ∧ second = .error abort) ∨
      ∃ ok c c' p, first = .ok (ok, c, p) ∧ second = .ok (ok, c', p) := by
  cases first with
  | error abort =>
    cases second with
    | error abort' =>
      have abort_eq : abort = abort' := Except.error.inj same
      rw [abort_eq]
      exact Or.inl ⟨abort', rfl, rfl⟩
    | ok result => cases same
  | ok result =>
    cases second with
    | error abort => cases same
    | ok result' =>
      obtain ⟨ok, c, p⟩ := result
      obtain ⟨ok', c', p'⟩ := result'
      have both : (ok, p) = (ok', p') := Except.ok.inj same
      obtain ⟨rfl, rfl⟩ := Prod.mk.inj both
      exact Or.inr ⟨ok, c, c', p, rfl, rfl⟩

/-- A byte of a text, other than a space, is one of a word. -/
theorem mem_joinWords {words : List Bytes} {byte : UInt8} (other : byte ≠ 32) :
    byte ∈ joinWords words ↔ ∃ word ∈ words, byte ∈ word := by
  induction words with
  | nil => simp [joinWords]
  | cons word more ih =>
    cases more with
    | nil => simp [joinWords, List.intercalate_singleton]
    | cons next more =>
      rw [joinWords] at ih ⊢
      rw [List.intercalate_cons_cons, List.mem_append, List.mem_append, List.mem_singleton, ih,
        List.exists_mem_cons_iff _ word]
      tauto

/-- The text of a command is a format that is printed as it is: no argument has a percent sign or a
NUL, and the length is an `int`. -/
structure Literal (c : RedisCommand) : Prop where
  /-- No argument has a percent sign. -/
  percent : ∀ arg ∈ c.args, 37 ∉ arg
  /-- No argument has a NUL. -/
  nul : ∀ arg ∈ c.args, 0 ∉ arg
  /-- The length is an `int`. -/
  small : (joinWords (requestOf c)).length < 2 ^ 31

/-- A byte that is in no name is in the text if it is in an argument. -/
theorem Spoken.mem_text {c : RedisCommand} {byte : UInt8} (other : byte ≠ 32)
    (foreign : byte ∉ c.commandInfo.commandStr) :
    byte ∈ joinWords (requestOf c) ↔ ∃ arg ∈ c.args, byte ∈ arg := by
  rw [mem_joinWords other, requestOf, List.exists_mem_cons_iff]
  simp [foreign]

variable {α : Type}

/-- Such a text is printed as it is, and from any other come other words. -/
theorem Spoken.printed {c : RedisCommand} (spoken : Spoken c)
    {print : Conversions (List UInt8) α} (starves : Starves print) :
    (Literal c → expand print (pieces (joinWords (requestOf c))) [] =
      some (joinWords (requestOf c))) ∧
    ∀ text, expand print (pieces (joinWords (requestOf c))) [] = some text →
      text.length < 2 ^ 31 → Literal c ∧ text = joinWords (requestOf c) ∨
        RedisProtocol.splitWords text ≠ requestOf c := by
  obtain ⟨-, percent, nul⟩ := plainly_commandStr c.command spoken.named
  have percents := Spoken.mem_text (show (37 : UInt8) ≠ 32 by decide) percent
  have nuls := Spoken.mem_text (show (0 : UInt8) ≠ 32 by decide) nul
  constructor
  · intro literal
    apply Printf.expand_pieces
    · rw [percents]
      rintro ⟨arg, member, inside⟩
      exact literal.percent arg member inside
    · rw [nuls]
      rintro ⟨arg, member, inside⟩
      exact literal.nul arg member inside
  · intro text expands small
    rcases starves.pieces expands with ⟨same, percent, nul⟩ | shorter
    · left
      rw [percents] at percent
      rw [nuls] at nul
      rw [same] at small
      exact ⟨⟨fun arg member inside => percent ⟨arg, member, inside⟩,
        fun arg member inside => nul ⟨arg, member, inside⟩, small⟩, same⟩
    · exact Or.inr (splitWords_shorter shorter)

/-- A text that is not acceptable is refused, and nothing is sent. -/
theorem writeCommandv_refused [Peer π] {text : Bytes} (refused : ¬ Acceptable text)
    (small : text.length < 2 ^ 31) (p : RedisProtocol π) (c : RedisCommand) :
    ∃ c' error, p.writeCommandv c text = .ok (false, c', { p with error := error }) := by
  have few : (splitWords text).length < 2 ^ 31 := (splitWords_length text).trans_lt small
  have count : toInt32 (splitWords text).length = (splitWords text).length := Os.toInt32_small few
  rw [writeCommandv]
  by_cases none : toInt32 (splitWords text).length = 0
  · exact ⟨_, _, if_pos none⟩
  · simp only [if_neg none]
    by_cases invalid : Command.ofName ((splitWords text).headD []) = .noop
    · exact ⟨_, _, if_pos invalid⟩
    · simp only [if_neg invalid]
      have argc : ¬ argcMatches (Command.ofName ((splitWords text).headD [])).commandInfo.argc
          (toInt32 (splitWords text).length - 1) = true := by
        rw [count]
        exact fun fits => refused ⟨invalid, fits⟩
      obtain ⟨error, check⟩ := checkArgc_refused
        (c := ⟨Command.ofName ((splitWords text).headD []), splitWords text, c.out⟩) argc p
      rw [check]
      exact ⟨_, error, rfl⟩

/-- What the server has heard behind a call for a command. -/
def heard (result : Except Abort (Bool × RedisCommand × RedisProtocol (Listening π))) :
    Except Abort Bytes :=
  result.map fun (_, _, p) => p.tcpClient.os.peer.heard

/-- Calls that settle in the same way have been heard in the same way. -/
theorem heard_settled
    {first second : Except Abort (Bool × RedisCommand × RedisProtocol (Listening π))}
    (same : settled first = settled second) : heard first = heard second := by
  have each (result : Except Abort (Bool × RedisCommand × RedisProtocol (Listening π))) :
      heard result = (settled result).map fun (_, p) => p.tcpClient.os.peer.heard := by
    cases result with
    | error abort => rfl
    | ok result => rfl
  rw [each, each, same]

/-- A request that can be sent is heard whole. -/
theorem heard_sendRequest [Peer π] {p : RedisProtocol (Listening π)} (valid : p.Valid)
    (send : p.CanSend) (c : RedisCommand) {request : Bytes} (some : request ≠ [])
    (small : request.length < 2 ^ 31) :
    heard (p.sendRequest c request) = .ok (p.tcpClient.os.peer.heard ++ request) := by
  rcases sendRequest_cases valid c some small with
    ⟨-, cannot⟩ | ⟨-, -, -, -, -, -, cannot⟩ | ⟨client, sent, writes, -⟩
  · exact absurd send cannot
  · exact absurd send cannot
  · rw [sent]
    change Except.ok client.os.peer.heard = _
    rw [writes.frame]
    rfl

end RedisProtocol

namespace Redis2

open RedisProtocol (Acceptable Literal Passes Plainly Spoken commandText commandvText formatBuf heard
  joinWords requestOf splitWords)

variable {π : Type}

/-- `add_command` with a format. -/
def addFormat [Peer π] {σ α : Type} (r : Redis2 π) (command : RedisCommand)
    (print : Conversions σ α) (format : List (Piece σ)) (ap : VaList α) :
    Formatted (Except Abort (Bool × Redis2 π)) :=
  let (connected, r) := r.checkConnect
  if !connected then .done (.ok (false, r))
  else
    (r.proto.execFormat command print format ap).map fun executed => do
      let (ok, innerCommand, proto) ← executed
      let r := { r with proto := proto }
      if !ok then return (false, r)
      else return (true, { r with transactionCmds := r.transactionCmds ++ [innerCommand] })

/-- On an open connection the text is printed, and goes the way of a printed text. -/
theorem addFormat_open [Peer π] {σ α : Type} {r r₁ : Redis2 π}
    (connects : r.checkConnect = (true, r₁)) (c : RedisCommand) (print : Conversions σ α)
    (format : List (Piece σ)) (ap : VaList α) :
    r.addFormat c print format ap = (formatBuf print format ap).map (r.addCommandv c) := by
  unfold addFormat addCommandv
  rw [connects]
  simp only [Bool.not_true, Bool.false_eq_true, if_false, RedisProtocol.execFormat]
  cases formatBuf print format ap with
  | undefined => rfl
  | endless => rfl
  | done text =>
    simp only [Formatted.map, protoExecCommandv]
    cases r₁.proto.execCommandv c text with
    | error abort => rfl
    | ok executed => rfl

/-- On any other it is not. -/
theorem addFormat_closed [Peer π] {σ α : Type} {r r₁ : Redis2 π}
    (connects : r.checkConnect = (false, r₁)) (c : RedisCommand) (print : Conversions σ α)
    (format : List (Piece σ)) (ap : VaList α) :
    r.addFormat c print format ap = .done (.ok (false, r₁)) := by
  unfold addFormat
  rw [connects]
  rfl

/-- A text that is found is queued as a printed text is. -/
theorem addFormat_found [Peer π] {σ α : Type} (r : Redis2 π) (c : RedisCommand)
    {print : Conversions σ α} {format : List (Piece σ)} {ap : VaList α} {text : Bytes}
    (found : formatBuf print format ap = .done text) :
    r.addFormat c print format ap = .done (r.addCommandv c text) := by
  cases connects : r.checkConnect with
  | mk connected r₁ =>
    cases connected with
    | false =>
      rw [addFormat_closed connects, addCommandv, connects]
      rfl
    | true =>
      rw [addFormat_open connects, found]
      rfl

/-- What is seen of a call that queues a command: the result, the connection behind it with what the
server has received, and how many commands are queued. -/
def queuing (result : Except Abort (Bool × Redis2 π)) : Except Abort (Bool × RedisProtocol π × Nat) :=
  result.map fun (ok, r) => (ok, r.proto, r.transactionCmds.length)

/-- The connection is open, and the server accepts the command. -/
def AcceptsCommand [Peer π] (r : Redis2 π) (c : RedisCommand) : Prop :=
  r.checkConnect.1 = true ∧ ∃ c' p, r.checkConnect.2.proto.execCommand c = .ok (true, c', p)

/-- The client behind a call for a command: if it is accepted, the command is queued. -/
def enqueue (r : Redis2 π) (ok : Bool) (c : RedisCommand) (p : RedisProtocol π) : Redis2 π :=
  { r with proto := p, transactionCmds := r.transactionCmds ++ if ok then [c] else [] }

/-- On an open connection a command is executed, and queued if it is accepted. -/
theorem addCommand_eq [Peer π] {r r₁ : Redis2 π} (connects : r.checkConnect = (true, r₁))
    (c : RedisCommand) : r.addCommand c =
      (r₁.proto.execCommand c).map fun (ok, c, p) => (false, r₁.enqueue ok c p) := by
  unfold addCommand
  rw [connects]
  simp only [protoExecCommand]
  cases r₁.proto.execCommand c with
  | error abort => rfl
  | ok executed =>
    obtain ⟨ok, c, p⟩ := executed
    cases ok with
    | false => simp [enqueue, bind, Except.bind, pure, Except.pure, Except.map]
    | true => rfl

/-- So is a text, with the result that this has. -/
theorem addCommandv_eq [Peer π] {r r₁ : Redis2 π} (connects : r.checkConnect = (true, r₁))
    (c : RedisCommand) (buf : Bytes) : r.addCommandv c buf =
      (r₁.proto.execCommandv c buf).map fun (ok, c, p) => (ok, r₁.enqueue ok c p) := by
  unfold addCommandv
  rw [connects]
  simp only [protoExecCommandv]
  cases r₁.proto.execCommandv c buf with
  | error abort => rfl
  | ok executed =>
    obtain ⟨ok, c, p⟩ := executed
    cases ok with
    | false => simp [enqueue, bind, Except.bind, pure, Except.pure, Except.map]
    | true => rfl

/-- Without a connection neither queues anything. -/
theorem addCommand_closed [Peer π] {r r₁ : Redis2 π} (connects : r.checkConnect = (false, r₁))
    (c c' : RedisCommand) (buf : Bytes) :
    r.addCommand c = .ok (false, r₁) ∧ r.addCommandv c' buf = .ok (false, r₁) := by
  unfold addCommand addCommandv
  rw [connects]
  exact ⟨rfl, rfl⟩

/-- A command that is accepted is one more in the queue. -/
theorem length_enqueue (r : Redis2 π) (ok : Bool) (c : RedisCommand) (p : RedisProtocol π) :
    (r.enqueue ok c p).transactionCmds.length =
      r.transactionCmds.length + if ok then 1 else 0 := by
  rw [enqueue, List.length_append]
  cases ok with
  | false => rfl
  | true => rfl

/-- With a text of its words in place of the command a call differs exactly where the command is
accepted, and there in the result only. It returns true exactly there, and queues one command. -/
theorem addCommandv_words [Peer π] (r : Redis2 π) {c : RedisCommand} (spoken : Spoken c)
    (small : (joinWords (requestOf c)).length < 2 ^ 31) (c' : RedisCommand) :
    (queuing (r.addCommand c) = queuing (r.addCommandv c' (joinWords (requestOf c))) ↔
      ¬ r.AcceptsCommand c) ∧
    (queuing (r.addCommand c)).map Prod.snd =
      (queuing (r.addCommandv c' (joinWords (requestOf c)))).map Prod.snd ∧
    ∀ ok r', r.addCommandv c' (joinWords (requestOf c)) = .ok (ok, r') →
      (ok = true ↔ r.AcceptsCommand c) ∧
        r'.transactionCmds.length = r.transactionCmds.length + if ok then 1 else 0 := by
  cases connects : r.checkConnect with
  | mk connected r₁ =>
    have queue : r₁.transactionCmds = r.transactionCmds :=
      (congrArg (fun checked => checked.2.transactionCmds) connects).symm
    cases connected with
    | false =>
      have closed : ¬ r.AcceptsCommand c := by
        rintro ⟨connected, -⟩
        rw [connects] at connected
        cases connected
      obtain ⟨first, second⟩ := addCommand_closed connects c c' (joinWords (requestOf c))
      rw [first, second]
      refine ⟨iff_of_true rfl closed, rfl, fun ok r' returns => ?_⟩
      cases returns
      exact ⟨iff_of_false Bool.false_ne_true closed, by rw [queue]; rfl⟩
    | true =>
      have settles := spoken.settled_execCommandv small r₁.proto c'
      rw [addCommand_eq connects, addCommandv_eq connects]
      unfold AcceptsCommand
      rw [connects]
      rcases RedisProtocol.settled_cases settles with
        ⟨abort, second, first⟩ | ⟨ok, c₂, c₁, p, second, first⟩
      · have fails (view : Bool × RedisCommand × RedisProtocol π → Bool × Redis2 π) :
            (Except.error abort : Except Abort _).map view = .error abort := rfl
        rw [first, second, fails, fails]
        refine ⟨iff_of_true rfl ?_, rfl, fun ok r' returns => by cases returns⟩
        rintro ⟨-, c₁, p, returns⟩
        cases returns
      · rw [first, second]
        have accepted : (true = true ∧ ∃ c₃ p₃,
            (Except.ok (ok, c₁, p) : Except Abort _) = .ok (true, c₃, p₃)) ↔ ok = true := by
          constructor
          · rintro ⟨-, c₃, p₃, returns⟩
            exact congrArg Prod.fst (Except.ok.inj returns)
          · rintro rfl
            exact ⟨rfl, c₁, p, rfl⟩
        have length (c : RedisCommand) : (r₁.enqueue ok c p).transactionCmds.length =
            r.transactionCmds.length + if ok then 1 else 0 := by
          rw [length_enqueue, queue]
        refine ⟨?_, ?_, fun ok' r' returns => ?_⟩
        · rw [accepted]
          change Except.ok (false, p, (r₁.enqueue ok c₁ p).transactionCmds.length) =
            Except.ok (ok, p, (r₁.enqueue ok c₂ p).transactionCmds.length) ↔ _
          rw [length, length]
          cases ok with
          | false => simp
          | true => simp
        · change Except.ok (p, (r₁.enqueue ok c₁ p).transactionCmds.length) =
            Except.ok (p, (r₁.enqueue ok c₂ p).transactionCmds.length)
          rw [length, length]
        · cases returns
          exact ⟨accepted.symm, length c₂⟩

section Agreement

variable {α : Type}

/-- What is seen of such a call without the connection. -/
def queued (result : Except Abort (Bool × Redis2 π)) : Except Abort (Bool × Nat) :=
  result.map fun (ok, r) => (ok, r.transactionCmds.length)

/-- Calls of which the same is seen with the connection. -/
theorem queued_queuing {first second : Except Abort (Bool × Redis2 π)}
    (same : queuing first = queuing second) : queued first = queued second := by
  have each (result : Except Abort (Bool × Redis2 π)) :
      queued result = (queuing result).map fun (ok, _, length) => (ok, length) := by
    cases result with
    | error abort => rfl
    | ok result => rfl
  rw [each, each, same]

variable [Peer π]

/-- The two ways to queue a command agree: with the command, and with its words as the format and no
further arguments. -/
structure AddsAlike (r : Redis2 (Listening π)) (c c' : RedisCommand)
    (print : Conversions (List UInt8) α) : Prop where
  /-- They return the same, and leave as many commands queued. -/
  returns : (r.addFormat c' print (pieces (joinWords (requestOf c))) (.args [])).map queued =
    .done (queued (r.addCommand c))
  /-- The server hears the same. -/
  writes : r.checkConnect.1 = true →
    (r.checkConnect.2.proto.writeFormat c' print (pieces (joinWords (requestOf c)))
      (.args [])).map heard = .done (heard (r.checkConnect.2.proto.writeCommand c))
  /-- The result is true exactly if the command is accepted, and then it is queued. -/
  accepts : ∀ ok r', r.addCommand c = .ok (ok, r') → (ok = true ↔ r.AcceptsCommand c) ∧
    r'.transactionCmds.length = r.transactionCmds.length + if ok then 1 else 0

/-- Neither call has a command accepted: there is no connection, or the text is printed as it is and
the server does not accept the command, or the arguments are too few or too many and so are the
words that are printed. -/
def Unaccepted (r : Redis2 π) (c : RedisCommand) (print : Conversions (List UInt8) α) : Prop :=
  r.checkConnect.1 = false ∨ Literal c ∧ ¬ r.AcceptsCommand c ∨
    ¬ Passes c ∧ ∃ text, expand print (pieces (joinWords (requestOf c))) [] = some text ∧
      text.length < 2 ^ 31 ∧ ¬ Acceptable text

/-- A command that is not accepted is not queued, and the result says so. -/
theorem addCommand_unaccepted {r : Redis2 π} {c : RedisCommand} (unaccepted : ¬ r.AcceptsCommand c)
    {ok : Bool} {r' : Redis2 π} (returns : r.addCommand c = .ok (ok, r')) :
    (ok = true ↔ r.AcceptsCommand c) ∧
      r'.transactionCmds.length = r.transactionCmds.length + if ok then 1 else 0 := by
  cases connects : r.checkConnect with
  | mk connected r₁ =>
    have queue : r₁.transactionCmds = r.transactionCmds :=
      (congrArg (fun checked => checked.2.transactionCmds) connects).symm
    cases connected with
    | false =>
      rw [(addCommand_closed connects c c []).1] at returns
      cases returns
      exact ⟨iff_of_false Bool.false_ne_true unaccepted, by rw [queue]; rfl⟩
    | true =>
      rw [addCommand_eq connects] at returns
      cases executes : r₁.proto.execCommand c with
      | error abort =>
        rw [executes] at returns
        cases returns
      | ok executed =>
        obtain ⟨accepted, c₁, p⟩ := executed
        rw [executes] at returns
        cases returns
        cases accepted with
        | true => exact absurd ⟨by rw [connects], c₁, p, by rw [connects, executes]⟩ unaccepted
        | false =>
          refine ⟨iff_of_false Bool.false_ne_true unaccepted, ?_⟩
          rw [length_enqueue, queue]

/-- For a command that is accepted the result is false. -/
theorem AcceptsCommand.addCommand {r : Redis2 π} {c : RedisCommand}
    (accepted : r.AcceptsCommand c) : ∃ r', r.addCommand c = .ok (false, r') := by
  obtain ⟨connected, c', p, returns⟩ := accepted
  have connects : r.checkConnect = (true, r.checkConnect.2) := Prod.ext connected rfl
  rw [addCommand_eq connects, returns]
  exact ⟨_, rfl⟩

/-- A command whose arguments are refused is not accepted. -/
theorem refused_unaccepted {r : Redis2 π} {c : RedisCommand} (refused : ¬ Passes c) :
    ¬ r.AcceptsCommand c := by
  rintro ⟨-, c', p, returns⟩
  obtain ⟨text, writes⟩ := RedisProtocol.writeCommand_refused refused r.checkConnect.2.proto
  rw [RedisProtocol.execCommand, writes] at returns
  cases returns

/-- Where neither is accepted the calls agree. -/
theorem Unaccepted.addsAlike {print : Conversions (List UInt8) α} (starves : Starves print)
    {r : Redis2 (Listening π)} {c : RedisCommand} (spoken : Spoken c)
    (unaccepted : r.Unaccepted c print) (c' : RedisCommand) : r.AddsAlike c c' print := by
  rcases unaccepted with closed | ⟨literal, unaccepted⟩ | ⟨refused, text, expands, small, unknown⟩
  · have connects : r.checkConnect = (false, r.checkConnect.2) := Prod.ext closed rfl
    have notAccepted : ¬ r.AcceptsCommand c := by
      rintro ⟨connected, -⟩
      rw [closed] at connected
      cases connected
    refine ⟨?_, fun connected => ?_, fun _ _ returns => addCommand_unaccepted notAccepted returns⟩
    · rw [addFormat_closed connects, (addCommand_closed connects c c []).1]
      rfl
    · rw [closed] at connected
      cases connected
  · have found := (RedisProtocol.formatBuf_done_iff starves).mpr
      ⟨(spoken.printed starves).1 literal, literal.small⟩
    have same := (addCommandv_words r spoken literal.small c').1.mpr unaccepted
    refine ⟨?_, fun _ => ?_, fun _ _ returns => addCommand_unaccepted unaccepted returns⟩
    · rw [addFormat_found r c' found]
      exact congrArg Formatted.done (queued_queuing same).symm
    · rw [RedisProtocol.writeFormat, found]
      exact congrArg Formatted.done
        (RedisProtocol.heard_settled (spoken.settled_writeCommandv literal.small _ c'))
  · have found := (RedisProtocol.formatBuf_done_iff starves).mpr ⟨expands, small⟩
    let p := r.checkConnect.2.proto
    obtain ⟨c₁, error₁, writes₁⟩ := RedisProtocol.writeCommandv_refused unknown small p c'
    obtain ⟨error₂, writes₂⟩ := RedisProtocol.writeCommand_refused refused p
    refine ⟨?_, fun _ => ?_,
      fun _ _ returns => addCommand_unaccepted (refused_unaccepted refused) returns⟩
    · rw [addFormat_found r c' found]
      refine congrArg Formatted.done ?_
      cases connects : r.checkConnect with
      | mk connected r₁ =>
        cases connected with
        | false =>
          obtain ⟨first, second⟩ := addCommand_closed connects c c' text
          rw [first, second]
        | true =>
          have here : p = r₁.proto := congrArg (fun checked => checked.2.proto) connects
          rw [here] at writes₁ writes₂
          rw [addCommand_eq connects, addCommandv_eq connects, RedisProtocol.execCommandv,
            RedisProtocol.execCommand, writes₁, writes₂]
          rfl
    · rw [RedisProtocol.writeFormat, found]
      refine congrArg Formatted.done ?_
      change heard (p.writeCommandv c' text) = heard (p.writeCommand c)
      rw [writes₁, writes₂]
      rfl

/-- If the server hears the same the text is printed, and it has the words of the command or both are
refused. -/
theorem AddsAlike.unaccepted {print : Conversions (List UInt8) α} (starves : Starves print)
    {r : Redis2 (Listening π)} {c c' : RedisCommand} (spoken : Spoken c)
    (valid : r.checkConnect.2.proto.Valid) (send : r.checkConnect.2.proto.CanSend)
    (small : (commandText c).length < 2 ^ 31)
    (smallv : ∀ text, expand print (pieces (joinWords (requestOf c))) [] = some text →
      (commandvText (splitWords text)).length < 2 ^ 31)
    (alike : r.AddsAlike c c' print) : r.Unaccepted c print := by
  by_cases closed : r.checkConnect.1 = false
  · exact Or.inl closed
  · rw [Bool.not_eq_false] at closed
    have writes := alike.writes closed
    let p := r.checkConnect.2.proto
    cases found : formatBuf print (pieces (joinWords (requestOf c))) (.args []) with
    | undefined =>
      rw [RedisProtocol.writeFormat, found] at writes
      cases writes
    | endless =>
      rw [RedisProtocol.writeFormat, found] at writes
      cases writes
    | done text =>
      obtain ⟨expands, short⟩ := (RedisProtocol.formatBuf_done_iff starves).mp found
      rw [RedisProtocol.writeFormat, found] at writes
      have same : heard (p.writeCommandv c' text) = heard (p.writeCommand c) := by
        simpa [Formatted.map] using writes
      have request : commandText c = Resp.request (requestOf c) :=
        RedisProtocol.commandText_small small
      have some : commandText c ≠ [] := by
        rw [request]
        exact List.cons_ne_nil _ _
      have somev : Resp.request (splitWords text) ≠ [] := List.cons_ne_nil _ _
      have requestv := RedisProtocol.commandvText_small (smallv text expands)
      by_cases known : Acceptable text
      · have sentv : heard (p.writeCommandv c' text) =
            .ok (p.tcpClient.os.peer.heard ++ Resp.request (splitWords text)) := by
          rw [known.writeCommandv short]
          exact RedisProtocol.heard_sendRequest valid send _ somev (requestv ▸ smallv text expands)
        by_cases passes : Passes c
        · have sent : heard (p.writeCommand c) =
              .ok (p.tcpClient.os.peer.heard ++ Resp.request (requestOf c)) := by
            rw [passes.writeCommand, ← request]
            exact RedisProtocol.heard_sendRequest valid send c some small
          rw [sentv, sent] at same
          have equal := List.append_cancel_left (Except.ok.inj same)
          have parsed := Resp.parseRequest_request (splitWords text) []
          rw [equal, Resp.parseRequest_request] at parsed
          have words : requestOf c = splitWords text :=
            congrArg Prod.fst (Option.some.inj parsed)
          rcases (spoken.printed starves).2 text expands short with ⟨literal, -⟩ | others
          · refine Or.inr (Or.inl ⟨literal, fun accepted => ?_⟩)
            obtain ⟨r', returns⟩ := accepted.addCommand
            exact Bool.noConfusion ((alike.accepts false r' returns).1.mpr accepted)
          · exact absurd words.symm others
        · obtain ⟨error, refused⟩ := RedisProtocol.writeCommand_refused passes p
          rw [sentv, refused] at same
          have equal : p.tcpClient.os.peer.heard ++ Resp.request (splitWords text) =
            p.tcpClient.os.peer.heard := Except.ok.inj same
          exact absurd (List.append_cancel_left (equal.trans (List.append_nil _).symm)) somev
      · refine Or.inr (Or.inr ⟨fun passes => ?_, text, expands, short, known⟩)
        obtain ⟨c₁, error, refused⟩ := RedisProtocol.writeCommandv_refused known short p c'
        rw [passes.writeCommand, RedisProtocol.heard_sendRequest valid send c some small,
          refused] at same
        have equal : p.tcpClient.os.peer.heard =
          p.tcpClient.os.peer.heard ++ commandText c := Except.ok.inj same
        exact absurd (List.append_cancel_left (equal.symm.trans (List.append_nil _).symm)) some

/-- The two ways to queue a command agree where neither has a command accepted, and on a connection
that can send both requests only there. With a text that is printed as it is they differ in the
result only: the format overload returns true exactly where the command is accepted, and queues
it. -/
theorem addCommand_agrees_iff {print : Conversions (List UInt8) α} (starves : Starves print)
    (r : Redis2 (Listening π)) {c : RedisCommand} (spoken : Spoken c) (c' : RedisCommand) :
    (r.Unaccepted c print → r.AddsAlike c c' print) ∧
    (r.proto.Valid → r.checkConnect.2.proto.CanSend → (commandText c).length < 2 ^ 31 →
      (∀ text, expand print (pieces (joinWords (requestOf c))) [] = some text →
        (commandvText (splitWords text)).length < 2 ^ 31) →
      (r.AddsAlike c c' print ↔ r.Unaccepted c print)) ∧
    (Literal c →
      ∃ result, r.addFormat c' print (pieces (joinWords (requestOf c))) (.args []) = .done result ∧
        (queuing (r.addCommand c)).map Prod.snd = (queuing result).map Prod.snd ∧
        ∀ ok r', result = .ok (ok, r') → (ok = true ↔ r.AcceptsCommand c) ∧
          r'.transactionCmds.length = r.transactionCmds.length + if ok then 1 else 0) := by
  refine ⟨fun unaccepted => unaccepted.addsAlike starves spoken c',
    fun valid send small smallv => ?_, fun literal => ?_⟩
  · have valid₁ : r.checkConnect.2.proto.Valid := by
      obtain ⟨connected, p, looks, valid₁⟩ := checkConnect_valid valid
      rw [looks]
      exact valid₁
    exact ⟨fun alike => alike.unaccepted starves spoken valid₁ send small smallv,
      fun unaccepted => unaccepted.addsAlike starves spoken c'⟩
  · have found := (RedisProtocol.formatBuf_done_iff starves).mpr
      ⟨(spoken.printed starves).1 literal, literal.small⟩
    obtain ⟨-, same, told⟩ := addCommandv_words r spoken literal.small c'
    exact ⟨_, addFormat_found r c' found, same, told⟩

end Agreement

/-- The conversion `%s`. -/
def cString : Conversions (List UInt8) Bytes
  | [115], arg :: args => some (arg, args)
  | _, _ => none

/-- It needs an argument, as any other does. -/
theorem cString_starves : Starves cString := by
  intro spec
  simp [cString]

/-- GET of a key. -/
def getOf (key : Bytes) : RedisCommand := (RedisCommand.new .get).pushArg key

/-- A key that is one word. -/
theorem getOf_spoken {key : Bytes} (plain : Plainly key) : Spoken (getOf key) := by
  refine ⟨show Command.get ∈ Command.named by decide, fun arg member => ?_⟩
  rw [show arg = key from List.mem_singleton.mp member]
  exact plain

/-- A client in a transaction, whose server has this answer to the command that comes next. -/
def answeredNext (answer : Bytes) : Redis2 (Listening ScriptedPeer) where
  proto := { (RedisProtocol.connect (.new (ascii "localhost") (ascii "6379") 1000
    (.start ⟨⟨[[], answer]⟩, []⟩ []))).2 with transactionMode := true }
  dbIndex := 0
  dbIndexSelectFailure := true
  transactionCmds := []

/-- Such a client is valid, and can send. -/
theorem answeredNext_valid (answer : Bytes) : (answeredNext answer).proto.Valid ∧
    (answeredNext answer).checkConnect.2.proto.CanSend := by
  have start : (TcpClient.new (Os.start (⟨⟨[[], answer]⟩, []⟩ : Listening ScriptedPeer)
      [])).Valid :=
    TcpClient.closed_valid rfl TcpClientBuffer.new_valid TcpClientBuffer.new_unread rfl
  have connected := TcpClient.connect_valid start
  exact ⟨⟨connected.buffer, connected.fd, connected.closed⟩, show (0 : Int) ≤ 3 by decide,
    fun outcome member => by cases member⟩

/-- A GET that is queued and one that is refused: they agree on the second only. -/
theorem addCommand_agrees_iff_get :
    ¬ (answeredNext (ascii "+QUEUED\r\n")).AddsAlike (getOf (ascii "k")) (.new .get) cString ∧
    (answeredNext (ascii "-ERR\r\n")).AddsAlike (getOf (ascii "k")) (.new .get) cString ∧
    ∃ result, (answeredNext (ascii "+QUEUED\r\n")).addFormat (.new .get) cString
      (pieces (ascii "GET k")) (.args []) = .done result ∧
      ∀ ok r', result = .ok (ok, r') → ok = true ∧ r'.transactionCmds.length = 1 := by
  have spoken : Spoken (getOf (ascii "k")) := getOf_spoken ⟨by decide, by decide +kernel⟩
  have text : joinWords (requestOf (getOf (ascii "k"))) = ascii "GET k" := by decide +kernel
  have literal : Literal (getOf (ascii "k")) := ⟨by decide, by decide, by decide +kernel⟩
  have passes : Passes (getOf (ascii "k")) := by
    unfold Passes
    decide
  have queuedShows : ((answeredNext (ascii "+QUEUED\r\n")).checkConnect.2.proto.execCommand
      (getOf (ascii "k"))).toOption.map (fun returned => returned.1) = some true := by
    decide +kernel
  have refusedShows : ((answeredNext (ascii "-ERR\r\n")).checkConnect.2.proto.execCommand
      (getOf (ascii "k"))).toOption.map (fun returned => returned.1) = some false := by
    decide +kernel
  obtain ⟨⟨ok, c', p⟩, returns, rfl⟩ := returned_of_view queuedShows
  have accepted : (answeredNext (ascii "+QUEUED\r\n")).AcceptsCommand (getOf (ascii "k")) :=
    ⟨by decide +kernel, c', p, returns⟩
  have notAccepted : ¬ (answeredNext (ascii "-ERR\r\n")).AcceptsCommand (getOf (ascii "k")) := by
    rintro ⟨-, c', p, returns⟩
    rw [returns] at refusedShows
    cases refusedShows
  have first := addCommand_agrees_iff cString_starves (answeredNext (ascii "+QUEUED\r\n")) spoken
    (.new .get)
  have second := addCommand_agrees_iff cString_starves (answeredNext (ascii "-ERR\r\n")) spoken
    (.new .get)
  refine ⟨fun alike => ?_, second.1 (Or.inr (Or.inl ⟨literal, notAccepted⟩)), ?_⟩
  · obtain ⟨valid, send⟩ := answeredNext_valid (ascii "+QUEUED\r\n")
    have exactly := first.2.1 valid send (by decide +kernel) (fun printed expands => by
      rw [text] at expands
      cases expands
      decide +kernel)
    rcases exactly.mp alike with closed | ⟨-, refused⟩ | ⟨refused, -⟩
    · revert closed
      decide +kernel
    · exact refused accepted
    · exact refused passes
  · obtain ⟨result, done, -, told⟩ := first.2.2 literal
    rw [text] at done
    refine ⟨result, done, fun ok r' same => ?_⟩
    obtain ⟨accepts, length⟩ := told ok r' same
    have yes := accepts.mpr accepted
    subst yes
    exact ⟨rfl, length⟩

/-- The server queues GET: with a format `add_command` returns true, without one false. And a key
with two percent signs is sent with one of them in a format. -/
theorem addCommand_disagrees :
    (∃ r r₁ r₂ : Redis2 (Listening ScriptedPeer), r.AcceptsCommand (getOf (ascii "k")) ∧
      r.addCommand (getOf (ascii "k")) = .ok (false, r₁) ∧
      r.addFormat (.new .get) cString (pieces (ascii "GET k")) (.args []) = .done (.ok (true, r₂)) ∧
      r₁.transactionCmds.length = 1 ∧ r₂.transactionCmds.length = 1) ∧
    ∃ r : Redis2 (Listening ScriptedPeer), Spoken (getOf (ascii "50%%")) ∧
      ¬ r.AcceptsCommand (getOf (ascii "50%%")) ∧
      heard (r.checkConnect.2.proto.writeCommand (getOf (ascii "50%%"))) =
        .ok (ascii "*2\r\n$3\r\nGET\r\n$4\r\n50%%\r\n") ∧
      (r.checkConnect.2.proto.writeFormat (.new .get) cString (pieces (ascii "GET 50%%"))
        (.args [])).map heard = .done (.ok (ascii "*2\r\n$3\r\nGET\r\n$3\r\n50%\r\n")) ∧
      ¬ r.AddsAlike (getOf (ascii "50%%")) (.new .get) cString := by
  have whole : RedisProtocol.formatBuf cString (pieces (ascii "GET k")) (.args []) =
      .done (ascii "GET k") :=
    (RedisProtocol.formatBuf_done_iff cString_starves).mpr ⟨by decide +kernel, by decide⟩
  have one : RedisProtocol.formatBuf cString (pieces (ascii "GET 50%%")) (.args []) =
      .done (ascii "GET 50%") :=
    (RedisProtocol.formatBuf_done_iff cString_starves).mpr ⟨by decide +kernel, by decide⟩
  constructor
  · let r := answeredNext (ascii "+QUEUED\r\n")
    have first : (r.addCommand (getOf (ascii "k"))).toOption.map
        (fun returned => (returned.1, returned.2.transactionCmds.length)) = some (false, 1) := by
      decide +kernel
    have second : (r.addCommandv (.new .get) (ascii "GET k")).toOption.map
        (fun returned => (returned.1, returned.2.transactionCmds.length)) = some (true, 1) := by
      decide +kernel
    have executes : (r.checkConnect.2.proto.execCommand (getOf (ascii "k"))).toOption.map
        (fun returned => returned.1) = some true := by
      decide +kernel
    obtain ⟨⟨ok₁, r₁⟩, returns₁, seen₁⟩ := returned_of_view first
    obtain ⟨⟨ok₂, r₂⟩, returns₂, seen₂⟩ := returned_of_view second
    obtain ⟨⟨ok, c', p⟩, returns, rfl⟩ := returned_of_view executes
    obtain ⟨rfl, one₁⟩ := Prod.mk.inj seen₁
    obtain ⟨rfl, one₂⟩ := Prod.mk.inj seen₂
    refine ⟨r, r₁, r₂, ⟨by decide +kernel, c', p, returns⟩, returns₁, ?_, one₁, one₂⟩
    rw [addFormat_found r _ whole, returns₂]
  · let r := answeredNext (ascii "-ERR\r\n")
    have refused : (r.checkConnect.2.proto.execCommand (getOf (ascii "50%%"))).toOption.map
        (fun returned => returned.1) = some false := by
      decide +kernel
    have notAccepted : ¬ r.AcceptsCommand (getOf (ascii "50%%")) := by
      rintro ⟨-, c', p, returns⟩
      rw [returns] at refused
      cases refused
    have two : heard (r.checkConnect.2.proto.writeCommand (getOf (ascii "50%%"))) =
        .ok (ascii "*2\r\n$3\r\nGET\r\n$4\r\n50%%\r\n") := by
      have shows : (heard (r.checkConnect.2.proto.writeCommand
          (getOf (ascii "50%%")))).toOption.map id =
            some (ascii "*2\r\n$3\r\nGET\r\n$4\r\n50%%\r\n") := by
        decide +kernel
      obtain ⟨bytes, hears, rfl⟩ := returned_of_view shows
      exact hears
    have fewer : (r.checkConnect.2.proto.writeFormat (.new .get) cString
        (pieces (ascii "GET 50%%")) (.args [])).map heard =
          .done (.ok (ascii "*2\r\n$3\r\nGET\r\n$3\r\n50%\r\n")) := by
      have shows : (heard (r.checkConnect.2.proto.writeCommandv (.new .get)
          (ascii "GET 50%"))).toOption.map id =
            some (ascii "*2\r\n$3\r\nGET\r\n$3\r\n50%\r\n") := by
        decide +kernel
      obtain ⟨bytes, hears, rfl⟩ := returned_of_view shows
      rw [RedisProtocol.writeFormat, one]
      exact congrArg Formatted.done hears
    refine ⟨r, getOf_spoken ⟨by decide, by decide +kernel⟩, notAccepted, two, fewer, fun alike => ?_⟩
    have same := alike.writes (by decide +kernel)
    have text : joinWords (requestOf (getOf (ascii "50%%"))) = ascii "GET 50%%" := by
      decide +kernel
    rw [text, fewer, two] at same
    exact absurd (Except.ok.inj (Formatted.done.inj same)) (by decide)

end Redis2

end LibRedis
