import LibRedis.ReadScan
import LibRedis.ReplyFraming

/-!
# Numbers and the `errno` that is left behind

`parse_integer` looks at `errno` after `strtol`, and nobody resets it before. A number is therefore
judged by what an earlier call of the thread left there, also one on another connection. The first
part compares two values of `errno` on one line; the second follows a thread that reads replies
over several connections.
-/

namespace LibRedis

open Decimal (ascii)
open Resp (Reply encode)

namespace RedisProtocol

variable {π : Type}

/-- The object when its thread finds this in `errno`. -/
def atErrno (p : RedisProtocol π) (errno : Int) : RedisProtocol π :=
  { p with tcpClient := { p.tcpClient with os := { p.tcpClient.os with errno := errno } } }

/-- The verdict of `parse_integer` on a line, with the value. -/
def judged (p : RedisProtocol π) (line : Bytes) : Except Abort (Option Int) :=
  (p.parseInteger line).map Prod.fst

/-- `strtol` itself reports an error on the text: it sets an `errno` that was zero. -/
def Reports (p : RedisProtocol π) (text : Bytes) : Prop :=
  ((p.atErrno 0).tcpClient.os.strtol text).2.errno ≠ 0

/-- A line is judged by what the text behind its first byte decodes to. -/
theorem judged_cons (p : RedisProtocol π) (marker : UInt8) (text : Bytes) :
    p.judged (marker :: text) = .ok (p.decode text) := by
  obtain ⟨errno, parsed, -⟩ := p.parseInteger_decode (List.cons_ne_nil marker text)
  rw [judged, parsed]
  rfl

/-- A text decodes to a number if `strtol` reports nothing and `errno` was clean before. -/
theorem decode_atErrno (p : RedisProtocol π) (text : Bytes) : ∃ value : Int, ∀ errno,
    (p.Reports text ∨ ¬ (p.atErrno errno).CleanErrno → (p.atErrno errno).decode text = none) ∧
    (¬ p.Reports text → (p.atErrno errno).CleanErrno →
      (p.atErrno errno).decode text = some value) := by
  obtain ⟨value, error, reported, outcome⟩ := Os.strtol_outcome p.tcpClient.os.platform text
  have reads (errno : Int) : (p.atErrno errno).tcpClient.os.strtol text =
      (value, { p.tcpClient.os with errno := error.getD errno }) := outcome _ rfl
  refine ⟨value, fun errno => ?_⟩
  rw [Reports, decode, reads, reads]
  cases error with
  | none =>
    constructor
    · intro fails
      apply if_pos
      by_contra clean
      have clean := not_or.mp clean
      exact fails.elim (fun wrong => wrong rfl) fun unclean => unclean clean
    · intro _ clean
      exact if_neg (not_or.mpr clean)
  | some set =>
    have bad := reported set rfl
    constructor
    · intro _
      exact if_pos bad
    · intro quiet
      have zero : set = 0 := not_not.mp quiet
      rcases bad with same | same
      · exact absurd (zero.symm.trans same) (by decide)
      · exact absurd (zero.symm.trans same) (by decide)

/-- Under a stale `errno` no text decodes to a number. -/
theorem decode_stale {p : RedisProtocol π} (stale : ¬ p.CleanErrno) (text : Bytes) :
    p.decode text = none := by
  obtain ⟨value, decodes⟩ := p.decode_atErrno text
  exact (decodes p.tcpClient.os.errno).1 (Or.inr stale)

/-- Two values of `errno` give a line the same verdict and the same value exactly if `strtol`
reports an error on it anyway, or both are clean, or neither is. -/
theorem judged_same_iff (p : RedisProtocol π) (marker : UInt8) (text : Bytes) (errno errno' : Int) :
    (p.atErrno errno).judged (marker :: text) = (p.atErrno errno').judged (marker :: text) ↔
      p.Reports text ∨ ((p.atErrno errno).CleanErrno ↔ (p.atErrno errno').CleanErrno) := by
  obtain ⟨value, decodes⟩ := p.decode_atErrno text
  obtain ⟨fails, reads⟩ := decodes errno
  obtain ⟨fails', reads'⟩ := decodes errno'
  rw [judged_cons, judged_cons, Except.ok.injEq]
  by_cases reports : p.Reports text
  · rw [fails (Or.inl reports), fails' (Or.inl reports)]
    exact iff_of_true rfl (Or.inl reports)
  rw [or_iff_right reports]
  by_cases clean : (p.atErrno errno).CleanErrno
  · rw [reads reports clean, iff_true_left clean]
    by_cases clean' : (p.atErrno errno').CleanErrno
    · rw [reads' reports clean']
      exact iff_of_true rfl clean'
    · rw [fails' (Or.inr clean')]
      exact iff_of_false nofun clean'
  · rw [fails (Or.inr clean), iff_false_left clean]
    by_cases clean' : (p.atErrno errno').CleanErrno
    · rw [reads' reports clean']
      exact iff_of_false nofun (not_not.mpr clean')
    · rw [fails' (Or.inr clean')]
      exact iff_of_true rfl clean'

end RedisProtocol

namespace ReplyScan

/-- Where no text decodes to a number, nothing but a status is taken: every other reply has a number
in its first line. -/
theorem reply_takes_status {decode : Bytes → Option Int} (stale : ∀ text, decode text = none)
    {limit fuel : Nat} {type : ReplyType} {stream rest : Bytes} {out : RedisOutput}
    (taken : reply decode limit fuel type stream = .takes out rest) :
    ∃ text, out = .status text := by
  have refused (header stream : Bytes) : number decode header stream = .refuses := by
    rw [number, stale]
  cases fuel with
  | zero => cases taken
  | succ fuel =>
    obtain ⟨header, left, -, behind⟩ := Scan.bind_eq_takes taken
    have integer : integerReply decode header left = .refuses := by
      rw [integerReply, refused, Scan.bind_refuses]
    have bulk : bulkReply decode limit header left = .refuses := by
      rw [bulkReply, bulkBehind, refused, Scan.bind_refuses, Scan.bind_refuses]
    have bulks : multiBulkReply decode limit header left = .refuses := by
      rw [multiBulkReply, refused, Scan.bind_refuses]
    have array : specialReply decode (reply decode limit fuel .depends) header left = .refuses := by
      rw [specialReply, refused, Scan.bind_refuses]
    rw [replyBehind, integer, bulk, bulks, array] at behind
    by_cases status : header.head? = some 43
    · rw [if_neg (by rw [status]; decide), if_pos status] at behind
      split at behind
      · cases behind
        exact ⟨header.tail, rfl⟩
      · cases behind
    · rw [if_neg status] at behind
      split at behind
      · cases behind
      · repeat' split at behind
        all_goals cases behind

end ReplyScan

/-- A thread and the protocol objects that it uses, which share its `errno`. -/
structure Thread (π : Type) where
  /-- `errno`. -/
  errno : Int
  /-- The objects, by number. -/
  objects : Nat → RedisProtocol π

namespace Thread

variable {π : Type}

/-- An object as a call in this thread finds it. -/
def object (t : Thread π) (k : Nat) : RedisProtocol π := (t.objects k).atErrno t.errno

/-- The thread after a call that has left an object like this. -/
def leaves (t : Thread π) (k : Nat) (p : RedisProtocol π) : Thread π where
  errno := p.tcpClient.os.errno
  objects := Function.update t.objects k p

/-- Every object is valid. -/
def Valid (t : Thread π) : Prop := ∀ k, (t.objects k).Valid

/-- A thread whose call leaves a valid object is valid. -/
theorem Valid.leaves {t : Thread π} (valid : t.Valid) (k : Nat) {p : RedisProtocol π}
    (left : p.Valid) : (t.leaves k p).Valid := by
  intro j
  by_cases same : j = k
  · have here : (t.leaves k p).objects j = p := by
      rw [same]
      exact Function.update_self k p t.objects
    rw [here]
    exact left
  · change (Function.update t.objects k p j).Valid
    rw [Function.update_of_ne same]
    exact valid j

/-- A run of the thread, with the objects and commands of the calls of `read_reply` in it. Any
other call leaves its object valid and any `errno`. -/
inductive Readings : Thread π → List (RedisProtocol π × RedisCommand) → Prop
  /-- The run is over. -/
  | done (t : Thread π) : Readings t []
  /-- The last call reads a reply and may not return. -/
  | last (t : Thread π) (k : Nat) (c : RedisCommand) : Readings t [(t.object k, c)]
  /-- A reply is read, and the call returns. -/
  | read (t : Thread π) (k : Nat) (c : RedisCommand) {ok : Bool} {c' : RedisCommand}
    {p : RedisProtocol π} {later : List (RedisProtocol π × RedisCommand)}
    (returns : (t.object k).readReply c = .ok (ok, c', p)) (run : Readings (t.leaves k p) later) :
    Readings t ((t.object k, c) :: later)
  /-- Some other call returns. -/
  | other (t : Thread π) (k : Nat) {p : RedisProtocol π}
    {later : List (RedisProtocol π × RedisCommand)} (valid : p.Valid)
    (run : Readings (t.leaves k p) later) : Readings t later

end Thread

namespace RedisProtocol

variable {π : Type}

/-- `errno` has no part in the validity of an object. -/
theorem Valid.atErrno {p : RedisProtocol π} (valid : p.Valid) (errno : Int) :
    (p.atErrno errno).Valid :=
  (TcpClient.Valid.errno_receives valid errno).valid

/-- Reading a reply leaves a valid object. -/
theorem readReply_valid {p p' : RedisProtocol π} (valid : p.Valid) {c c' : RedisCommand} {ok : Bool}
    (returns : p.readReply c = .ok (ok, c', p')) : p'.Valid := by
  obtain ⟨result, follows, same⟩ := readReply_follows valid (Or.inl rfl) c
  rw [returns] at same
  obtain ⟨⟨ok₁, out, last⟩, rfl, shows⟩ := map_returns same.symm
  have left : last = p' := congrArg (·.2.2) shows
  have shape : (Except.ok (ok₁, out, last) : Except Abort _).map flagged =
      .ok ((flagged (ok₁, out, last)).1, last) := rfl
  rw [← left]
  generalize p.scan (2 ^ 64) c = scan at follows
  rw [shape] at follows
  generalize (flagged (ok₁, out, last)).1 = value at follows
  cases follows with
  | closes ends => exact ends.reads.valid
  | takes keeps => exact keeps.goes.reads.valid
  | stops keeps => exact keeps.goes.reads.valid

/-- Under a stale `errno`, `read_reply` accepts nothing but a status. -/
theorem readReply_stale {p p' : RedisProtocol π} (valid : p.Valid) (stale : ¬ p.CleanErrno)
    {c c' : RedisCommand} (returns : p.readReply c = .ok (true, c', p')) :
    ∃ text, c'.out = .status text := by
  obtain ⟨-, -, taken⟩ := readReply_takes valid (show p.Fits (2 ^ 64) from Or.inl rfl) returns
  exact ReplyScan.reply_takes_status (decode_stale stale) taken

/-- A well-formed reply is on its way that fits the command, and nothing else is in its way. -/
structure Comes (p : RedisProtocol π) (c : RedisCommand) (r : Reply) (rest : Bytes) : Prop where
  /-- The stream begins with it. -/
  shape : p.stream = encode r ++ rest
  /-- It is well formed. -/
  wellFormed : r.WellFormed
  /-- Its bytes are handed over. -/
  delivers : p.Delivers
  /-- Every length in it fits into memory. -/
  bounded : r.Bounded readerLimits
  /-- It is a reply for the command. -/
  accepts : Accepts (p.replyType c) r

end RedisProtocol

namespace Thread

variable {π : Type}

/-- Each call of `read_reply` in a run finds a valid object. -/
theorem Readings.valid {t : Thread π} (valid : t.Valid)
    {readings : List (RedisProtocol π × RedisCommand)} (run : Readings t readings) :
    ∀ reading ∈ readings, reading.1.Valid := by
  induction run with
  | done t => simp
  | last t k c =>
    intro reading member
    rw [List.mem_singleton.mp member]
    exact (valid k).atErrno t.errno
  | read t k c returns run ih =>
    intro reading member
    have found := (valid k).atErrno t.errno
    rcases List.mem_cons.mp member with rfl | later
    · exact found
    · exact ih (valid.leaves k (RedisProtocol.readReply_valid found returns)) reading later
  | other t k left run ih => exact ih (valid.leaves k left)

/-- Header numbers are judged by their own text where `errno` does not interfere. Two values of
`errno` give a line the same verdict exactly if `strtol` reports an error on it anyway or if they
are both clean or both stale; and in every run of a thread a `read_reply` that starts with a clean
`errno` accepts the well-formed reply that comes, while one that starts with a stale one accepts
nothing that has a number. -/
theorem numbers_judged_iff (t : Thread π) (valid : t.Valid) :
    (∀ k marker text errno errno',
      ((t.objects k).atErrno errno).judged (marker :: text) =
          ((t.objects k).atErrno errno').judged (marker :: text) ↔
        (t.objects k).Reports text ∨
          (((t.objects k).atErrno errno).CleanErrno ↔ ((t.objects k).atErrno errno').CleanErrno)) ∧
    ∀ readings, Readings t readings → ∀ p c, (p, c) ∈ readings →
      (p.CleanErrno → ∀ r rest, p.Comes c r rest → ∃ p',
        p.readReply c = .ok (true, { c with out := denoteAs (p.replyType c) r }, p') ∧
        p'.stream = rest) ∧
      (¬ p.CleanErrno → ∀ c' p', p.readReply c = .ok (true, c', p') →
        ∃ text, c'.out = .status text) := by
  constructor
  · intro k marker text errno errno'
    apply RedisProtocol.judged_same_iff
  · intro readings run p c member
    have found : p.Valid := run.valid valid (p, c) member
    constructor
    · intro clean r rest comes
      obtain ⟨p', returns, -, -, left⟩ := RedisProtocol.readReply_accepts found comes.wellFormed
        ⟨comes.delivers, clean, comes.bounded⟩ comes.accepts comes.shape
      exact ⟨p', returns, left⟩
    · intro stale c' p' returns
      exact RedisProtocol.readReply_stale found stale returns

/-- A thread with two connections: on the first a number out of range arrives, on the second one. -/
def outOfRangeThenOne : Thread ScriptedPeer where
  errno := 0
  objects k := RedisProtocol.greeted (if k = 0 then ascii ":9223372036854775808\r\n"
    else ascii ":1\r\n") []

/-- Its objects are valid. -/
theorem outOfRangeThenOne_valid : outOfRangeThenOne.Valid :=
  fun _ => (RedisProtocol.greeted_valid _ _).1

/-- The answer on the second connection is a reply for DBSIZE, whatever `errno` is. -/
theorem one_comes (errno : Int) :
    ((outOfRangeThenOne.objects 1).atErrno errno).Comes (.new .dbsize) (.integer 1) [] where
  shape := by
    change ascii ":1\r\n" = _
    decide
  wellFormed := .integer 1
  delivers := by
    intro outcome member
    cases member
  bounded := .integer64 (by decide) (by decide) (by decide)
  accepts := ⟨⟨1, rfl⟩, .integer (by decide) (by decide)⟩

/-- A read on the second connection that comes first starts with a clean `errno` and accepts. -/
theorem numbers_judged_iff_dbsize : ∃ p', (outOfRangeThenOne.object 1).readReply (.new .dbsize) =
    .ok (true, { RedisCommand.new .dbsize with out := .i 1 }, p') := by
  have run : Readings outOfRangeThenOne [(outOfRangeThenOne.object 1, .new .dbsize)] := .last _ 1 _
  have reads := (numbers_judged_iff outOfRangeThenOne outOfRangeThenOne_valid).2 _ run _ _
    (List.mem_singleton.mpr rfl)
  obtain ⟨p', returns, -⟩ := reads.1 ⟨by decide, by decide⟩ _ _ (one_comes 0)
  exact ⟨p', returns⟩

/-- After the read on the first connection, the one on the second rejects its reply, which it would
accept on another thread. -/
theorem number_judged_by_errno : ∃ (t : Thread ScriptedPeer) (p q : RedisProtocol ScriptedPeer)
    (c : RedisCommand), t.Valid ∧ Readings t [(p, c), (q, c)] ∧ q.Comes c (.integer 1) [] ∧
      (∃ c' q', q.readReply c = .ok (false, c', q')) ∧
      q.judged (ascii ":1") ≠ (q.atErrno 0).judged (ascii ":1") := by
  have first : ((outOfRangeThenOne.object 0).readReply (.new .dbsize)).toOption.map
      (fun returned => returned.2.2.tcpClient.os.errno) = some erange := by
    decide +kernel
  have second : (((outOfRangeThenOne.objects 1).atErrno erange).readReply
      (.new .dbsize)).toOption.map (fun returned => returned.1) = some false := by
    decide +kernel
  obtain ⟨⟨ok, c', p⟩, returns, errno⟩ := returned_of_view first
  obtain ⟨⟨ok', c'', q⟩, rejects, refused⟩ := returned_of_view second
  have errno : p.tcpClient.os.errno = erange := errno
  have refused : ok' = false := refused
  have later : (outOfRangeThenOne.leaves 0 p).object 1 =
      (outOfRangeThenOne.objects 1).atErrno erange := by
    rw [object, ← errno]
    rfl
  have run : Readings outOfRangeThenOne [(outOfRangeThenOne.object 0, .new .dbsize),
      ((outOfRangeThenOne.objects 1).atErrno erange, .new .dbsize)] := by
    apply Readings.read outOfRangeThenOne 0 _ returns
    rw [← later]
    apply Readings.last
  subst refused
  refine ⟨outOfRangeThenOne, _, _, .new .dbsize, outOfRangeThenOne_valid, run, one_comes erange,
    ⟨c'', q, rejects⟩, ?_⟩
  decide +kernel

end Thread

end LibRedis
