import LibRedis.ReadReply
import LibRedis.ReplyScan

/-!
# The reader follows its scan

`read_reply` on any stream, well formed or not, does what the scan of that stream says, as far as
the network lets it: it may close the connection early or not return, but it never takes anything
else. Each function of the reader has one lemma; `Follows.bind` puts them together. With the limit
`2 ^ 64` the scans ignore the receive buffer and nothing is said about calls that do not return;
with the limit `2 ^ 62`, from which on no vector has room, a prompt reader does not return exactly
where the scan stalls.
-/

namespace LibRedis

open Decimal (ascii)

/-- What `strtol` makes of a text: a number, and the error that it reports in `errno`, if any. -/
theorem Os.strtol_outcome (platform : Platform) (text : Bytes) :
    ∃ (value : Int) (error : Option Int), (∀ errno ∈ error, errno = einval ∨ errno = erange) ∧
      ∀ {π : Type} (os : Os π), os.platform = platform →
        os.strtol text = (value, { os with errno := error.getD os.errno }) := by
  unfold Os.strtol
  generalize skipSign ((text.takeWhile (· != 0)).dropWhile isSpace) = signed
  obtain ⟨negative, rest⟩ := signed
  simp only
  generalize rest.takeWhile Decimal.isDigit = digits
  by_cases none : digits = []
  · cases quiet : platform.noDigitsEinval with
    | false =>
      refine ⟨0, .none, by simp, fun os same => ?_⟩
      subst same
      simp only [quiet, if_pos none]
      rfl
    | true =>
      refine ⟨0, some einval, by simp, fun os same => ?_⟩
      subst same
      simp only [quiet, if_pos none]
      rfl
  · simp only [if_neg none]
    by_cases signed : negative = true
    · simp only [if_pos signed]
      by_cases large : 2 ^ 63 < Decimal.value digits
      · simp only [if_pos large]
        exact ⟨_, some erange, by simp, fun os _ => rfl⟩
      · simp only [if_neg large]
        exact ⟨_, .none, by simp, fun os _ => rfl⟩
    · simp only [if_neg signed]
      by_cases large : 2 ^ 63 ≤ Decimal.value digits
      · simp only [if_pos large]
        exact ⟨_, some erange, by simp, fun os _ => rfl⟩
      · simp only [if_neg large]
        exact ⟨_, .none, by simp, fun os _ => rfl⟩

namespace RedisProtocol

variable {π : Type}

/-- The number that a header text decodes to, if `parse_integer` returns true for it. -/
def decode (p : RedisProtocol π) (text : Bytes) : Option Int :=
  if (p.tcpClient.os.strtol text).2.errno = einval ∨ (p.tcpClient.os.strtol text).2.errno = erange
  then none else some (p.tcpClient.os.strtol text).1

/-- `parse_integer` returns what the text behind the first byte decodes to. -/
theorem parseInteger_decode (p : RedisProtocol π) {header : Bytes} (some : header ≠ []) :
    ∃ errno, p.parseInteger header = .ok (p.decode header.tail, { p with
        tcpClient := { p.tcpClient with os := { p.tcpClient.os with errno := errno } } }) ∧
      (p.decode header.tail ≠ none → errno = p.tcpClient.os.errno) := by
  cases header with
  | nil => exact absurd rfl some
  | cons marker text =>
    obtain ⟨value, error, reported, outcome⟩ :=
      Os.strtol_outcome p.tcpClient.os.platform text
    refine ⟨error.getD p.tcpClient.os.errno, ?_, fun decoded => ?_⟩
    · rw [parseInteger, decode, List.tail_cons, outcome _ rfl]
      by_cases bad : error.getD p.tcpClient.os.errno = einval ∨
          error.getD p.tcpClient.os.errno = erange
      · rw [if_pos bad]
        exact if_pos bad
      · rw [if_neg bad]
        exact if_neg bad
    · cases error with
      | none => rfl
      | some errno =>
        rw [decode, List.tail_cons, outcome _ rfl] at decoded
        exact absurd (if_pos (reported errno rfl)) decoded

/-- A numeral is decoded as its number, if `errno` is clean and the number has 64 bits. -/
theorem decode_numeral (p : RedisProtocol π) {text : Bytes} {value i : Int}
    (numeral : Decimal.Numeral text value) :
    p.decode text = some i ↔ (p.CleanErrno ∧ InRange value) ∧ value = i := by
  rw [decode, strtol_numeral _ numeral]
  by_cases low : value < -2 ^ 63
  · rw [if_pos low, if_pos (Or.inr rfl)]
    exact iff_of_false nofun fun good => absurd good.1.2.1 (not_le.mpr low)
  · rw [if_neg low]
    by_cases high : 2 ^ 63 ≤ value
    · rw [if_pos high, if_pos (Or.inr rfl)]
      exact iff_of_false nofun fun good => absurd good.1.2.2 (not_lt.mpr high)
    · rw [if_neg high]
      have range : InRange value := ⟨not_lt.mp low, not_le.mp high⟩
      by_cases bad : p.tcpClient.os.errno = einval ∨ p.tcpClient.os.errno = erange
      · rw [if_pos bad]
        exact iff_of_false nofun fun good => (not_or.mpr good.1.1) bad
      · rw [if_neg bad, Option.some.injEq]
        exact (and_iff_right ⟨not_or.mp bad, range⟩).symm

/-- Decoded numbers are numbers of 64 bits. -/
theorem decode_range {p : RedisProtocol π} {text : Bytes} {i : Int}
    (decoded : p.decode text = some i) : InRange i := by
  have value : (p.tcpClient.os.strtol text).1 = i := by
    rw [decode] at decoded
    split at decoded
    · cases decoded
    · exact Option.some.inj decoded
  rw [← value]
  unfold Os.strtol
  simp only
  unfold InRange
  repeat' split
  all_goals simp only
  all_goals omega

/-- Reading ends, whatever it waits for. -/
abbrev Prompt (p : RedisProtocol π) : Prop := p.tcpClient.Prompt p.readTimeout

/-- Every byte on its way is handed over before anything else happens. -/
abbrev Arrives (p : RedisProtocol π) : Prop := p.tcpClient.os.Arrives

/-- Neither the receive buffer nor what is left to read comes near the end of the memory. -/
structure Roomy (p : RedisProtocol π) : Prop where
  /-- The buffer can still be doubled. -/
  small : p.tcpClient.buffer.totalSize ≤ 2 ^ 61
  /-- What is left to read is short. -/
  short : p.stream.length < 2 ^ 60

/-- A receive buffer of less than `2 ^ 62` bytes, the largest size that it can have. -/
def Allocated (p : RedisProtocol π) : Prop := p.tcpClient.buffer.totalSize < 2 ^ 62

/-- Sizes are the default size doubled, so such a buffer can still be doubled. -/
theorem Allocated.small {p : RedisProtocol π} (allocated : p.Allocated) (valid : p.Valid) :
    p.tcpClient.buffer.totalSize ≤ 2 ^ 61 :=
  valid.buffer.half allocated

/-- The length that a scan may assume not to have room for. -/
def Fits (limit : Nat) (p : RedisProtocol π) : Prop :=
  limit = 2 ^ 64 ∨ (limit = 2 ^ 62 ∧ p.Roomy)

/-- A limit that is assumed is the one of a roomy client. -/
theorem Fits.roomy {limit : Nat} {p : RedisProtocol π} (fits : p.Fits limit)
    (tight : limit = 2 ^ 62) : p.Roomy := by
  rcases fits with loose | ⟨-, roomy⟩
  · omega
  · exact roomy

/-- Reading has taken something off the front of the stream and kept the connection. -/
structure Keeps (p p' : RedisProtocol π) : Prop where
  /-- The connection is kept. -/
  goes : p.Goes p'
  /-- The stream ends as it would have. -/
  awaits : p.tcpClient.os.Awaits p'.tcpClient.os
  /-- The rest of the stream is left. -/
  suffix : p'.stream <:+ p.stream
  /-- The buffer stays small. -/
  small : p.Roomy → p'.tcpClient.buffer.totalSize ≤ 2 ^ 61

/-- A client has room as before. -/
theorem Keeps.roomy {p p' : RedisProtocol π} (keeps : p.Keeps p') (roomy : p.Roomy) :
    p'.Roomy where
  small := keeps.small roomy
  short := lt_of_le_of_lt keeps.suffix.length_le roomy.short

/-- A length stays as assumed. -/
theorem Keeps.fits {limit : Nat} {p p' : RedisProtocol π} (keeps : p.Keeps p')
    (fits : p.Fits limit) : p'.Fits limit :=
  fits.imp_right fun ⟨tight, roomy⟩ => ⟨tight, keeps.roomy roomy⟩

/-- A prompt reader stays prompt. -/
theorem Keeps.prompt {p p' : RedisProtocol π} (keeps : p.Keeps p') (prompt : p.Prompt) :
    p'.Prompt := by
  have same : p'.readTimeout = p.readTimeout := by
    rw [readTimeout, readTimeout, keeps.goes.blockingMode, keeps.goes.reads.timeout]
  rw [Prompt, same]
  exact TcpClient.Prompt.awaits prompt keeps.awaits keeps.goes.fd

/-- Keeping twice is keeping. -/
theorem Keeps.trans {p p' p'' : RedisProtocol π} (left : p.Keeps p') (right : p'.Keeps p'') :
    p.Keeps p'' where
  goes := left.goes.trans right.goes
  awaits := left.awaits.trans right.awaits
  suffix := right.suffix.trans left.suffix
  small := fun roomy => right.small (left.roomy roomy)

/-- Headers are decoded as before. -/
theorem Goes.decode {p p' : RedisProtocol π} (goes : p.Goes p') : p'.decode = p.decode := by
  have platform : p'.tcpClient.os.platform = p.tcpClient.os.platform := by
    rw [goes.reads.client.frame]
  funext text
  obtain ⟨value, error, -, outcome⟩ := Os.strtol_outcome p.tcpClient.os.platform text
  rw [RedisProtocol.decode, RedisProtocol.decode, outcome _ rfl, outcome _ platform, goes.errno]

/-- A change of the error text and the transaction mode only. -/
theorem Valid.keeps {p p' : RedisProtocol π} (valid : p.Valid)
    (same : p' = { p with error := p'.error, transactionMode := p'.transactionMode }) :
    p.Keeps p' where
  goes := valid.goes same
  awaits := by
    rw [same]
    exact .refl _
  suffix := by
    rw [same]
    exact List.suffix_rfl
  small := by
    rw [same]
    exact fun roomy => roomy.small

/-- A reading call does what the scan of the stream says, as far as the network lets it. -/
inductive Follows (limit : Nat) (p : RedisProtocol π) {α : Type} :
    Scan UInt8 α → Except Abort (Option α × RedisProtocol π) → Prop
  /-- It does not return. -/
  | aborts {scan : Scan UInt8 α} {abort : Abort}
      (reason : limit = 2 ^ 62 → p.Prompt → scan = .stalls)
      (late : limit = 2 ^ 62 → p.Arrives → scan = .starves ∨ scan = .stalls) :
      Follows limit p scan (.error abort)
  /-- It closes the connection. -/
  | closes {scan : Scan UInt8 α} {p' : RedisProtocol π} (ends : p.Ends p')
      (reason : limit = 2 ^ 62 → p.Arrives → scan = .refuses ∨ scan = .starves) :
      Follows limit p scan (.ok (none, p'))
  /-- It takes what the scan takes. -/
  | takes {value : α} {p' : RedisProtocol π} (keeps : p.Keeps p') :
      Follows limit p (.takes value p'.stream) (.ok (some value, p'))
  /-- It stops where the scan stops. -/
  | stops {p' : RedisProtocol π} (keeps : p.Keeps p') :
      Follows limit p (.stops p'.stream) (.ok (none, p'))

/-- A call that goes on after something was taken follows what its continuation follows. -/
theorem Follows.after {limit : Nat} {p p' : RedisProtocol π} {α : Type} {scan : Scan UInt8 α}
    {result : Except Abort (Option α × RedisProtocol π)} (keeps : p.Keeps p')
    (follows : Follows limit p' scan result) : Follows limit p scan result := by
  cases follows with
  | aborts reason late =>
    exact .aborts (fun tight prompt => reason tight (keeps.prompt prompt))
      fun tight arrives => late tight (keeps.awaits.arrives arrives)
  | closes ends reason =>
    exact .closes (keeps.goes.reads.ends ends) fun tight arrives =>
      reason tight (keeps.awaits.arrives arrives)
  | takes further => exact .takes (keeps.trans further)
  | stops further => exact .stops (keeps.trans further)

/-- Two calls follow two scans: the second call follows the second scan behind whatever the first
one takes, and does nothing if the first one fails. -/
theorem Follows.bind {limit : Nat} {p : RedisProtocol π} {α γ ρ σ : Type}
    {view : ρ → Option α × RedisProtocol π} {view' : σ → Option γ × RedisProtocol π}
    {scan : Scan UInt8 α} {next : α → Bytes → Scan UInt8 γ} {call : Except Abort ρ}
    {rest : ρ → Except Abort σ} (first : Follows limit p scan (call.map view))
    (takes : ∀ x value p', view x = (some value, p') → p.Keeps p' →
      scan = .takes value p'.stream → Follows limit p' (next value p'.stream) ((rest x).map view'))
    (fails : ∀ x p', view x = (none, p') → (rest x).map view' = .ok (none, p')) :
    Follows limit p (scan.bind next) ((call >>= rest).map view') := by
  cases call with
  | error abort =>
    cases first with
    | aborts reason late =>
      refine .aborts (fun tight prompt => ?_) fun tight arrives => ?_
      · rw [reason tight prompt, Scan.bind_stalls]
      · rcases late tight arrives with starved | stalled
        · rw [starved]
          exact Or.inl rfl
        · rw [stalled]
          exact Or.inr rfl
  | ok x =>
    change Follows limit p (scan.bind next) ((rest x).map view')
    generalize seen : (Except.ok x : Except Abort ρ).map view = result at first
    cases first with
    | aborts => cases seen
    | closes ends reason =>
      rw [fails x _ (Except.ok.inj seen)]
      refine .closes ends fun tight arrives => ?_
      rcases reason tight arrives with refused | starved
      · rw [refused]
        exact Or.inl rfl
      · rw [starved]
        exact Or.inr rfl
    | takes keeps => exact (takes x _ _ (Except.ok.inj seen) keeps rfl).after keeps
    | stops keeps =>
      rw [fails x _ (Except.ok.inj seen)]
      exact .stops keeps

/-- What is seen of a call that returns a flag with a value. -/
def flagged {α : Type} (returned : Bool × α × RedisProtocol π) : Option α × RedisProtocol π :=
  (if returned.1 then some returned.2.1 else none, returned.2.2)

/-- A flag that is off shows nothing. -/
theorem flagged_none {α : Type} {returned : Bool × α × RedisProtocol π} {p : RedisProtocol π}
    (seen : flagged returned = (none, p)) : returned.1 = false ∧ returned.2.2 = p := by
  obtain ⟨ok, value, left⟩ := returned
  obtain ⟨flag, rfl⟩ := Prod.mk.inj seen
  cases ok with
  | false => exact ⟨rfl, rfl⟩
  | true => cases flag

/-- A flag that is on shows the value. -/
theorem flagged_some {α : Type} {returned : Bool × α × RedisProtocol π} {value : α}
    {p : RedisProtocol π} (seen : flagged returned = (some value, p)) :
    returned = (true, value, p) := by
  obtain ⟨ok, shown, left⟩ := returned
  obtain ⟨flag, rfl⟩ := Prod.mk.inj seen
  cases ok with
  | false => cases flag
  | true =>
    cases flag
    rfl

/-- `read_line` follows the scan of a line. -/
theorem readLine_follows {limit : Nat} {p : RedisProtocol π} (valid : p.Valid)
    (fits : p.Fits limit) :
    Follows limit p (ReplyScan.line p.stream) (p.readLine.map flagged) := by
  have step : ∀ returned, p.tcpClient.readLine redisLineEnd p.readTimeout = .ok returned →
      p.readLine = .ok ({ p with tcpClient := returned.2.2 }.received returned.1 returned.2.1) := by
    intro returned same
    rw [readLine, same]
    rfl
  rcases TcpClient.readLine_ends valid redisLineEnd (by decide) p.readTimeout with
    ⟨abort, aborts, -, none, slow⟩ | ⟨returned, same, loses, none⟩ |
    ⟨returned, same, takes, splits, awaits, small⟩
  · have result : p.readLine = .error abort := by
      rw [readLine, aborts]
      rfl
    rw [result]
    refine .aborts (fun tight prompt => ?_) fun tight arrives => Or.inl ?_
    · have long := slow prompt
      have short : p.tcpClient.stream.length < 2 ^ 60 := (fits.roomy tight).short
      simp only [kDefaultBufferSize] at long
      omega
    · refine ReplyScan.line_eq_starves.mpr fun piece rest splits => ?_
      have long := none arrives piece rest splits
      have short := (fits.roomy tight).short
      have whole := congrArg List.length splits.eq
      simp only [List.length_append, kDefaultBufferSize] at whole long
      omega
  · obtain ⟨l, p', result, ends⟩ := received_cases.1 loses
    rw [step _ same, result]
    exact .closes ends fun _ arrives => Or.inr (ReplyScan.line_eq_starves.mpr (none arrives))
  · rw [step _ same]
    rcases received_cases.2 takes with ⟨empty, l, p', result, ends⟩ | ⟨more, result, goes⟩
    · rw [result]
      refine .closes ends fun _ _ => Or.inl ?_
      have found : Delimited.split redisLineEnd p.stream = some (returned.1, _) :=
        (Delimited.split_eq_some _ _ _).mpr splits
      rw [ReplyScan.line, found]
      exact if_pos empty
    · rw [result, show ReplyScan.line p.stream = .takes returned.1 returned.2.2.stream from
        ReplyScan.line_eq_takes.mpr ⟨splits, more⟩]
      have keeps : p.Keeps { p with tcpClient := returned.2.2 } := by
        refine ⟨goes, awaits, ⟨_, splits.eq.symm⟩, fun roomy => small roomy.small ?_⟩
        have short : p.tcpClient.stream.length < 2 ^ 60 := roomy.short
        have whole := congrArg List.length splits.eq
        simp only [List.length_append, kDefaultBufferSize] at whole ⊢
        omega
      exact .takes keeps

/-- A line that was read is the first one of the stream. -/
theorem readLine_takes {p behind : RedisProtocol π} (valid : p.Valid) {header : Bytes}
    (line : p.readLine = .ok (true, header, behind)) :
    p.Keeps behind ∧ ReplyScan.line p.stream = .takes header behind.stream := by
  have follows := readLine_follows valid (show p.Fits (2 ^ 64) from Or.inl rfl)
  have shown : p.readLine.map flagged = .ok (some header, behind) := by
    rw [line]
    rfl
  rw [shown] at follows
  generalize ReplyScan.line p.stream = scan at follows
  cases follows with
  | takes keeps => exact ⟨keeps, rfl⟩

/-- Where all the bytes arrive, the first line of the stream is read. -/
theorem readLine_of_takes {p : RedisProtocol π} (valid : p.Valid) (roomy : p.Roomy)
    (arrives : p.Arrives) {header rest : Bytes}
    (takes : ReplyScan.line p.stream = .takes header rest) :
    ∃ behind, p.readLine = .ok (true, header, behind) ∧ p.Keeps behind ∧ behind.stream = rest := by
  have follows := readLine_follows valid (show p.Fits (2 ^ 62) from Or.inr ⟨rfl, roomy⟩)
  rw [takes] at follows
  generalize seen : p.readLine.map flagged = shown at follows
  generalize wanted : Scan.takes header rest = scan at follows
  cases follows with
  | aborts _ late =>
    rcases late rfl arrives with wrong | wrong
    · cases wanted.trans wrong
    · cases wanted.trans wrong
  | closes _ reason =>
    rcases reason rfl arrives with wrong | wrong
    · cases wanted.trans wrong
    · cases wanted.trans wrong
  | stops => cases wanted
  | @takes value behind keeps =>
    cases wanted
    obtain ⟨returned, line, shows⟩ := map_returns seen
    obtain rfl := flagged_some shows
    exact ⟨behind, line, keeps, rfl⟩

/-- `read` follows the scan of a payload. -/
theorem read_follows {limit : Nat} {p : RedisProtocol π} (valid : p.Valid) (fits : p.Fits limit)
    {count : Nat} (some : 0 < count) (small : count < 2 ^ 63) :
    Follows limit p (ReplyScan.payload limit count p.stream) ((p.read count).map flagged) := by
  have step : ∀ returned, p.tcpClient.read count redisLineEnd p.readTimeout = .ok returned →
      p.read count = .ok ({ p with tcpClient := returned.2.2 }.received returned.1 returned.2.1) := by
    intro returned same
    rw [read, same]
    rfl
  have two : redisLineEnd.length = 2 := rfl
  have word : count + redisLineEnd.length < 2 ^ 64 := by omega
  have loose : ¬ limit ≤ count + 2 ↔ limit = 2 ^ 64 ∨ count + 2 < 2 ^ 62 := by
    rcases fits with rfl | ⟨rfl, -⟩ <;> omega
  rcases TcpClient.read_ends valid redisLineEnd some word p.readTimeout with
    ⟨abort, aborts, -, none, slow⟩ | ⟨returned, same, loses, none, noRoom⟩ |
    ⟨returned, same, takes, counted, awaits, grows⟩
  · have result : p.read count = .error abort := by
      rw [read, aborts]
      rfl
    rw [result]
    refine .aborts (fun tight prompt => ?_) fun tight arrives => ?_
    · have large := slow prompt
      rw [ReplyScan.payload, if_pos (by omega)]
    · rw [ReplyScan.payload]
      by_cases large : limit ≤ count + 2
      · exact Or.inr (if_pos large)
      · have fewer : p.stream.length < count + 2 := none arrives (by omega)
        rw [if_neg large, if_pos fewer]
        exact Or.inl rfl
  · obtain ⟨l, p', result, ends⟩ := received_cases.1 loses
    rw [step _ same, result]
    refine .closes ends fun tight arrives => Or.inr ?_
    have fewer : p.stream.length < count + 2 := none arrives
    have room := noRoom (fits.roomy tight).small
    rw [ReplyScan.payload, if_neg (by omega), if_pos fewer]
  · rw [step _ same]
    obtain ⟨dropped, size, shape⟩ := counted.eq
    have whole : p.stream.length =
        returned.1.length + dropped.length + returned.2.2.stream.length := by
      have lengths := congrArg List.length shape
      simp only [List.length_append] at lengths
      exact lengths
    have length := counted.size
    rcases received_cases.2 takes with ⟨empty, -⟩ | ⟨-, result, goes⟩
    · rw [empty, List.length_nil] at length
      omega
    · have room : ¬ limit ≤ count + 2 := by
        refine loose.mpr (fits.imp_right fun tight => ?_)
        have bound := grows.word tight.2.small
        omega
      have taken : p.stream.take count = returned.1 := by
        change p.tcpClient.stream.take count = _
        rw [shape, ← length, List.append_assoc, List.take_left]
      have left : p.stream.drop (count + 2) = returned.2.2.stream := by
        change p.tcpClient.stream.drop (count + 2) = _
        rw [shape, ← length, ← two, ← size, ← List.length_append, List.drop_left]
      rw [result, ReplyScan.payload, if_neg room, if_neg (by omega), taken, left]
      have keeps : p.Keeps { p with tcpClient := returned.2.2 } := by
        refine ⟨goes, awaits, ⟨_, shape.symm⟩, fun roomy => grows.small roomy.small ?_⟩
        have short := roomy.short
        omega
      exact .takes keeps

/-- A call that goes on behind `parse_integer` follows a scan of a number: it gives up without a
number, and otherwise does what the scan says. -/
theorem Follows.number {limit : Nat} {p : RedisProtocol π} (valid : p.Valid) {α ρ : Type}
    {view : ρ → Option α × RedisProtocol π} {header : Bytes} (some : header ≠ [])
    {next : Int → Bytes → Scan UInt8 α} {rest : Option Int × RedisProtocol π → Except Abort ρ}
    (fails : ∀ p', ∃ action detail,
      (rest (.none, p')).map view = .ok (.none, p'.abandon action detail))
    (goes : ∀ i, p.decode header.tail = .some i →
      Follows limit p (next i p.stream) ((rest (.some i, p)).map view)) :
    Follows limit p ((ReplyScan.number p.decode header p.stream).bind next)
      ((p.parseInteger header >>= rest).map view) := by
  obtain ⟨errno, parsed, kept⟩ := p.parseInteger_decode some
  rw [parsed, ReplyScan.number]
  cases decoded : p.decode header.tail with
  | none =>
    obtain ⟨action, detail, closes⟩ := fails { p with
      tcpClient := { p.tcpClient with os := { p.tcpClient.os with errno := errno } } }
    change Follows limit p .refuses ((rest (.none, _)).map view)
    rw [closes]
    exact .closes (valid.parse_ends errno action detail) fun _ _ => Or.inl rfl
  | some i =>
    have same := kept (by simp [decoded])
    subst same
    exact goes i decoded

/-- A call that closes the connection at once refuses the stream. -/
theorem Follows.refused {limit : Nat} {p : RedisProtocol π} (valid : p.Valid) {α : Type}
    (action detail : Bytes) :
    Follows limit p (.refuses : Scan UInt8 α) (.ok (none, p.abandon action detail)) :=
  .closes (valid.abandon_ends action detail) fun _ _ => Or.inl rfl

/-- A call that only returns a value takes nothing. -/
theorem Follows.pure {limit : Nat} {p : RedisProtocol π} (p' : RedisProtocol π) (valid : p.Valid)
    (same : p' = { p with error := p'.error, transactionMode := p'.transactionMode }) {α : Type}
    (value : α) : Follows limit p (.takes value p.stream) (.ok (some value, p')) := by
  have stream : p'.stream = p.stream := by rw [same, stream, stream]
  rw [← stream]
  exact .takes (valid.keeps same)

/-- `read_bulk_2` follows its scan. -/
theorem readBulk2_follows {limit : Nat} {p : RedisProtocol π} (valid : p.Valid)
    (fits : p.Fits limit) {header : Bytes} (some : header ≠ []) :
    Follows limit p (ReplyScan.bulkBehind p.decode limit header p.stream)
      ((p.readBulk2 header).map id) := by
  unfold ReplyScan.bulkBehind readBulk2
  refine Follows.number valid some (fun p' => ⟨_, _, rfl⟩) fun i decoded => ?_
  obtain ⟨-, high⟩ := decode_range decoded
  change Follows limit p _ (Except.map id (if i < -1 ∨ i = 0 then _ else if i = -1 then _ else _))
  by_cases bad : i < -1 ∨ i = 0
  · rw [if_pos bad, if_pos bad]
    exact .refused valid _ _
  · rw [if_neg bad, if_neg bad]
    by_cases nil : i = -1
    · rw [if_pos nil, if_pos nil]
      exact .pure p valid rfl none
    · rw [if_neg nil, if_neg nil]
      refine (read_follows valid fits (by omega) (by omega)).bind ?_ ?_
      · intro x bytes p' seen keeps scanned
        obtain rfl := flagged_some seen
        have size := ReplyScan.payload_length scanned
        change Follows limit p' _ (Except.map id (if i.toNat ≠ bytes.length then _ else _))
        rw [if_neg (by omega)]
        exact Follows.pure p' keeps.goes.reads.valid rfl (Option.some bytes)
      · intro x p' seen
        obtain ⟨flag, rfl⟩ := flagged_none seen
        obtain ⟨ok, bytes, left⟩ := x
        obtain rfl : ok = false := flag
        rfl

/-- `read_bulk` follows its scan. -/
theorem readBulk_follows {limit : Nat} {p : RedisProtocol π} (valid : p.Valid)
    (fits : p.Fits limit) :
    Follows limit p (ReplyScan.bulk p.decode limit p.stream) (p.readBulk.map id) := by
  unfold ReplyScan.bulk readBulk
  refine (readLine_follows valid fits).bind ?_ ?_
  · intro x header p' seen keeps scanned
    obtain rfl := flagged_some seen
    have some := (ReplyScan.line_eq_takes.mp scanned).2
    rw [← keeps.goes.decode]
    change Follows limit p' _ (Except.map id (if header.head? = Option.some 36 then _ else _))
    by_cases marker : header.head? = Option.some 36
    · rw [if_pos marker, if_pos marker]
      exact readBulk2_follows keeps.goes.reads.valid (keeps.fits fits) some
    · rw [if_neg marker, if_neg marker]
      exact .refused keeps.goes.reads.valid _ _
  · intro x p' seen
    obtain ⟨flag, rfl⟩ := flagged_none seen
    obtain ⟨ok, bytes, left⟩ := x
    obtain rfl : ok = false := flag
    rfl

/-- The loop of `read_multi_bulk_2` follows the scan of so many bulks. -/
theorem readBulks_follows {limit : Nat} (count : Nat) {p : RedisProtocol π} (valid : p.Valid)
    (fits : p.Fits limit) :
    Follows limit p (Scan.times (ReplyScan.bulk p.decode limit) count p.stream)
      ((readBulks count p).map id) := by
  induction count generalizing p with
  | zero => exact Follows.pure p valid rfl []
  | succ count ih =>
    rw [Scan.times, readBulks]
    refine (readBulk_follows valid fits).bind ?_ ?_
    · rintro ⟨bulk, left⟩ value p' seen keeps -
      obtain ⟨rfl, rfl⟩ := Prod.mk.inj seen
      have rest := ih keeps.goes.reads.valid (keeps.fits fits)
      rw [keeps.goes.decode] at rest
      refine rest.bind ?_ ?_
      · rintro ⟨bulks, last⟩ values p'' seen keeps' -
        obtain ⟨rfl, rfl⟩ := Prod.mk.inj seen
        exact Follows.pure last keeps'.goes.reads.valid rfl (value :: values)
      · rintro ⟨bulks, last⟩ p'' seen
        obtain ⟨rfl, rfl⟩ := Prod.mk.inj seen
        rfl
    · rintro ⟨bulk, left⟩ p' seen
      obtain ⟨rfl, rfl⟩ := Prod.mk.inj seen
      rfl

/-- `__read_reply` behind the line of a number follows its scan. -/
theorem readInteger_follows {limit : Nat} {p : RedisProtocol π} (valid : p.Valid) {header : Bytes}
    (some : header ≠ []) :
    Follows limit p (ReplyScan.integerReply p.decode header p.stream)
      ((p.readInteger header).map flagged) := by
  unfold ReplyScan.integerReply readInteger
  exact Follows.number valid some (fun p' => ⟨_, _, rfl⟩)
    fun i _ => Follows.pure p valid rfl (RedisOutput.i i)

/-- `__read_reply` behind the header of a bulk follows its scan. -/
theorem readBulkReply_follows {limit : Nat} {p : RedisProtocol π} (valid : p.Valid)
    (fits : p.Fits limit) {header : Bytes} (some : header ≠ []) :
    Follows limit p (ReplyScan.bulkReply p.decode limit header p.stream)
      ((p.readBulkReply header).map flagged) := by
  unfold ReplyScan.bulkReply readBulkReply
  refine (readBulk2_follows valid fits some).bind ?_ ?_
  · rintro ⟨bulk, left⟩ value p' seen keeps -
    obtain ⟨rfl, rfl⟩ := Prod.mk.inj seen
    cases value with
    | none => exact Follows.pure left keeps.goes.reads.valid rfl RedisOutput.nilBulk
    | some bytes => exact Follows.pure left keeps.goes.reads.valid rfl (RedisOutput.bulk bytes)
  · rintro ⟨bulk, left⟩ p' seen
    obtain ⟨rfl, rfl⟩ := Prod.mk.inj seen
    rfl

/-- The branches of `__read_reply` behind the header of an array, for a multi-bulk of bulks. -/
theorem readMultiBulkReply_eq (p : RedisProtocol π) (header : Bytes) :
    p.readMultiBulkReply header = p.parseInteger header >>= fun (number, p) =>
      match number with
      | none => .ok (p.abandon (ascii "read") (ascii "integer error : " ++ header)).refused
      | some i =>
        if i < -1 then
          .ok (p.abandon (ascii "read") (ascii "unexpected integer : " ++ Decimal.intText i)).refused
        else if i = -1 then .ok (true, .nilMbulks, p)
        else if 2 ^ 60 ≤ i then .error .lengthError
        else
          readBulks i.toNat p >>= fun (bulks, p) =>
            match bulks with
            | none => .ok p.refused
            | some bulks => .ok (true, .mbulks bulks, p) := by
  have most : maxSize 8 = 2 ^ 60 - 1 := by decide
  cases parsed : p.parseInteger header with
  | error abort =>
    rw [readMultiBulkReply, readMultiBulk2, parsed]
    rfl
  | ok returned =>
    obtain ⟨_ | i, left⟩ := returned
    · rw [readMultiBulkReply, readMultiBulk2, parsed]
      rfl
    · rw [readMultiBulkReply, readMultiBulk2_number parsed, most]
      change _ = (if i < -1 then _ else if i = -1 then _ else if 2 ^ 60 ≤ i then _ else _)
      by_cases low : i < -1
      · rw [if_pos low, if_pos low]
        rfl
      rw [if_neg low, if_neg low]
      by_cases nil : i = -1
      · rw [if_pos nil, if_pos nil]
        rfl
      rw [if_neg nil, if_neg nil]
      by_cases large : 2 ^ 60 ≤ i
      · rw [if_pos large, if_pos (by omega)]
        rfl
      · rw [if_neg large, if_neg (by omega)]
        cases readBulks i.toNat left with
        | error abort => rfl
        | ok read =>
          obtain ⟨_ | bulks, last⟩ := read
          · rfl
          · rfl

/-- `__read_reply` behind the header of an array follows its scan, for a multi-bulk of bulks. -/
theorem readMultiBulkReply_follows {limit : Nat} {p : RedisProtocol π} (valid : p.Valid)
    (fits : p.Fits limit) {header : Bytes} (some : header ≠ []) :
    Follows limit p (ReplyScan.multiBulkReply p.decode limit header p.stream)
      ((p.readMultiBulkReply header).map flagged) := by
  rw [readMultiBulkReply_eq]
  unfold ReplyScan.multiBulkReply
  refine Follows.number valid some (fun p' => ⟨_, _, rfl⟩) fun i _ => ?_
  change Follows limit p _ (Except.map flagged (if i < -1 then _ else if i = -1 then _ else
    if 2 ^ 60 ≤ i then _ else _))
  by_cases bad : i < -1
  · rw [if_pos bad, if_pos bad]
    exact .refused valid _ _
  rw [if_neg bad, if_neg bad]
  by_cases nil : i = -1
  · rw [if_pos nil, if_pos nil]
    exact Follows.pure p valid rfl RedisOutput.nilMbulks
  rw [if_neg nil, if_neg nil]
  by_cases large : 2 ^ 60 ≤ i
  · rw [if_pos large, if_pos large]
    exact .aborts (fun _ _ => rfl) fun _ _ => Or.inr rfl
  · rw [if_neg large, if_neg large]
    refine (readBulks_follows i.toNat valid fits).bind ?_ ?_
    · rintro ⟨bulks, left⟩ values p' seen keeps -
      obtain ⟨rfl, rfl⟩ := Prod.mk.inj seen
      exact Follows.pure left keeps.goes.reads.valid rfl (RedisOutput.mbulks values)
    · rintro ⟨bulks, left⟩ p' seen
      obtain ⟨rfl, rfl⟩ := Prod.mk.inj seen
      rfl

/-- The loop over the elements of an array follows the scan of so many elements, if the child
follows the scan of one on every stream below a bound. -/
theorem readChildren_follows {limit bound : Nat} {decode : Bytes → Option Int}
    {child : RedisOutput → RedisProtocol π → Except Abort (Bool × RedisOutput × RedisProtocol π)}
    {element : Bytes → Scan UInt8 RedisOutput}
    (reads : ∀ (p : RedisProtocol π), p.Valid → p.Fits limit → p.decode = decode →
      p.stream.length < bound → ∀ output,
        Follows limit p (element p.stream) ((child output p).map flagged))
    (count : Nat) {p : RedisProtocol π} (valid : p.Valid) (fits : p.Fits limit)
    (decodes : p.decode = decode) (short : p.stream.length < bound) :
    Follows limit p (Scan.times element count p.stream) ((readChildren child count p).map id) := by
  induction count generalizing p with
  | zero => exact Follows.pure p valid rfl []
  | succ count ih =>
    rw [Scan.times, readChildren]
    refine (reads p valid fits decodes short .none).bind ?_ ?_
    · intro x value p' seen keeps _
      obtain rfl := flagged_some seen
      have shorter := keeps.suffix.length_le
      have rest := ih keeps.goes.reads.valid (keeps.fits fits) (keeps.goes.decode.trans decodes)
        (by omega)
      refine rest.bind ?_ ?_
      · rintro ⟨outputs, last⟩ values p'' seen keeps' -
        obtain ⟨rfl, rfl⟩ := Prod.mk.inj seen
        exact Follows.pure last keeps'.goes.reads.valid rfl (value :: values)
      · rintro ⟨outputs, last⟩ p'' seen
        obtain ⟨rfl, rfl⟩ := Prod.mk.inj seen
        rfl
    · intro x p' seen
      obtain ⟨flag, rfl⟩ := flagged_none seen
      obtain ⟨ok, output, left⟩ := x
      obtain rfl : ok = false := flag
      rfl

/-- `__read_reply` behind the header of an array, treated as a special multi-bulk, follows its
scan. -/
theorem readSpecialMultiBulk_follows {limit bound : Nat}
    {child : RedisOutput → RedisProtocol π → Except Abort (Bool × RedisOutput × RedisProtocol π)}
    {element : Bytes → Scan UInt8 RedisOutput} {p : RedisProtocol π}
    (reads : ∀ (p' : RedisProtocol π), p'.Valid → p'.Fits limit → p'.decode = p.decode →
      p'.stream.length < bound → ∀ output,
        Follows limit p' (element p'.stream) ((child output p').map flagged))
    (valid : p.Valid) (fits : p.Fits limit) (short : p.stream.length < bound)
    {header : Bytes} (some : header ≠ []) (endsTransaction : Bool) (output : RedisOutput) :
    Follows limit p (ReplyScan.specialReply p.decode element header p.stream)
      ((readSpecialMultiBulk child endsTransaction output p header).map flagged) := by
  unfold ReplyScan.specialReply readSpecialMultiBulk
  refine Follows.number valid some (fun p' => ⟨_, _, rfl⟩) fun i _ => ?_
  change Follows limit p _ (Except.map flagged (if i = -1 then _ else _))
  by_cases nil : i = -1
  · rw [if_pos nil, if_pos nil]
    exact Follows.pure { p with transactionMode := p.transactionMode && !endsTransaction }
      valid rfl RedisOutput.nilSmbulks
  · rw [if_neg nil, if_neg nil]
    refine (readChildren_follows reads i.toNat valid fits rfl short).bind ?_ ?_
    · rintro ⟨outputs, left⟩ values p' seen keeps -
      obtain ⟨rfl, rfl⟩ := Prod.mk.inj seen
      exact Follows.pure
        { left with transactionMode := left.transactionMode && !endsTransaction }
        keeps.goes.reads.valid rfl (RedisOutput.smbulks values)
    · rintro ⟨outputs, left⟩ p' seen
      obtain ⟨rfl, rfl⟩ := Prod.mk.inj seen
      rfl

/-- The switch of `__read_reply` as a chain of tests of the first byte. -/
theorem readReplyLine_eq
    (child : RedisOutput → RedisProtocol π → Except Abort (Bool × RedisOutput × RedisProtocol π))
    (command : Command) (isCommandOut check : Bool) (exp : ReplyType) (output : RedisOutput)
    (p : RedisProtocol π) (marker : UInt8) (text : Bytes) :
    readReplyLine child command isCommandOut check exp output p (marker :: text) =
      if marker = 45 then .ok { p with error := text }.refused
      else if marker = 43 then
        if check && exp != .status then .ok (p.typeError "+")
        else .ok (true, .status text,
          { p with transactionMode := modeAfterStatus p.transactionMode command })
      else if marker = 58 then
        if check && exp != .integer then .ok (p.typeError ":") else p.readInteger (marker :: text)
      else if marker = 36 then
        if check && exp != .bulk then .ok (p.typeError "$") else p.readBulkReply (marker :: text)
      else if marker = 42 then
        if check && exp != .multiBulk && exp != .specialMultiBulk then .ok (p.typeError "*")
        else if exp = .multiBulk then p.readMultiBulkReply (marker :: text)
        else readSpecialMultiBulk child (command == .exec && isCommandOut) output p (marker :: text)
      else
        .ok (p.abandon (ascii "read") (ascii "unexpected reply " ++ (marker :: text))).refused := by
  unfold readReplyLine
  split
  · contradiction
  · rename_i shape
    cases shape
    rfl
  · rename_i shape
    cases shape
    rfl
  · rename_i shape
    cases shape
    rfl
  · rename_i shape
    cases shape
    rfl
  · rename_i shape
    cases shape
    rfl
  · rename_i error status integer bulk array
    rw [if_neg fun same => error text (by rw [same]), if_neg fun same => status text (by rw [same]),
      if_neg fun same => integer text (by rw [same]), if_neg fun same => bulk text (by rw [same]),
      if_neg fun same => array text (by rw [same])]

/-- A failing exit for a reply of another type refuses the stream. -/
theorem typeError_follows {limit : Nat} {p : RedisProtocol π} (valid : p.Valid) (mark : String) :
    Follows limit p .refuses ((Except.ok (p.typeError mark) : Except Abort _).map flagged) :=
  .refused valid _ _

/-- The switch of `__read_reply` follows its scan. -/
theorem readReplyLine_follows {limit bound : Nat}
    {child : RedisOutput → RedisProtocol π → Except Abort (Bool × RedisOutput × RedisProtocol π)}
    {element : Bytes → Scan UInt8 RedisOutput} {p : RedisProtocol π} {command : Command}
    {check : Bool} (isCommandOut : Bool) {exp type : ReplyType} (holds : Holds check exp type)
    (reads : type = .specialMultiBulk ∨ type = .depends → ∀ (p' : RedisProtocol π), p'.Valid →
      p'.Fits limit → p'.decode = p.decode → p'.stream.length < bound → ∀ output,
        Follows limit p' (element p'.stream) ((child output p').map flagged))
    (valid : p.Valid) (fits : p.Fits limit) (short : p.stream.length < bound)
    (output : RedisOutput) (marker : UInt8) (text : Bytes) :
    Follows limit p (ReplyScan.replyBehind p.decode limit element type (marker :: text) p.stream)
      ((readReplyLine child command isCommandOut check exp output p (marker :: text)).map
        flagged) := by
  have typed (other : ReplyType) (mark : String) {scan : Scan UInt8 RedisOutput}
      {call : Except Abort (Bool × RedisOutput × RedisProtocol π)}
      (follows : type = other ∨ type = .depends → Follows limit p scan (call.map flagged)) :
      Follows limit p (if type = other ∨ type = .depends then scan else .refuses)
        (Except.map flagged (if check && exp != other then .ok (p.typeError mark) else call)) := by
    rcases holds.check other with ⟨fails, notDepends, different⟩ | ⟨passes, allowed⟩
    · rw [if_neg (not_or.mpr ⟨different, notDepends⟩), if_pos fails]
      exact typeError_follows valid mark
    · rw [if_pos allowed, if_neg (by simp [passes])]
      exact follows allowed
  have some : marker :: text ≠ [] := List.cons_ne_nil _ _
  rw [readReplyLine_eq, ReplyScan.replyBehind]
  simp only [List.head?_cons, Option.some.injEq, List.tail_cons]
  by_cases error : marker = 45
  · rw [if_pos error, if_pos error]
    have keeps : p.Keeps { p with error := text } := valid.keeps rfl
    exact .stops keeps
  rw [if_neg error, if_neg error]
  by_cases status : marker = 43
  · rw [if_pos status, if_pos status]
    exact typed .status "+" fun _ => Follows.pure
      { p with transactionMode := modeAfterStatus p.transactionMode command } valid rfl
      (RedisOutput.status text)
  rw [if_neg status, if_neg status]
  by_cases integer : marker = 58
  · rw [if_pos integer, if_pos integer]
    exact typed .integer ":" fun _ => readInteger_follows valid some
  rw [if_neg integer, if_neg integer]
  by_cases bulk : marker = 36
  · rw [if_pos bulk, if_pos bulk]
    exact typed .bulk "$" fun _ => readBulkReply_follows valid fits some
  rw [if_neg bulk, if_neg bulk]
  by_cases array : marker = 42
  · rw [if_pos array, if_pos array]
    rcases holds with ⟨rfl, rfl, notDepends⟩ | ⟨rfl, rfl, notMultiBulk⟩
    · by_cases multiBulk : type = .multiBulk
      · rw [if_pos multiBulk, if_neg (by simp [multiBulk]), if_pos multiBulk]
        exact readMultiBulkReply_follows valid fits some
      · by_cases special : type = .specialMultiBulk
        · rw [if_neg multiBulk, if_pos (Or.inl special), if_neg (by simp [special]),
            if_neg multiBulk]
          exact readSpecialMultiBulk_follows (reads (Or.inl special)) valid fits short some _ _
        · rw [if_neg multiBulk, if_neg (not_or.mpr ⟨special, notDepends⟩),
            if_pos (by simp [multiBulk, special])]
          exact typeError_follows valid "*"
    · rw [if_neg (by simp), if_pos (Or.inr rfl), if_neg (by simp), if_neg notMultiBulk]
      exact readSpecialMultiBulk_follows (reads (Or.inr rfl)) valid fits short some _ _
  · rw [if_neg array, if_neg array]
    exact .refused valid _ _

/-- `__read_reply` follows its scan on every stream that is shorter than the fuel. The induction is
on the fuel: each level of nesting reads a line. -/
theorem readReplyInner_follows {limit : Nat} (command : Command) (fuel : Nat) (isCommandOut : Bool)
    (nested : isCommandOut = false → ReadsElements command) (output : RedisOutput)
    {p : RedisProtocol π} (valid : p.Valid) (fits : p.Fits limit)
    (short : p.stream.length < fuel) :
    Follows limit p
      (ReplyScan.reply p.decode limit fuel (typeRead isCommandOut p.transactionMode command) p.stream)
      ((readReplyInner command fuel isCommandOut output p).map flagged) := by
  induction fuel generalizing isCommandOut output p with
  | zero => omega
  | succ fuel ih =>
    obtain ⟨holds, -, elementwise⟩ := holds_typeRead isCommandOut p.transactionMode nested
    rw [readReplyInner, ReplyScan.reply]
    refine (readLine_follows valid fits).bind ?_ ?_
    · intro x header p' seen keeps scanned
      obtain rfl := flagged_some seen
      have some := (ReplyScan.line_eq_takes.mp scanned).2
      have shorter := ReplyScan.line_shorter scanned
      obtain ⟨marker, text, rfl⟩ := List.exists_cons_of_ne_nil some
      rw [← keeps.goes.decode]
      have below : p'.stream.length < fuel := by omega
      refine readReplyLine_follows isCommandOut holds ?_ keeps.goes.reads.valid (keeps.fits fits)
        below output marker text
      intro types p'' valid' fits' decodes below output'
      have inner := ih false (fun _ => elementwise types) output' valid' fits' below
      rw [decodes] at inner
      exact inner
    · intro x p' seen
      obtain ⟨flag, rfl⟩ := flagged_none seen
      obtain ⟨ok, bytes, left⟩ := x
      obtain rfl : ok = false := flag
      rfl

/-- The scan of the reply that `read_reply` reads for a command. -/
def scan (p : RedisProtocol π) (limit : Nat) (c : RedisCommand) : Scan UInt8 RedisOutput :=
  ReplyScan.reply p.decode limit (p.stream.length + 1) (p.replyType c) p.stream

/-- `read_reply` follows its scan. -/
theorem readReply_follows {limit : Nat} {p : RedisProtocol π} (valid : p.Valid)
    (fits : p.Fits limit) (c : RedisCommand) :
    ∃ result : Except Abort (Bool × RedisOutput × RedisProtocol π),
      Follows limit p (p.scan limit c) (result.map flagged) ∧
      p.readReply c = result.map fun (ok, out, p') => (ok, { c with out := out }, p') := by
  have length : p.tcpClient.buffer.readSize + p.tcpClient.os.incoming.length = p.stream.length := by
    rw [stream, TcpClient.stream, List.length_append, valid.buffer.length_unread]
  refine ⟨_, readReplyInner_follows c.command (p.stream.length + 1) true
    (fun wrong => absurd wrong (by decide)) c.out valid fits (Nat.lt_succ_self _), ?_⟩
  rw [readReply, length]
  generalize readReplyInner c.command _ true c.out p = result
  cases result with
  | error abort => rfl
  | ok returned => rfl

/-- Where `read_reply` returns true, its scan takes the output. -/
theorem readReply_takes {limit : Nat} {p p' : RedisProtocol π} (valid : p.Valid)
    (fits : p.Fits limit) {c c' : RedisCommand} (returns : p.readReply c = .ok (true, c', p')) :
    c' = { c with out := c'.out } ∧ p.Keeps p' ∧ p.scan limit c = .takes c'.out p'.stream := by
  obtain ⟨result, follows, same⟩ := readReply_follows valid fits c
  rw [returns] at same
  obtain ⟨⟨ok, out, last⟩, rfl, shows⟩ := map_returns same.symm
  obtain ⟨rfl, rest⟩ := Prod.mk.inj shows
  obtain ⟨rfl, rfl⟩ := Prod.mk.inj rest
  generalize p.scan limit c = scan at follows
  generalize seen : (Except.ok (true, out, last) : Except Abort _).map flagged = shown at follows
  cases follows with
  | aborts => cases seen
  | closes | stops => cases seen
  | takes keeps =>
    cases seen
    exact ⟨rfl, keeps, rfl⟩

/-- Where the network does not keep it waiting, `read_reply` does not return only if its scan
stalls. -/
theorem scan_stalls {p : RedisProtocol π} (valid : p.Valid) (roomy : p.Roomy) (prompt : p.Prompt)
    {c : RedisCommand} {abort : Abort} (aborts : p.readReply c = .error abort) :
    p.scan (2 ^ 62) c = .stalls := by
  obtain ⟨result, follows, same⟩ := readReply_follows valid (Or.inr ⟨rfl, roomy⟩) c
  rw [same] at aborts
  cases result with
  | ok returned => cases aborts
  | error reason =>
    generalize p.scan (2 ^ 62) c = scan at follows
    generalize seen : (Except.error reason : Except Abort _).map flagged = shown at follows
    cases follows with
    | aborts stalls => exact stalls rfl prompt
    | closes | takes | stops => cases seen

/-- Where all the bytes arrive and the scan stalls, `read_reply` does not return. -/
theorem readReply_of_stalls {p : RedisProtocol π} (valid : p.Valid) (roomy : p.Roomy)
    (arrives : p.Arrives) {c : RedisCommand} (stalls : p.scan (2 ^ 62) c = .stalls) :
    ∃ abort, p.readReply c = .error abort := by
  obtain ⟨result, follows, same⟩ := readReply_follows valid (Or.inr ⟨rfl, roomy⟩) c
  rw [stalls] at follows
  cases result with
  | error abort => exact ⟨abort, same⟩
  | ok returned =>
    generalize wanted : (Scan.stalls : Scan UInt8 RedisOutput) = scan at follows
    generalize seen : (Except.ok returned : Except Abort _).map flagged = shown at follows
    cases follows with
    | aborts => cases seen
    | closes _ reason =>
      rcases reason rfl arrives with wrong | wrong
      · cases wanted.trans wrong
      · cases wanted.trans wrong
    | takes | stops => cases wanted

/-- Where all the bytes arrive and the scan takes an output, `read_reply` returns true. -/
theorem readReply_of_takes {p : RedisProtocol π} (valid : p.Valid) (roomy : p.Roomy)
    (arrives : p.Arrives) {c : RedisCommand} {out : RedisOutput} {rest : Bytes}
    (takes : p.scan (2 ^ 62) c = .takes out rest) :
    ∃ p', p.readReply c = .ok (true, { c with out := out }, p') := by
  obtain ⟨result, follows, same⟩ := readReply_follows valid (Or.inr ⟨rfl, roomy⟩) c
  rw [takes] at follows
  generalize seen : result.map flagged = shown at follows
  generalize wanted : Scan.takes out rest = scan at follows
  cases follows with
  | aborts _ late =>
    rcases late rfl arrives with wrong | wrong
    · cases wanted.trans wrong
    · cases wanted.trans wrong
  | closes _ reason =>
    rcases reason rfl arrives with wrong | wrong
    · cases wanted.trans wrong
    · cases wanted.trans wrong
  | stops => cases wanted
  | @takes value p' keeps =>
    cases wanted
    obtain ⟨returned, rfl, shows⟩ := map_returns seen
    obtain rfl := flagged_some shows
    exact ⟨p', same⟩

end RedisProtocol

end LibRedis
