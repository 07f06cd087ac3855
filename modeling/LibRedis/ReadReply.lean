import LibRedis.RedisProtocol
import LibRedis.Reply
import LibRedis.TcpStream

/-!
# What reading a reply does

`read_reply` on a stream that begins with a well-formed reply either takes exactly that reply, or
stops at an error inside it, or closes the connection. The lemmas follow the functions of the
reader from the inside out; `readReplyInner_read` is the induction over nested arrays.
-/

namespace LibRedis

open Decimal (ascii isDigit intText text Numeral)
open Resp (Reply crlf encode encodeAll)

/-- A digit is no NUL, no space and no sign. -/
theorem digit_plain {byte : UInt8} (digit : isDigit byte = true) :
    byte ≠ 0 ∧ isSpace byte = false ∧ byte ≠ 45 ∧ byte ≠ 43 ∧ byte ≠ 13 := by
  simp only [isDigit, Bool.and_eq_true, decide_eq_true_eq, UInt8.le_iff_toNat_le] at digit
  simp only [isSpace, ← UInt8.toNat_inj, ne_eq, Bool.or_eq_false_iff, beq_eq_false_iff_ne,
    Bool.and_eq_false_iff, decide_eq_false_iff_not, UInt8.le_iff_toNat_le]
  change 48 ≤ byte.toNat ∧ byte.toNat ≤ 57 at digit
  change byte.toNat ≠ 0 ∧ (byte.toNat ≠ 32 ∧ (¬ 9 ≤ byte.toNat ∨ ¬ byte.toNat ≤ 13)) ∧
    byte.toNat ≠ 45 ∧ byte.toNat ≠ 43 ∧ byte.toNat ≠ 13
  omega

/-- `strtol` returns the number of a numeral, if it has 64 bits, and reports any other one. -/
theorem strtol_numeral {π : Type} (os : Os π) {text : Bytes} {value : Int}
    (numeral : Numeral text value) :
    os.strtol text =
      if value < -2 ^ 63 then (-2 ^ 63, { os with errno := erange })
      else if 2 ^ 63 ≤ value then (2 ^ 63 - 1, { os with errno := erange })
      else (value, os) := by
  have noNul {digits : Bytes} (all : ∀ byte ∈ digits, isDigit byte = true) :
      digits.takeWhile (· != 0) = digits :=
    List.takeWhile_eq_self_iff.mpr fun byte member => by
      simpa using (digit_plain (all byte member)).1
  have whole {digits : Bytes} (all : ∀ byte ∈ digits, isDigit byte = true) :
      digits.takeWhile isDigit = digits := List.takeWhile_eq_self_iff.mpr all
  cases numeral with
  | @plain digits some all =>
    obtain ⟨first, rest, rfl⟩ := List.exists_cons_of_ne_nil some
    obtain ⟨-, space, minus, plus, -⟩ := digit_plain (all first List.mem_cons_self)
    have start : (first :: rest).dropWhile isSpace = first :: rest := by
      rw [List.dropWhile_cons, space]
      rfl
    have noSign : skipSign (first :: rest) = (false, first :: rest) := by
      rw [skipSign, if_neg minus, if_neg plus]
    rw [Os.strtol, noNul all, start, noSign]
    simp only [whole all, if_neg some]
    generalize Decimal.value (first :: rest) = number
    rw [if_neg (show ¬ (number : Int) < -2 ^ 63 by omega), if_neg (by decide)]
    by_cases high : 2 ^ 63 ≤ number
    · rw [if_pos high, if_pos (by omega)]
    · rw [if_neg high, if_neg (by omega)]
  | @plus digits some all =>
    have text : (43 :: digits).takeWhile (· != 0) = 43 :: digits := by
      rw [List.takeWhile_cons, noNul all]
      rfl
    have start : (43 :: digits).dropWhile isSpace = 43 :: digits := by
      rw [List.dropWhile_cons]
      rfl
    rw [Os.strtol, text, start, skipSign, if_neg (by decide), if_pos rfl]
    simp only [whole all, if_neg some]
    generalize Decimal.value digits = number
    rw [if_neg (show ¬ (number : Int) < -2 ^ 63 by omega), if_neg (by decide)]
    by_cases high : 2 ^ 63 ≤ number
    · rw [if_pos high, if_pos (by omega)]
    · rw [if_neg high, if_neg (by omega)]
  | @minus digits some all =>
    have text : (45 :: digits).takeWhile (· != 0) = 45 :: digits := by
      rw [List.takeWhile_cons, noNul all]
      rfl
    have start : (45 :: digits).dropWhile isSpace = 45 :: digits := by
      rw [List.dropWhile_cons]
      rfl
    rw [Os.strtol, text, start, skipSign, if_pos rfl]
    simp only [whole all, if_neg some, if_true]
    generalize Decimal.value digits = number
    by_cases low : 2 ^ 63 < number
    · rw [if_pos low, if_pos (by omega)]
    · rw [if_neg low, if_neg (by omega), if_neg (by omega)]

/-- So it does with a printed number. -/
theorem strtol_intText {π : Type} (os : Os π) (value : Int) :
    os.strtol (intText value) =
      if value < -2 ^ 63 then (-2 ^ 63, { os with errno := erange })
      else if 2 ^ 63 ≤ value then (2 ^ 63 - 1, { os with errno := erange })
      else (value, os) :=
  strtol_numeral os (Decimal.numeral_intText value)

/-- A marker before a line is no part of an end of the line. -/
theorem no_crlf_cons {marker : UInt8} (other : marker ≠ 13) {line : Bytes}
    (clean : ¬ crlf <:+: line) : ¬ crlf <:+: marker :: line := by
  intro inside
  rcases List.infix_cons_iff.mp inside with front | behind
  · obtain ⟨rest, shape⟩ := front
    exact other (List.cons.inj shape).1.symm
  · exact clean behind

namespace RedisProtocol

variable {π : Type}

/-- The bytes of the connection not yet consumed. -/
def stream (p : RedisProtocol π) : Bytes := p.tcpClient.stream

/-- The client under the protocol is valid. -/
abbrev Valid (p : RedisProtocol π) : Prop := p.tcpClient.Valid

/-- Every `recv` hands over bytes that have arrived. -/
abbrev Delivers (p : RedisProtocol π) : Prop := p.tcpClient.os.Delivers

/-- `errno` holds neither of the two values that `parse_integer` takes for a failure. -/
def CleanErrno (p : RedisProtocol π) : Prop :=
  p.tcpClient.os.errno ≠ einval ∧ p.tcpClient.os.errno ≠ erange

/-- What a reader has no room for. The receive buffer is a vector of at most `2 ^ 62` bytes, which
must hold a line with its ends and the 512 bytes that are asked for behind it, or a bulk with the two
bytes behind it; a vector of pointers has less than `2 ^ 60` elements. -/
abbrev readerLimits : Resp.Limits where
  line := 2 ^ 62 - 514
  bulk := 2 ^ 62 - 2
  count := 2 ^ 60

/-- What a reading operation may change. -/
structure Reads (p p' : RedisProtocol π) : Prop where
  /-- The client only receives. -/
  client : p.tcpClient.Receives p'.tcpClient
  /-- The host stays. -/
  host : p'.host = p.host
  /-- The port stays. -/
  port : p'.port = p.port
  /-- The timeout stays. -/
  timeout : p'.timeout = p.timeout

/-- Reading has closed the connection. -/
structure Ends (p p' : RedisProtocol π) : Prop where
  /-- Nothing else has changed. -/
  reads : p.Reads p'
  /-- There is no connection. -/
  fd : p'.tcpClient.fd = -1
  /-- The blocking mode is off. -/
  blockingMode : p'.blockingMode = false
  /-- The transaction mode is off. -/
  transactionMode : p'.transactionMode = false

/-- Reading has kept the connection. -/
structure Goes (p p' : RedisProtocol π) : Prop where
  /-- Nothing else has changed. -/
  reads : p.Reads p'
  /-- The descriptor stays. -/
  fd : p'.tcpClient.fd = p.tcpClient.fd
  /-- The blocking mode stays. -/
  blockingMode : p'.blockingMode = p.blockingMode
  /-- No system call has failed. -/
  errno : p'.tcpClient.os.errno = p.tcpClient.os.errno

/-- A protocol object is valid after reading. -/
theorem Reads.valid {p p' : RedisProtocol π} (reads : p.Reads p') : p'.Valid := reads.client.valid

/-- Reading twice is reading. -/
theorem Reads.trans {p p' p'' : RedisProtocol π} (left : p.Reads p') (right : p'.Reads p'') :
    p.Reads p'' where
  client := left.client.trans right.client
  host := right.host.trans left.host
  port := right.port.trans left.port
  timeout := right.timeout.trans left.timeout

/-- A change of the error text and the transaction mode only. -/
theorem Valid.goes {p p' : RedisProtocol π} (valid : p.Valid)
    (same : p' = { p with error := p'.error, transactionMode := p'.transactionMode }) :
    p.Goes p' := by
  rw [same]
  exact ⟨⟨.refl valid, rfl, rfl, rfl⟩, rfl, rfl, rfl⟩

/-- Keeping the connection twice keeps it. -/
theorem Goes.trans {p p' p'' : RedisProtocol π} (left : p.Goes p') (right : p'.Goes p'') :
    p.Goes p'' where
  reads := left.reads.trans right.reads
  fd := right.fd.trans left.fd
  blockingMode := right.blockingMode.trans left.blockingMode
  errno := right.errno.trans left.errno

/-- Closing later closes. -/
theorem Reads.ends {p p' p'' : RedisProtocol π} (left : p.Reads p') (right : p'.Ends p'') :
    p.Ends p'' where
  reads := left.trans right.reads
  fd := right.fd
  blockingMode := right.blockingMode
  transactionMode := right.transactionMode

/-- Bytes are handed over as before. -/
theorem Reads.delivers {p p' : RedisProtocol π} (reads : p.Reads p') (delivers : p.Delivers) :
    p'.Delivers :=
  delivers.suffix reads.client.script

/-- `errno` stays clean. -/
theorem Goes.clean {p p' : RedisProtocol π} (goes : p.Goes p') (clean : p.CleanErrno) :
    p'.CleanErrno := by
  rw [CleanErrno, goes.errno]
  exact clean

/-- A connection that was closed has nothing left. -/
theorem Ends.stream_nil {p p' : RedisProtocol π} (ends : p.Ends p') : p'.stream = [] :=
  ends.reads.valid.closed ends.fd

/-- Giving up closes the connection. -/
theorem Valid.abandon_ends {p : RedisProtocol π} (valid : p.Valid) (action detail : Bytes) :
    p.Ends (p.abandon action detail) where
  reads := ⟨valid.close_receives.1, rfl, rfl, rfl⟩
  fd := valid.close_receives.2
  blockingMode := rfl
  transactionMode := rfl

/-- How the lines of the stream, or the bytes counted off it, reach the protocol. -/
theorem received_cases {p : RedisProtocol π} {returned : Bytes × Int × TcpClient π} :
    (p.tcpClient.Loses returned →
      ∃ line p', { p with tcpClient := returned.2.2 }.received returned.1 returned.2.1 =
        (false, line, p') ∧ p.Ends p') ∧
    (p.tcpClient.Takes returned →
      (returned.1 = [] ∧ ∃ line p',
        { p with tcpClient := returned.2.2 }.received returned.1 returned.2.1 =
          (false, line, p') ∧ p.Ends p') ∨
      (returned.1 ≠ [] ∧
        { p with tcpClient := returned.2.2 }.received returned.1 returned.2.1 =
          (true, returned.1, { p with tcpClient := returned.2.2 }) ∧
        p.Goes { p with tcpClient := returned.2.2 })) := by
  have reads : p.tcpClient.Receives returned.2.2 →
      p.Reads { p with tcpClient := returned.2.2 } := fun receives => ⟨receives, rfl, rfl, rfl⟩
  constructor
  · intro loses
    have before := reads loses.receives
    rw [received]
    split
    · exact ⟨_, _, rfl, before.ends (before.valid.abandon_ends _ _)⟩
    · rw [if_pos loses.empty]
      exact ⟨_, _, rfl, before.ends (before.valid.abandon_ends _ _)⟩
  · intro takes
    have before := reads takes.receives
    rw [received, if_neg (not_not.mpr takes.code)]
    split
    · rename_i empty
      exact Or.inl ⟨empty, _, _, rfl, before.ends (before.valid.abandon_ends _ _)⟩
    · rename_i more
      exact Or.inr ⟨more, rfl, before, takes.fd, rfl, takes.errno⟩

/-- A line at the front of the stream is taken. -/
theorem readLine_line {p : RedisProtocol π} (valid : p.Valid) {marker : UInt8}
    (other : marker ≠ 13) {line rest : Bytes} (clean : ¬ crlf <:+: line)
    (shape : p.stream = marker :: (line ++ crlf ++ rest)) :
    (∃ abort, p.readLine = .error abort ∧ ¬ (p.Delivers ∧ line.length < readerLimits.line)) ∨
    (∃ l p', p.readLine = .ok (false, l, p') ∧ p.Ends p' ∧ ¬ p.Delivers) ∨
    (∃ c, p.readLine = .ok (true, marker :: line, { p with tcpClient := c }) ∧
      p.Goes { p with tcpClient := c } ∧ c.stream = rest) := by
  have splits : Delimited.Splits crlf p.tcpClient.stream (marker :: line) rest := by
    change Delimited.Splits crlf p.stream _ _
    rw [shape]
    exact Delimited.splits_pair (by decide) (no_crlf_cons other clean) rest
  have step : ∀ returned, p.tcpClient.readLine redisLineEnd p.readTimeout = .ok returned →
      p.readLine = .ok ({ p with tcpClient := returned.2.2 }.received returned.1 returned.2.1) := by
    intro returned same
    rw [readLine, same]
    rfl
  rcases TcpClient.readLine_cases valid redisLineEnd (by decide) p.readTimeout with
    ⟨abort, aborts, -, reason⟩ | ⟨returned, same, loses, none⟩ | ⟨returned, same, takes, taken⟩
  · refine Or.inl ⟨abort, ?_, fun ⟨delivers, short⟩ => ?_⟩
    · rw [readLine, aborts]
      rfl
    · have long := reason delivers _ _ splits
      have ends : redisLineEnd.length = 2 := rfl
      have limit : readerLimits.line = 2 ^ 62 - 514 := rfl
      simp only [List.length_cons, kDefaultBufferSize] at long
      omega
  · obtain ⟨l, p', result, ends⟩ := received_cases.1 loses
    refine Or.inr (Or.inl ⟨l, p', ?_, ends, fun delivers => none delivers _ _ splits⟩)
    rw [step _ same, result]
  · obtain ⟨piece, left⟩ := taken.unique splits
    have more : returned.1 ≠ [] := by
      rw [piece]
      exact List.cons_ne_nil _ _
    rcases received_cases.2 takes with ⟨empty, -⟩ | ⟨-, result, goes⟩
    · exact absurd empty more
    · refine Or.inr (Or.inr ⟨returned.2.2, ?_, goes, left⟩)
      rw [step _ same, result, piece]

/-- So many bytes at the front of the stream are taken, with the end of the line behind them. -/
theorem read_bytes {p : RedisProtocol π} (valid : p.Valid) {bytes rest : Bytes}
    (some : bytes ≠ []) (small : bytes.length < 2 ^ 63)
    (shape : p.stream = bytes ++ crlf ++ rest) :
    (∃ abort, p.read bytes.length = .error abort ∧
      ¬ (p.Delivers ∧ bytes.length < readerLimits.bulk)) ∨
    (∃ l p', p.read bytes.length = .ok (false, l, p') ∧ p.Ends p' ∧ ¬ p.Delivers) ∨
    (∃ c, p.read bytes.length = .ok (true, bytes, { p with tcpClient := c }) ∧
      p.Goes { p with tcpClient := c } ∧ c.stream = rest) := by
  have positive := List.length_pos_iff.mpr some
  have size : p.tcpClient.stream.length = bytes.length + redisLineEnd.length + rest.length := by
    change p.stream.length = _
    rw [shape, List.length_append, List.length_append]
  have ends : redisLineEnd.length = 2 := rfl
  have step : ∀ returned, p.tcpClient.read bytes.length redisLineEnd p.readTimeout = .ok returned →
      p.read bytes.length =
        .ok ({ p with tcpClient := returned.2.2 }.received returned.1 returned.2.1) := by
    intro returned same
    rw [read, same]
    rfl
  rcases TcpClient.read_cases valid redisLineEnd positive (by omega) p.readTimeout with
    ⟨abort, aborts, -, reason⟩ | ⟨returned, same, loses, none⟩ | ⟨returned, same, takes, counted⟩
  · refine Or.inl ⟨abort, ?_, fun ⟨delivers, short⟩ => ?_⟩
    · rw [read, aborts]
      rfl
    · have limit : readerLimits.bulk = 2 ^ 62 - 2 := rfl
      have tooShort := reason delivers (by omega)
      omega
  · obtain ⟨l, p', result, ends⟩ := received_cases.1 loses
    refine Or.inr (Or.inl ⟨l, p', ?_, ends, fun delivers => ?_⟩)
    · rw [step _ same, result]
    · have tooShort := none delivers
      omega
  · obtain ⟨dropped, two, split⟩ := counted.eq
    have whole : returned.1 ++ (dropped ++ returned.2.2.stream) = bytes ++ (crlf ++ rest) := by
      rw [← List.append_assoc, ← split, ← List.append_assoc]
      exact shape
    obtain ⟨sameBytes, behind⟩ := List.append_inj whole counted.size
    obtain ⟨-, left⟩ := List.append_inj behind two
    rcases received_cases.2 takes with ⟨empty, -⟩ | ⟨-, result, goes⟩
    · exact absurd (sameBytes.symm.trans empty) some
    · refine Or.inr (Or.inr ⟨returned.2.2, ?_, goes, left⟩)
      rw [step _ same, result, sameBytes]

/-- Whether `strtol` can return a number. -/
def InRange (value : Int) : Prop := -2 ^ 63 ≤ value ∧ value < 2 ^ 63

/-- A number of 64 bits is read from a header as long as `errno` is clean. -/
theorem parseInteger_ok {p : RedisProtocol π} (clean : p.CleanErrno) {value : Int}
    (range : InRange value) (marker : UInt8) :
    p.parseInteger (marker :: intText value) = .ok (some value, p) := by
  rw [parseInteger]
  simp only [strtol_intText]
  rw [if_neg (not_lt.mpr range.1), if_neg (not_le.mpr range.2)]
  exact if_neg (not_or.mpr clean)

/-- Otherwise the header is taken for one without a number. -/
theorem parseInteger_none {p : RedisProtocol π} {value : Int}
    (bad : ¬ (p.CleanErrno ∧ InRange value)) (marker : UInt8) :
    ∃ errno, p.parseInteger (marker :: intText value) = .ok (none, { p with
      tcpClient := { p.tcpClient with os := { p.tcpClient.os with errno := errno } } }) := by
  rw [parseInteger]
  simp only [strtol_intText]
  by_cases low : value < -2 ^ 63
  · exact ⟨erange, by rw [if_pos low]; exact if_pos (Or.inr rfl)⟩
  · by_cases high : 2 ^ 63 ≤ value
    · exact ⟨erange, by rw [if_neg low, if_pos high]; exact if_pos (Or.inr rfl)⟩
    · have unclean : p.tcpClient.os.errno = einval ∨ p.tcpClient.os.errno = erange := by
        by_contra clean
        exact bad ⟨not_or.mp clean, not_lt.mp low, not_le.mp high⟩
      exact ⟨p.tcpClient.os.errno, by rw [if_neg low, if_neg high]; exact if_pos unclean⟩

/-- Giving up after a header without a number closes the connection. -/
theorem Valid.parse_ends {p : RedisProtocol π} (valid : p.Valid) (errno : Int)
    (action detail : Bytes) :
    p.Ends (({ p with tcpClient := { p.tcpClient with
      os := { p.tcpClient.os with errno := errno } } } : RedisProtocol π).abandon action detail) := by
  have set : p.Reads { p with tcpClient := { p.tcpClient with
      os := { p.tcpClient.os with errno := errno } } } :=
    ⟨TcpClient.Valid.errno_receives valid errno, rfl, rfl, rfl⟩
  exact set.ends (set.valid.abandon_ends action detail)

/-- Nothing stands in the way of reading a reply: its bytes are handed over as they arrive,
`errno` is clean, and there is room for everything in it. -/
structure Smooth (p : RedisProtocol π) (r : Reply) : Prop where
  /-- Bytes are handed over. -/
  delivers : p.Delivers
  /-- `errno` is clean. -/
  clean : p.CleanErrno
  /-- There is room. -/
  bounded : r.Bounded readerLimits

/-- `read_bulk_2` behind the header line of a bulk that is not empty. -/
theorem readBulk2_bytes {p : RedisProtocol π} (clean : p.CleanErrno) {bytes : Bytes}
    (more : bytes ≠ []) (fits : bytes.length < 2 ^ 63) :
    p.readBulk2 (36 :: intText (bytes.length : Int)) =
      (p.read bytes.length >>= fun (ok, bulk, p) =>
        if !ok then pure (none, p)
        else if bytes.length ≠ bulk.length then
          pure (none, p.abandon (ascii "read") (ascii "unexpected reply " ++ bulk))
        else pure (some (some bulk), p)) := by
  have positive := List.length_pos_iff.mpr more
  rw [readBulk2, parseInteger_ok clean ⟨by omega, by omega⟩ 36]
  change (if (bytes.length : Int) < -1 ∨ (bytes.length : Int) = 0 then _
    else if (bytes.length : Int) = -1 then _ else _) = _
  rw [if_neg (by omega), if_neg (by omega)]
  rfl

/-- `read_bulk_2` behind the header line of a bulk. -/
theorem readBulk2_reads {p : RedisProtocol π} (valid : p.Valid) {r : Reply} (isBulk : IsBulk r)
    {rest : Bytes} (shape : p.stream = r.body ++ rest) :
    (∃ abort, p.readBulk2 (36 :: intText (r.announced)) = .error abort ∧ ¬ p.Smooth r) ∨
    (∃ p', p.readBulk2 (36 :: intText (r.announced)) = .ok (none, p') ∧ p.Ends p' ∧
      (p.Smooth r → ¬ Readable r)) ∨
    (∃ c, p.readBulk2 (36 :: intText (r.announced)) =
        .ok (some (bulkOf r), { p with tcpClient := c }) ∧
      p.Goes { p with tcpClient := c } ∧ c.stream = rest ∧ Readable r) := by
  by_cases good : p.CleanErrno ∧ InRange (r.announced)
  · have parsed := parseInteger_ok good.1 good.2 36
    rcases isBulk with rfl | ⟨bytes, rfl⟩
    · refine Or.inr (Or.inr ⟨p.tcpClient, ?_, valid.goes rfl, shape, .nilBulk⟩)
      rw [readBulk2, parsed]
      rfl
    · have range := good.2
      simp only [InRange, Reply.announced] at range
      by_cases empty : bytes = []
      · subst empty
        have stops : p.readBulk2 (36 :: intText (Reply.announced (.bulk []))) = .ok (none,
            p.abandon (ascii "read") (ascii "unexpected integer : " ++ intText 0)) := by
          rw [readBulk2, parsed]
          rfl
        refine Or.inr (Or.inl ⟨_, stops, valid.abandon_ends _ _, fun _ readable => ?_⟩)
        cases readable with
        | bulk some _ => exact some rfl
      · have positive := List.length_pos_iff.mpr empty
        change (∃ abort, p.readBulk2 (36 :: intText (bytes.length : Int)) = _ ∧ _) ∨
          (∃ p', p.readBulk2 (36 :: intText (bytes.length : Int)) = _ ∧ _) ∨
          (∃ c, p.readBulk2 (36 :: intText (bytes.length : Int)) = _ ∧ _)
        rw [readBulk2_bytes good.1 empty (by omega)]
        rcases read_bytes valid empty (by omega) shape with
          ⟨abort, aborts, reason⟩ | ⟨l, p', fails, ends, reason⟩ | ⟨c, takes, goes, left⟩
        · refine Or.inl ⟨abort, ?_, fun smooth => ?_⟩
          · rw [aborts]
            rfl
          · cases smooth.bounded with
            | bulk short => exact reason ⟨smooth.delivers, short⟩
        · refine Or.inr (Or.inl ⟨p', ?_, ends, fun smooth => absurd smooth.delivers reason⟩)
          rw [fails]
          rfl
        · refine Or.inr (Or.inr ⟨c, ?_, goes, left, .bulk empty (by omega)⟩)
          rw [takes]
          change (if bytes.length ≠ bytes.length then _ else _) = _
          rw [if_neg (not_not.mpr rfl)]
          rfl
  · obtain ⟨errno, parsed⟩ := parseInteger_none good 36
    have ends := valid.parse_ends errno (ascii "read")
      (ascii "integer error : " ++ 36 :: intText (r.announced))
    refine Or.inr (Or.inl ⟨_, ?_, ends, fun smooth readable => ?_⟩)
    · rw [readBulk2, parsed]
      rfl
    · refine good ⟨smooth.clean, ?_⟩
      rcases isBulk with rfl | ⟨bytes, rfl⟩
      · exact ⟨by decide, by decide⟩
      · cases readable with
        | bulk _ short =>
          simp only [InRange, Reply.announced]
          omega

/-- What is smooth stays smooth while the connection is kept. -/
theorem Goes.smooth {p p' : RedisProtocol π} (goes : p.Goes p') {r : Reply}
    (smooth : p.Smooth r) : p'.Smooth r where
  delivers := goes.reads.delivers smooth.delivers
  clean := goes.clean smooth.clean
  bounded := smooth.bounded

/-- The first byte of a reply is no part of an end of a line. -/
theorem marker_ne (r : Reply) : r.marker ≠ 13 := by
  cases r <;> simp [Reply.marker]

/-- The first line of a reply is taken. -/
theorem readLine_reply {p : RedisProtocol π} (valid : p.Valid) {r : Reply}
    (wellFormed : r.WellFormed) {rest : Bytes} (shape : p.stream = encode r ++ rest) :
    (∃ abort, p.readLine = .error abort ∧ ¬ p.Smooth r) ∨
    (∃ l p', p.readLine = .ok (false, l, p') ∧ p.Ends p' ∧ ¬ p.Delivers) ∨
    (∃ c, p.readLine = .ok (true, r.marker :: r.line, { p with tcpClient := c }) ∧
      p.Goes { p with tcpClient := c } ∧ c.stream = r.body ++ rest) := by
  rw [Resp.encode_eq, List.cons_append, List.append_assoc (r.line ++ crlf)] at shape
  refine (readLine_line valid (marker_ne r) wellFormed.line shape).imp_left ?_
  rintro ⟨abort, aborts, reason⟩
  refine ⟨abort, aborts, fun smooth => reason ⟨smooth.delivers, ?_⟩⟩
  exact smooth.bounded.line (by decide) (by decide) (by decide)

/-- `read_bulk` on a stream that begins with a reply: it takes a bulk and nothing else. -/
theorem readBulk_reads {p : RedisProtocol π} (valid : p.Valid) {r : Reply}
    (wellFormed : r.WellFormed) {rest : Bytes} (shape : p.stream = encode r ++ rest) :
    (∃ abort, p.readBulk = .error abort ∧ ¬ p.Smooth r) ∨
    (∃ p', p.readBulk = .ok (none, p') ∧ p.Ends p' ∧
      (p.Smooth r → ¬ (IsBulk r ∧ Readable r))) ∨
    (∃ c, p.readBulk = .ok (some (bulkOf r), { p with tcpClient := c }) ∧
      p.Goes { p with tcpClient := c } ∧ c.stream = rest ∧ IsBulk r ∧ Readable r) := by
  rcases readLine_reply valid wellFormed shape with
    ⟨abort, aborts, reason⟩ | ⟨l, p', fails, ends, reason⟩ | ⟨c, takes, goes, left⟩
  · refine Or.inl ⟨abort, ?_, reason⟩
    rw [readBulk, aborts]
    rfl
  · refine Or.inr (Or.inl ⟨p', ?_, ends, fun smooth => absurd smooth.delivers reason⟩)
    rw [readBulk, fails]
    rfl
  · have next : p.readBulk = if r.marker = 36 then
          RedisProtocol.readBulk2 { p with tcpClient := c } (r.marker :: r.line)
        else .ok (none, RedisProtocol.abandon { p with tcpClient := c } (ascii "read")
          (ascii "reply type error $")) := by
      rw [readBulk, takes]
      change (if some r.marker = some 36 then _ else _) = _
      simp only [Option.some.injEq]
      rfl
    by_cases isBulk : IsBulk r
    · have marker : r.marker = 36 := by
        rcases isBulk with rfl | ⟨bytes, rfl⟩ <;> rfl
      have line : r.line = intText r.announced := by
        rcases isBulk with rfl | ⟨bytes, rfl⟩ <;> rfl
      rw [next, if_pos marker, marker, line]
      rcases readBulk2_reads goes.reads.valid isBulk left with
        ⟨abort, aborts, reason⟩ | ⟨p', fails, ends, reason⟩ | ⟨c', reads, further, rest, readable⟩
      · exact Or.inl ⟨abort, aborts, fun smooth => reason (goes.smooth smooth)⟩
      · exact Or.inr (Or.inl ⟨p', fails, goes.reads.ends ends, fun smooth both =>
          reason (goes.smooth smooth) both.2⟩)
      · exact Or.inr (Or.inr ⟨c', reads, goes.trans further, rest, isBulk, readable⟩)
    · have marker : r.marker ≠ 36 := by
        cases r with
        | bulk bytes => exact absurd (Or.inr ⟨bytes, rfl⟩) isBulk
        | nilBulk => exact absurd (Or.inl rfl) isBulk
        | status | error | integer | array | nilArray => simp [Reply.marker]
      rw [next, if_neg marker]
      exact Or.inr (Or.inl ⟨_, rfl, goes.reads.ends (goes.reads.valid.abandon_ends _ _),
        fun _ both => isBulk both.1⟩)

/-- The loop of `read_multi_bulk_2` takes all the elements or closes the connection. -/
theorem readBulks_reads (elements : List Reply) {p : RedisProtocol π} (valid : p.Valid)
    (wellFormed : ∀ e ∈ elements, e.WellFormed) {rest : Bytes}
    (shape : p.stream = encodeAll elements ++ rest) :
    (∃ abort, readBulks elements.length p = .error abort ∧ ¬ ∀ e ∈ elements, p.Smooth e) ∨
    (∃ p', readBulks elements.length p = .ok (none, p') ∧ p.Ends p' ∧
      ((∀ e ∈ elements, p.Smooth e) → ¬ ∀ e ∈ elements, IsBulk e ∧ Readable e)) ∨
    (∃ c, readBulks elements.length p = .ok (some (elements.map bulkOf), { p with tcpClient := c }) ∧
      p.Goes { p with tcpClient := c } ∧ c.stream = rest ∧
      ∀ e ∈ elements, IsBulk e ∧ Readable e) := by
  induction elements generalizing p with
  | nil => exact Or.inr (Or.inr ⟨p.tcpClient, rfl, valid.goes rfl, shape, by simp⟩)
  | cons first others ih =>
    rw [encodeAll, List.append_assoc] at shape
    have firstOf : (∀ e ∈ first :: others, p.Smooth e) → p.Smooth first :=
      fun smooth => smooth first (by simp)
    rcases readBulk_reads valid (wellFormed first (by simp)) shape with
      ⟨abort, aborts, reason⟩ | ⟨p', fails, ends, reason⟩ | ⟨c, takes, goes, left, bulk⟩
    · refine Or.inl ⟨abort, ?_, fun smooth => reason (firstOf smooth)⟩
      rw [List.length_cons, readBulks, aborts]
      rfl
    · refine Or.inr (Or.inl ⟨p', ?_, ends, fun smooth all => ?_⟩)
      · rw [List.length_cons, readBulks, fails]
        rfl
      · exact reason (firstOf smooth) (all first (by simp))
    · have later : (∀ e ∈ first :: others, p.Smooth e) →
          ∀ e ∈ others, RedisProtocol.Smooth { p with tcpClient := c } e :=
        fun smooth e member => goes.smooth (smooth e (by simp [member]))
      rcases ih goes.reads.valid (fun e member => wellFormed e (by simp [member])) left with
        ⟨abort, aborts, reason⟩ | ⟨p', fails, ends, reason⟩ | ⟨c', reads, further, rest, bulks⟩
      · refine Or.inl ⟨abort, ?_, fun smooth => reason (later smooth)⟩
        rw [List.length_cons, readBulks, takes]
        change (readBulks others.length _ >>= _) = _
        rw [aborts]
        rfl
      · refine Or.inr (Or.inl ⟨p', ?_, goes.reads.ends ends, fun smooth all => ?_⟩)
        · rw [List.length_cons, readBulks, takes]
          change (readBulks others.length _ >>= _) = _
          rw [fails]
          rfl
        · exact reason (later smooth) fun e member => all e (by simp [member])
      · refine Or.inr (Or.inr ⟨c', ?_, goes.trans further, rest, ?_⟩)
        · rw [List.length_cons, readBulks, takes]
          change (readBulks others.length _ >>= _) = _
          rw [reads]
          rfl
        · intro e member
          rcases List.mem_cons.mp member with rfl | behind
          · exact bulk
          · exact bulks e behind

/-- How reading a reply for a reply type can turn out. The mode is the transaction mode after an
accepted reply. -/
inductive Turns (type : ReplyType) (mode : Bool) (p : RedisProtocol π) (r : Reply) (rest : Bytes) :
    Except Abort (Bool × RedisOutput × RedisProtocol π) → Prop
  /-- It does not return: it waits for ever, or there is no room. -/
  | aborts {abort : Abort} (reason : ¬ p.Smooth r) : Turns type mode p r rest (.error abort)
  /-- It closes the connection. -/
  | ends {out : RedisOutput} {p' : RedisProtocol π} (ends : p.Ends p')
      (reason : p.Smooth r → ¬ Accepts type r ∧ ∀ left, ¬ Refuses type r left) :
      Turns type mode p r rest (.ok (false, out, p'))
  /-- It takes the reply and nothing else. -/
  | accepts {p' : RedisProtocol π} (goes : p.Goes p') (changes : p'.transactionMode = mode)
      (left : p'.stream = rest) (accepts : Accepts type r) :
      Turns type mode p r rest (.ok (true, denoteAs type r, p'))
  /-- It stops at an error inside the reply and leaves the rest of it. -/
  | refuses {out : RedisOutput} {p' : RedisProtocol π} {left : List Reply} (goes : p.Goes p')
      (keeps : p'.transactionMode = p.transactionMode)
      (unread : p'.stream = encodeAll left ++ rest) (clean : IsArray r → p.CleanErrno)
      (refuses : Refuses type r left) : Turns type mode p r rest (.ok (false, out, p'))

/-- Going on after some bytes were taken turns out as the rest does. -/
theorem Turns.after {type : ReplyType} {mode : Bool} {p p' : RedisProtocol π} {r : Reply}
    {rest : Bytes} {result : Except Abort (Bool × RedisOutput × RedisProtocol π)}
    (goes : p.Goes p') (same : p'.transactionMode = p.transactionMode)
    (turns : Turns type mode p' r rest result) : Turns type mode p r rest result := by
  cases turns with
  | aborts reason => exact .aborts fun smooth => reason (goes.smooth smooth)
  | ends ends reason => exact .ends (goes.reads.ends ends) fun smooth => reason (goes.smooth smooth)
  | accepts further changes left accepts =>
    exact .accepts (goes.trans further) changes left accepts
  | refuses further keeps left clean refuses =>
    refine .refuses (goes.trans further) (keeps.trans same) left (fun isArray => ?_) refuses
    have later := clean isArray
    rwa [CleanErrno, goes.errno] at later

/-- Of a reply that is neither an error nor an array, nothing is ever left. -/
theorem not_refuses {type : ReplyType} {r : Reply} (notError : ∀ text, r ≠ .error text)
    (notArray : ¬ IsArray r) : ∀ left, ¬ Refuses type r left := by
  rintro left (⟨text, rfl, -⟩ | ⟨-, isArray, -⟩)
  · exact notError text rfl
  · exact notArray isArray

/-- Untyped reading stops where an error is met. -/
theorem refuses_depends {r : Reply} {left : List Reply} :
    Refuses .depends r left ↔ MeetsError r left := by
  constructor
  · rintro (⟨text, rfl, rfl⟩ | ⟨-, -, meets⟩)
    · exact .error text
    · exact meets
  · intro meets
    cases meets with
    | error text => exact Or.inl ⟨text, rfl, rfl⟩
    | array short readable meets =>
      exact Or.inr ⟨Or.inl rfl, Or.inr ⟨_, rfl⟩, .array short readable meets⟩

/-- `__read_reply` behind the line of a number. -/
theorem readInteger_turns {p : RedisProtocol π} (valid : p.Valid) {type : ReplyType}
    (allowed : type = .integer ∨ type = .depends) (value : Int) {rest : Bytes}
    (shape : p.stream = rest) :
    Turns type p.transactionMode p (.integer value) rest
      (p.readInteger (58 :: intText value)) := by
  have denotes : denoteAs type (.integer value) = .i value := by
    rcases allowed with rfl | rfl <;> rfl
  by_cases good : p.CleanErrno ∧ InRange value
  · have result : p.readInteger (58 :: intText value) = .ok (true, .i value, p) := by
      rw [readInteger, parseInteger_ok good.1 good.2]
      rfl
    have readable : Readable (.integer value) := .integer good.2.1 good.2.2
    rw [result, ← denotes]
    refine .accepts (valid.goes rfl) rfl shape ?_
    rcases allowed with rfl | rfl
    · exact ⟨⟨value, rfl⟩, readable⟩
    · exact readable
  · obtain ⟨errno, parsed⟩ := parseInteger_none good 58
    have ends := valid.parse_ends errno (ascii "read")
      (ascii "integer error : " ++ 58 :: intText value)
    rw [readInteger, parsed]
    refine .ends ends fun smooth => ⟨fun accepts => ?_, not_refuses (by simp) (by simp [IsArray])⟩
    cases accepts.readable with
    | integer low high => exact good ⟨smooth.clean, low, high⟩

/-- `__read_reply` behind the header of a bulk. -/
theorem readBulkReply_turns {p : RedisProtocol π} (valid : p.Valid) {type : ReplyType}
    (allowed : type = .bulk ∨ type = .depends) {r : Reply} (isBulk : IsBulk r) {rest : Bytes}
    (shape : p.stream = r.body ++ rest) :
    Turns type p.transactionMode p r rest (p.readBulkReply (36 :: intText r.announced)) := by
  have notArray : ¬ IsArray r := by
    rcases isBulk with rfl | ⟨bytes, rfl⟩ <;> simp [IsArray]
  have notError : ∀ text, r ≠ .error text := by
    rcases isBulk with rfl | ⟨bytes, rfl⟩ <;> simp
  rcases readBulk2_reads valid isBulk shape with
    ⟨abort, aborts, reason⟩ | ⟨p', fails, ends, reason⟩ | ⟨c, takes, goes, left, readable⟩
  · rw [readBulkReply, aborts]
    exact .aborts reason
  · rw [readBulkReply, fails]
    exact .ends ends fun smooth =>
      ⟨fun accepts => reason smooth accepts.readable, not_refuses notError notArray⟩
  · have result : p.readBulkReply (36 :: intText r.announced) =
        .ok (true, denoteAs type r, { p with tcpClient := c }) := by
      rw [readBulkReply, takes]
      rcases isBulk with rfl | ⟨bytes, rfl⟩ <;> rcases allowed with rfl | rfl <;> rfl
    rw [result]
    refine .accepts goes rfl left ?_
    rcases allowed with rfl | rfl
    · exact ⟨isBulk, readable⟩
    · exact readable

/-- Smoothness of an array is smoothness of each element. -/
theorem Smooth.elements {p : RedisProtocol π} {elements : List Reply}
    (smooth : p.Smooth (.array elements)) : ∀ e ∈ elements, p.Smooth e := by
  intro e member
  cases smooth.bounded with
  | array short all => exact ⟨smooth.delivers, smooth.clean, all e member⟩

/-- `read_multi_bulk_2` behind the header of an array that announces a number. -/
theorem readMultiBulk2_number {p p' : RedisProtocol π} {header : Bytes} {i : Int}
    (parsed : p.parseInteger header = .ok (some i, p')) :
    p.readMultiBulk2 header =
      if i < -1 then
        .ok (none, p'.abandon (ascii "read") (ascii "unexpected integer : " ++ intText i))
      else if i = -1 then .ok (some none, p')
      else if maxSize 8 < i.toNat then .error .lengthError
      else readBulks i.toNat p' >>= fun (bulks, p) => pure (bulks.map some, p) := by
  rw [readMultiBulk2, parsed]
  rfl

/-- `read_multi_bulk_2` behind the header of an array: it makes room for the pointers first. -/
theorem readMultiBulk2_elements {p : RedisProtocol π} (clean : p.CleanErrno) {count : Nat}
    (fits : count < 2 ^ 63) : p.readMultiBulk2 (42 :: intText (count : Int)) =
      if 2 ^ 60 ≤ count then .error .lengthError
      else readBulks count p >>= fun (bulks, p) => pure (bulks.map some, p) := by
  have most : maxSize 8 = 2 ^ 60 - 1 := by decide
  rw [readMultiBulk2_number (parseInteger_ok clean ⟨by omega, by omega⟩ 42), if_neg (by omega),
    if_neg (by omega), most, Int.toNat_natCast]
  by_cases large : 2 ^ 60 ≤ count
  · rw [if_pos large, if_pos (by omega)]
  · rw [if_neg large, if_neg (by omega)]

/-- `__read_reply` behind the header of an array, for a multi-bulk of bulks. -/
theorem readMultiBulkReply_turns {p : RedisProtocol π} (valid : p.Valid) {r : Reply}
    (isArray : IsArray r) (wellFormed : r.WellFormed) {rest : Bytes}
    (shape : p.stream = r.body ++ rest) :
    Turns .multiBulk p.transactionMode p r rest
      (p.readMultiBulkReply (42 :: intText r.announced)) := by
  have notRefused : ∀ left, ¬ Refuses .multiBulk r left := by
    rintro left (⟨text, rfl, -⟩ | ⟨wrong, -⟩)
    · simp [IsArray] at isArray
    · simp at wrong
  by_cases good : p.CleanErrno ∧ InRange r.announced
  · have parsed := parseInteger_ok good.1 good.2 42
    rcases isArray with rfl | ⟨elements, rfl⟩
    · have result : p.readMultiBulkReply (42 :: intText (Reply.announced .nilArray)) =
          .ok (true, denoteAs .multiBulk .nilArray, p) := by
        rw [readMultiBulkReply, readMultiBulk2, parsed]
        rfl
      rw [result]
      exact .accepts (valid.goes rfl) rfl shape ⟨Or.inl rfl, .nilArray, by simp⟩
    · have range := good.2
      simp only [InRange, Reply.announced] at range
      have all : ∀ e ∈ elements, e.WellFormed := by
        cases wellFormed with
        | array all => exact all
      rw [readMultiBulkReply, Reply.announced, readMultiBulk2_elements good.1 (by omega)]
      by_cases large : 2 ^ 60 ≤ elements.length
      · rw [if_pos large]
        refine .aborts fun smooth => ?_
        cases smooth.bounded with
        | array short _ => exact absurd short (not_lt.mpr large)
      rw [if_neg large]
      rcases readBulks_reads elements valid all shape with
        ⟨abort, aborts, reason⟩ | ⟨p', fails, ends, reason⟩ | ⟨c, takes, goes, left, bulks⟩
      · rw [aborts]
        exact .aborts fun smooth => reason smooth.elements
      · rw [fails]
        refine .ends ends fun smooth => ⟨fun accepts => ?_, notRefused⟩
        refine reason smooth.elements fun e member => ⟨accepts.2.2 elements rfl e member, ?_⟩
        cases accepts.2.1 with
        | array _ readable => exact readable e member
      · rw [takes]
        refine .accepts goes rfl left ⟨Or.inr ⟨elements, rfl⟩, ?_, ?_⟩
        · exact .array (by omega) fun e member => (bulks e member).2
        · rintro others same
          obtain rfl := Reply.array.inj same
          exact fun e member => (bulks e member).1
  · obtain ⟨errno, parsed⟩ := parseInteger_none good 42
    have ends := valid.parse_ends errno (ascii "read")
      (ascii "integer error : " ++ 42 :: intText r.announced)
    rw [readMultiBulkReply, readMultiBulk2, parsed]
    refine .ends ends fun smooth => ⟨fun accepts => ?_, notRefused⟩
    refine good ⟨smooth.clean, ?_⟩
    cases accepts.2.1 with
    | array short all =>
      simp only [InRange, Reply.announced]
      omega
    | nilArray => exact ⟨by decide, by decide⟩
    | status | integer | bulk | nilBulk => simp [IsArray] at isArray

/-- The loop over the elements of an array, for a child that reads each of them without a type. -/
theorem readChildren_reads
    {child : RedisOutput → RedisProtocol π → Except Abort (Bool × RedisOutput × RedisProtocol π)}
    (elements : List Reply)
    (reads : ∀ e ∈ elements, ∀ (p : RedisProtocol π), p.Valid → ∀ rest output,
      p.stream = encode e ++ rest →
        Turns .depends p.transactionMode p e rest (child output p))
    {p : RedisProtocol π} (valid : p.Valid) {rest : Bytes}
    (shape : p.stream = encodeAll elements ++ rest) :
    (∃ abort, readChildren child elements.length p = .error abort ∧
      ¬ ∀ e ∈ elements, p.Smooth e) ∨
    (∃ p', readChildren child elements.length p = .ok (none, p') ∧ p.Ends p' ∧
      ((∀ e ∈ elements, p.Smooth e) →
        (¬ ∀ e ∈ elements, Readable e) ∧ ∀ left, ¬ MeetsErrorIn elements left)) ∨
    (∃ p', readChildren child elements.length p = .ok (some (denoteAll elements), p') ∧
      p.Goes p' ∧ p'.transactionMode = p.transactionMode ∧ p'.stream = rest ∧
      ∀ e ∈ elements, Readable e) ∨
    (∃ p' left, readChildren child elements.length p = .ok (none, p') ∧ p.Goes p' ∧
      p'.transactionMode = p.transactionMode ∧ p'.stream = encodeAll left ++ rest ∧
      MeetsErrorIn elements left) := by
  induction elements generalizing p with
  | nil => exact Or.inr (Or.inr (Or.inl ⟨p, rfl, valid.goes rfl, rfl, shape, by simp⟩))
  | cons first others ih =>
    rw [encodeAll, List.append_assoc] at shape
    have firstOf : (∀ e ∈ first :: others, p.Smooth e) → p.Smooth first :=
      fun smooth => smooth first (by simp)
    have head := reads first (by simp) p valid _ .none shape
    rw [List.length_cons, readChildren]
    revert head
    generalize child .none p = result
    rintro (reason | ⟨ends, reason⟩ | ⟨goes, mode, left, readable⟩ |
      ⟨goes, mode, left, -, meets⟩)
    · exact Or.inl ⟨_, rfl, fun smooth => reason (firstOf smooth)⟩
    · refine Or.inr (Or.inl ⟨_, rfl, ends, fun smooth => ?_⟩)
      obtain ⟨notReadable, notMeets⟩ := reason (firstOf smooth)
      refine ⟨fun all => notReadable (all first (by simp)), fun left meetsIn => ?_⟩
      rcases meetsErrorIn_cons.mp meetsIn with ⟨inner, meets, -⟩ | ⟨readable, -⟩
      · exact notMeets inner (refuses_depends.mpr meets)
      · exact notReadable readable
    · rename_i p'
      have later : (∀ e ∈ first :: others, p.Smooth e) → ∀ e ∈ others, p'.Smooth e :=
        fun smooth e member => goes.smooth (smooth e (by simp [member]))
      rcases ih (fun e member => reads e (by simp [member])) goes.reads.valid left with
        ⟨abort, aborts, reason⟩ | ⟨p'', fails, ends, reason⟩ |
        ⟨p'', takes, further, same, rest, all⟩ | ⟨p'', unread, stops, further, same, rest, meets⟩
      · refine Or.inl ⟨abort, ?_, fun smooth => reason (later smooth)⟩
        change (readChildren child others.length p' >>= _) = _
        rw [aborts]
        rfl
      · refine Or.inr (Or.inl ⟨p'', ?_, goes.reads.ends ends, fun smooth => ?_⟩)
        · change (readChildren child others.length p' >>= _) = _
          rw [fails]
          rfl
        · obtain ⟨notReadable, notMeets⟩ := reason (later smooth)
          refine ⟨fun all => notReadable fun e member => all e (by simp [member]), ?_⟩
          intro left meetsIn
          rcases meetsErrorIn_cons.mp meetsIn with ⟨inner, meets, -⟩ | ⟨-, meets⟩
          · exact readable.not_meets meets
          · exact notMeets left meets
      · refine Or.inr (Or.inr (Or.inl ⟨p'', ?_, goes.trans further, same.trans mode, rest, ?_⟩))
        · change (readChildren child others.length p' >>= _) = _
          rw [takes]
          rfl
        · intro e member
          rcases List.mem_cons.mp member with rfl | behind
          · exact readable
          · exact all e behind
      · refine Or.inr (Or.inr (Or.inr ⟨p'', unread, ?_, goes.trans further, same.trans mode, rest,
          meetsErrorIn_cons.mpr (Or.inr ⟨readable, meets⟩)⟩))
        change (readChildren child others.length p' >>= _) = _
        rw [stops]
        rfl
    · rename_i p' inner
      refine Or.inr (Or.inr (Or.inr ⟨p', inner ++ others, rfl, goes, mode, ?_,
        meetsErrorIn_cons.mpr (Or.inl ⟨inner, refuses_depends.mp meets, rfl⟩)⟩))
      rw [left, Resp.encodeAll_append, List.append_assoc]

/-- `__read_reply` behind the header of an array that is not nil, treated as a special
multi-bulk. -/
theorem readSpecialMultiBulk_elements
    {child : RedisOutput → RedisProtocol π → Except Abort (Bool × RedisOutput × RedisProtocol π)}
    {p : RedisProtocol π} (clean : p.CleanErrno) {count : Nat} (fits : count < 2 ^ 63)
    (endsTransaction : Bool) (output : RedisOutput) :
    readSpecialMultiBulk child endsTransaction output p (42 :: intText (count : Int)) =
      (readChildren child count p >>= fun (smbulks, p) =>
        match smbulks with
        | none => pure (false, output, p)
        | some smbulks => pure (true, .smbulks smbulks,
            { p with transactionMode := p.transactionMode && !endsTransaction })) := by
  rw [readSpecialMultiBulk, parseInteger_ok clean ⟨by omega, by omega⟩ 42]
  rfl

/-- `__read_reply` behind the header of an array, treated as a special multi-bulk. -/
theorem readSpecialMultiBulk_turns
    {child : RedisOutput → RedisProtocol π → Except Abort (Bool × RedisOutput × RedisProtocol π)}
    {r : Reply}
    (reads : ∀ elements, r = .array elements → ∀ e ∈ elements, ∀ (p : RedisProtocol π), p.Valid →
      ∀ rest output, p.stream = encode e ++ rest →
        Turns .depends p.transactionMode p e rest (child output p))
    {p : RedisProtocol π} (valid : p.Valid) {type : ReplyType}
    (allowed : type = .specialMultiBulk ∨ type = .depends) (isArray : IsArray r) {rest : Bytes}
    (shape : p.stream = r.body ++ rest) (endsTransaction : Bool) (output : RedisOutput) :
    Turns type (p.transactionMode && !endsTransaction) p r rest
      (readSpecialMultiBulk child endsTransaction output p (42 :: intText r.announced)) := by
  have accepts : Readable r → Accepts type r := by
    intro readable
    rcases allowed with rfl | rfl
    · exact ⟨isArray, readable⟩
    · exact readable
  have denotes : denoteAs type r = denote r := by
    rcases allowed with rfl | rfl <;> rfl
  have notError : ∀ left, Refuses type r left → MeetsError r left := by
    rintro left (⟨text, rfl, -⟩ | ⟨-, -, meets⟩)
    · simp [IsArray] at isArray
    · exact meets
  by_cases good : p.CleanErrno ∧ InRange r.announced
  · have parsed := parseInteger_ok good.1 good.2 42
    rcases isArray with rfl | ⟨elements, rfl⟩
    · have result : readSpecialMultiBulk child endsTransaction output p
            (42 :: intText (Reply.announced .nilArray)) =
          .ok (true, denoteAs type .nilArray,
            { p with transactionMode := p.transactionMode && !endsTransaction }) := by
        rw [readSpecialMultiBulk, parsed, denotes]
        rfl
      rw [result]
      exact .accepts (valid.goes rfl) rfl shape (accepts .nilArray)
    · have range := good.2
      simp only [InRange, Reply.announced] at range
      have short : elements.length < 2 ^ 63 := by omega
      rw [Reply.announced, readSpecialMultiBulk_elements good.1 short]
      rcases readChildren_reads elements (reads elements rfl) valid shape with
        ⟨abort, aborts, reason⟩ | ⟨p', fails, ends, reason⟩ | ⟨p', takes, goes, same, left, all⟩ |
        ⟨p', unread, stops, goes, same, left, meets⟩
      · rw [aborts]
        exact .aborts fun smooth => reason smooth.elements
      · rw [fails]
        refine .ends ends fun smooth => ?_
        obtain ⟨notReadable, notMeets⟩ := reason smooth.elements
        refine ⟨fun accepted => ?_, fun left refuses => ?_⟩
        · cases accepted.readable with
          | array _ all => exact notReadable all
        · exact notMeets left ((meetsError_array short).mp (notError left refuses))
      · rw [takes]
        change Turns type (p.transactionMode && !endsTransaction) p (.array elements) rest
          (.ok (true, denote (.array elements),
            { p' with transactionMode := p'.transactionMode && !endsTransaction }))
        rw [← denotes]
        refine .accepts (goes.trans (goes.reads.valid.goes rfl)) ?_ left
          (accepts (.array short all))
        rw [same]
      · rw [stops]
        refine .refuses goes same left (fun _ => good.1) (Or.inr ⟨?_, Or.inr ⟨elements, rfl⟩, ?_⟩)
        · exact allowed.symm
        · exact (meetsError_array short).mpr meets
  · obtain ⟨errno, parsed⟩ := parseInteger_none good 42
    have ends := valid.parse_ends errno (ascii "read")
      (ascii "integer error : " ++ 42 :: intText r.announced)
    rw [readSpecialMultiBulk, parsed]
    have range : Readable r ∨ (∃ left, MeetsError r left) → InRange r.announced := by
      rcases isArray with rfl | ⟨elements, rfl⟩
      · exact fun _ => ⟨by decide, by decide⟩
      · rintro (readable | ⟨left, meets⟩)
        · cases readable with
          | array short _ =>
            simp only [InRange, Reply.announced]
            omega
        · cases meets with
          | array short _ _ =>
            simp only [InRange, Reply.announced]
            omega
    refine .ends ends fun smooth => ⟨fun accepted => ?_, fun left refuses => ?_⟩
    · exact good ⟨smooth.clean, range (Or.inl accepted.readable)⟩
    · exact good ⟨smooth.clean, range (Or.inr ⟨left, notError left refuses⟩)⟩

/-- The reply type that the reader holds a reply to: none for an element of an array, and none for
a command whose replies vary. -/
def typeRead (isCommandOut transactionMode : Bool) (command : Command) : ReplyType :=
  if isCommandOut && command.commandInfo.replyType != .depends then
    expectedType transactionMode command
  else .depends

/-- The transaction mode after an accepted reply. -/
def modeAfter (isCommandOut transactionMode : Bool) (command : Command) : Reply → Bool
  | .status _ => modeAfterStatus transactionMode command
  | .array _ | .nilArray => transactionMode && !(command == .exec && isCommandOut)
  | .error _ | .integer _ | .bulk _ | .nilBulk => transactionMode

/-- A command whose replies are read element by element. -/
def ReadsElements (command : Command) : Prop :=
  command.commandInfo.replyType = .depends ∨ command.commandInfo.replyType = .specialMultiBulk

/-- Such a command neither opens nor discards a transaction, so no element of a reply to it
changes the transaction mode. -/
theorem modeAfter_element {command : Command} (readsElements : ReadsElements command) (mode : Bool)
    (e : Reply) : modeAfter false mode command e = mode := by
  have notMulti : command ≠ .multi := by
    rintro rfl
    exact absurd readsElements (by simp [ReadsElements, Command.commandInfo])
  have notDiscard : command ≠ .discard := by
    rintro rfl
    exact absurd readsElements (by simp [ReadsElements, Command.commandInfo])
  cases e with
  | status text => simp [modeAfter, modeAfterStatus, notMulti, notDiscard]
  | array | nilArray => simp [modeAfter]
  | error | integer | bulk | nilBulk => rfl

/-- Only a command that is declared so is held to a multi-bulk of any elements. -/
theorem expectedType_special {command : Command} {mode : Bool}
    (special : expectedType mode command = .specialMultiBulk) :
    command.commandInfo.replyType = .specialMultiBulk := by
  unfold expectedType at special
  split at special
  · split at special
    · exact special
    · exact special
    · exact special
    · simp at special
  · exact special

/-- A reply is held to no type only where none is declared. -/
theorem expectedType_ne_depends {command : Command} {mode : Bool}
    (declared : command.commandInfo.replyType ≠ .depends) : expectedType mode command ≠ .depends := by
  unfold expectedType
  split
  · split
    · exact declared
    · exact declared
    · exact declared
    · simp
  · exact declared

/-- In a transaction too, EXEC is held to a multi-bulk of any elements. -/
theorem expectedType_multiBulk {command : Command} {mode : Bool}
    (multiBulk : expectedType mode command = .multiBulk) : command ≠ .exec := by
  rintro rfl
  cases mode <;> simp [expectedType, Command.commandInfo] at multiBulk

/-- Whether the reader checks the type of a reply and holds it to the expected one, or takes it as
it comes. -/
def Holds (checkReplyType : Bool) (expReplyType type : ReplyType) : Prop :=
  (checkReplyType = true ∧ type = expReplyType ∧ type ≠ .depends) ∨
  (checkReplyType = false ∧ type = .depends ∧ expReplyType ≠ .multiBulk)

/-- A type check passes if the types agree or nothing is checked. -/
theorem Holds.check {check : Bool} {exp type : ReplyType} (holds : Holds check exp type)
    (other : ReplyType) :
    ((check && exp != other) = true ∧ type ≠ .depends ∧ type ≠ other) ∨
    ((check && exp != other) = false ∧ (type = other ∨ type = .depends)) := by
  rcases holds with ⟨rfl, rfl, typed⟩ | ⟨rfl, rfl, -⟩
  · by_cases same : type = other
    · exact Or.inr ⟨by simp [same], Or.inl same⟩
    · exact Or.inl ⟨by simp [same], typed, same⟩
  · exact Or.inr ⟨rfl, Or.inr rfl⟩

/-- How `__read_reply` sets up its type check: it holds the reply to the type that is read, and
takes it element by element only for a command for which it may. -/
theorem holds_typeRead {command : Command} (isCommandOut mode : Bool)
    (nested : isCommandOut = false → ReadsElements command) :
    let check := isCommandOut && command.commandInfo.replyType != .depends
    let exp := if check then expectedType mode command else command.commandInfo.replyType
    Holds check exp (typeRead isCommandOut mode command) ∧
    (exp = .multiBulk → command ≠ .exec) ∧
    (typeRead isCommandOut mode command = .specialMultiBulk ∨
      typeRead isCommandOut mode command = .depends → ReadsElements command) := by
  intro check exp
  have untyped : ¬ check = true → ReadsElements command := by
    intro untyped
    cases top : isCommandOut with
    | false => exact nested top
    | true => exact Or.inl (by simpa [check, top] using untyped)
  have holds : Holds check exp (typeRead isCommandOut mode command) := by
    by_cases typed : check = true
    · have declared : command.commandInfo.replyType ≠ .depends := by
        simp only [check, Bool.and_eq_true, bne_iff_ne] at typed
        exact typed.2
      have type : typeRead isCommandOut mode command = expectedType mode command := if_pos typed
      exact Or.inl ⟨typed, type.trans (if_pos typed).symm,
        type ▸ expectedType_ne_depends declared⟩
    · refine Or.inr ⟨by simpa using typed, if_neg typed, ?_⟩
      rw [show exp = command.commandInfo.replyType from if_neg typed]
      rcases untyped typed with depends | special
      · simp [depends]
      · simp [special]
  refine ⟨holds, fun multiBulk => ?_, fun types => ?_⟩
  · by_cases typed : check = true
    · exact expectedType_multiBulk ((if_pos typed).symm.trans multiBulk)
    · rintro rfl
      exact absurd ((if_neg typed).symm.trans multiBulk) (by simp [Command.commandInfo])
  · by_cases typed : check = true
    · rcases holds with ⟨-, same, notDepends⟩ | ⟨wrong, -⟩
      · have special := types.resolve_right notDepends
        rw [same, show exp = expectedType mode command from if_pos typed] at special
        exact Or.inr (expectedType_special special)
      · exact absurd (typed.symm.trans wrong) (by simp)
    · exact untyped typed

/-- The switch of `__read_reply` on the first line of a well-formed reply. -/
theorem readReplyLine_turns
    (child : RedisOutput → RedisProtocol π → Except Abort (Bool × RedisOutput × RedisProtocol π))
    {command : Command} {r : Reply} (wellFormed : r.WellFormed)
    {p : RedisProtocol π} (valid : p.Valid) {check : Bool} (isCommandOut : Bool)
    {exp type : ReplyType}
    (holds : Holds check exp type) (notExec : exp = .multiBulk → command ≠ .exec)
    (reads : type = .specialMultiBulk ∨ type = .depends → ∀ elements, r = .array elements →
      ∀ e ∈ elements, ∀ (p : RedisProtocol π), p.Valid → ∀ rest output,
        p.stream = encode e ++ rest → Turns .depends p.transactionMode p e rest (child output p))
    (output : RedisOutput) {rest : Bytes} (shape : p.stream = r.body ++ rest) :
    Turns type (modeAfter isCommandOut p.transactionMode command r) p r rest
      (readReplyLine child command isCommandOut check exp output p (r.marker :: r.line)) := by
  have wrong (mark : String) (notRefused : ∀ left, ¬ Refuses type r left)
      (notDepends : type ≠ .depends) (other : ¬ OfType type r) :
      Turns type (modeAfter isCommandOut p.transactionMode command r) p r rest
        (.ok (p.typeError mark)) :=
    .ends (valid.abandon_ends _ _) fun _ =>
      ⟨fun accepts => accepts.ofType.elim other notDepends, notRefused⟩
  have bulks (isBulk : IsBulk r) (line : r.line = intText r.announced) (marker : r.marker = 36)
      (notRefused : ∀ left, ¬ Refuses type r left)
      (mode : modeAfter isCommandOut p.transactionMode command r = p.transactionMode)
      (ofType : OfType type r ↔ type = .bulk) :
      Turns type (modeAfter isCommandOut p.transactionMode command r) p r rest
        (readReplyLine child command isCommandOut check exp output p (r.marker :: r.line)) := by
    rw [marker, line]
    change Turns _ _ _ _ _ (if check && exp != .bulk then .ok (p.typeError "$") else _)
    rcases holds.check .bulk with ⟨fails, notDepends, other⟩ | ⟨passes, allowed⟩
    · rw [if_pos fails]
      exact wrong "$" notRefused notDepends fun isOf => other (ofType.mp isOf)
    · rw [if_neg (by simp [passes]), mode]
      exact readBulkReply_turns valid allowed isBulk shape
  have arrays (isArray : IsArray r) (line : r.line = intText r.announced) (marker : r.marker = 42)
      (mode : modeAfter isCommandOut p.transactionMode command r =
        (p.transactionMode && !(command == .exec && isCommandOut)))
      (ofType : OfType type r ↔ type = .multiBulk ∨ type = .specialMultiBulk) :
      Turns type (modeAfter isCommandOut p.transactionMode command r) p r rest
        (readReplyLine child command isCommandOut check exp output p (r.marker :: r.line)) := by
    rw [marker, line]
    change Turns _ _ _ _ _ (if check && exp != .multiBulk && exp != .specialMultiBulk then
      .ok (p.typeError "*") else if exp = .multiBulk then _ else _)
    rcases holds with ⟨rfl, rfl, typed⟩ | ⟨rfl, rfl, notMultiBulk⟩
    · by_cases multiBulk : type = .multiBulk
      · subst multiBulk
        rw [if_neg (by simp), if_pos rfl, mode]
        have notEnding : (command == .exec) = false := by simpa using notExec rfl
        simp only [notEnding, Bool.false_and, Bool.not_false, Bool.and_true]
        exact readMultiBulkReply_turns valid isArray wellFormed shape
      · by_cases special : type = .specialMultiBulk
        · subst special
          rw [if_neg (by simp), if_neg (by simp), mode]
          exact readSpecialMultiBulk_turns (reads (Or.inl rfl)) valid (Or.inl rfl) isArray shape _ _
        · rw [if_pos (by simp [multiBulk, special])]
          refine wrong "*" ?_ typed fun isOf => (ofType.mp isOf).elim multiBulk special
          rintro left (⟨text, rfl, -⟩ | ⟨types, -⟩)
          · simp [IsArray] at isArray
          · exact types.elim typed special
    · rw [if_neg (by simp), if_neg notMultiBulk, mode]
      exact readSpecialMultiBulk_turns (reads (Or.inr rfl)) valid (Or.inr rfl) isArray shape _ _
  cases r with
  | status text =>
    change Turns _ _ _ _ _ (if check && exp != .status then .ok (p.typeError "+") else _)
    rcases holds.check .status with ⟨fails, notDepends, other⟩ | ⟨passes, allowed⟩
    · rw [if_pos fails]
      exact wrong "+" (not_refuses (by simp) (by simp [IsArray])) notDepends other
    · rw [if_neg (by simp [passes])]
      have denotes : denoteAs type (.status text) = .status text := by
        rcases allowed with rfl | rfl <;> rfl
      change Turns _ _ _ _ _ (.ok (true, .status text, _))
      rw [← denotes]
      refine .accepts (valid.goes rfl) rfl shape ?_
      rcases allowed with rfl | rfl
      · exact ⟨text, rfl⟩
      · exact .status text
  | error text =>
    exact @Turns.refuses π _ _ p _ _ _ _ [] (valid.goes rfl) rfl shape (by simp [IsArray])
      (Or.inl ⟨text, rfl, rfl⟩)
  | integer value =>
    change Turns _ _ _ _ _ (if check && exp != .integer then .ok (p.typeError ":") else _)
    rcases holds.check .integer with ⟨fails, notDepends, other⟩ | ⟨passes, allowed⟩
    · rw [if_pos fails]
      exact wrong ":" (not_refuses (by simp) (by simp [IsArray])) notDepends other
    · rw [if_neg (by simp [passes])]
      exact readInteger_turns valid allowed value shape
  | bulk bytes =>
    exact bulks (Or.inr ⟨bytes, rfl⟩) rfl rfl (not_refuses (by simp) (by simp [IsArray])) rfl
      Iff.rfl
  | nilBulk =>
    exact bulks (Or.inl rfl) rfl rfl (not_refuses (by simp) (by simp [IsArray])) rfl Iff.rfl
  | array elements => exact arrays (Or.inr ⟨elements, rfl⟩) rfl rfl rfl Iff.rfl
  | nilArray => exact arrays (Or.inl rfl) rfl rfl rfl Iff.rfl

/-- `__read_reply` on a stream that begins with a well-formed reply. The induction is on the fuel,
which the depth of the reply stays below. -/
theorem readReplyInner_turns (command : Command) {fuel : Nat} {r : Reply}
    (wellFormed : r.WellFormed) (deep : r.depth < fuel) (isCommandOut : Bool)
    (nested : isCommandOut = false → ReadsElements command) (output : RedisOutput)
    {p : RedisProtocol π} (valid : p.Valid) {rest : Bytes} (shape : p.stream = encode r ++ rest) :
    Turns (typeRead isCommandOut p.transactionMode command)
      (modeAfter isCommandOut p.transactionMode command r) p r rest
      (readReplyInner command fuel isCommandOut output p) := by
  induction fuel generalizing r isCommandOut output p rest with
  | zero => omega
  | succ fuel ih =>
    rw [readReplyInner]
    rcases readLine_reply valid wellFormed shape with
      ⟨abort, aborts, reason⟩ | ⟨l, p', fails, ends, reason⟩ | ⟨c, takes, goes, left⟩
    · rw [aborts]
      exact .aborts reason
    · rw [fails]
      exact .ends ends fun smooth => absurd smooth.delivers reason
    · rw [takes]
      obtain ⟨holds, notExec, elementwise⟩ := holds_typeRead isCommandOut p.transactionMode nested
      refine Turns.after goes rfl (readReplyLine_turns (readReplyInner command fuel false)
        wellFormed goes.reads.valid isCommandOut holds notExec ?_ output left)
      rintro types elements rfl e member p'' valid' rest' output' shape'
      have inside : e.WellFormed := by
        cases wellFormed with
        | array all => exact all e member
      have shallow : e.depth < fuel := by
        have below := Resp.depth_le_depthAll member
        rw [Reply.depth] at deep
        omega
      have inner := ih inside shallow false (fun _ => elementwise types) output'
        valid' shape'
      rw [modeAfter_element (elementwise types)] at inner
      exact inner

/-- The reply type that `read_reply` holds a reply to the command to. -/
def replyType (p : RedisProtocol π) (c : RedisCommand) : ReplyType :=
  typeRead true p.transactionMode c.command

/-- `read_reply` on a stream that begins with a well-formed reply. -/
theorem readReply_turns {p : RedisProtocol π} (valid : p.Valid) (c : RedisCommand) {r : Reply}
    (wellFormed : r.WellFormed) {rest : Bytes} (shape : p.stream = encode r ++ rest) :
    ∃ result, Turns (p.replyType c) (modeAfter true p.transactionMode c.command r) p r rest result ∧
      p.readReply c = result.map fun (ok, out, p') => (ok, { c with out := out }, p') := by
  have length : p.tcpClient.buffer.readSize + p.tcpClient.os.incoming.length =
      (encode r ++ rest).length := by
    rw [← shape, stream, TcpClient.stream, List.length_append, valid.buffer.length_unread]
  have deep : r.depth < p.tcpClient.buffer.readSize + p.tcpClient.os.incoming.length + 1 := by
    have below := Resp.depth_lt_length r
    rw [length, List.length_append]
    omega
  refine ⟨_, readReplyInner_turns c.command wellFormed deep true
    (fun wrong => absurd wrong (by decide)) c.out valid shape, ?_⟩
  rw [readReply]
  generalize readReplyInner c.command _ true c.out p = result
  cases result with
  | error abort => rfl
  | ok returned => rfl

end RedisProtocol

end LibRedis
