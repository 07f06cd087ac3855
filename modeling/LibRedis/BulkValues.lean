import LibRedis.ReadScan
import LibRedis.ReplyFraming

/-!
# Reading string values back

A bulk is read by `read_bulk_2` behind its header, whether it is a reply of its own or an element
of a multi-bulk. It is read back exactly when `errno` is clean, the byte string is not empty, and
the length with the end of the line is below `2 ^ 62`: `read_bulk_2` refuses a length of zero, and
from `2 ^ 62` bytes on the receive buffer would have to be larger than a vector can be.
-/

namespace LibRedis

open Decimal (ascii intText)
open Resp (Reply crlf)

namespace RedisProtocol

variable {π : Type}

/-- A line that was read from a stream which begins with one is that line. -/
theorem readLine_taken {p p' : RedisProtocol π} (valid : p.Valid) (arrives : p.Arrives)
    {line line' rest : Bytes} (splits : Delimited.Splits redisLineEnd p.stream line rest)
    (returns : p.readLine = .ok (true, line', p')) :
    line' = line ∧ p'.stream = rest ∧ p.Goes p' ∧ p'.Arrives ∧
      (p.tcpClient.buffer.totalSize ≤ 2 ^ 61 → line.length < 2 ^ 60 →
        p'.tcpClient.buffer.totalSize ≤ 2 ^ 61) := by
  obtain ⟨returned, same, shown⟩ := bind_returns returns
  rcases TcpClient.readLine_ends valid redisLineEnd (by decide) p.readTimeout with
    ⟨abort, aborts, -⟩ | ⟨lost, fails, -, none⟩ | ⟨taken, takes, kept, found, awaits, grows⟩
  · rw [aborts] at same
    cases same
  · exact absurd splits (none arrives _ _)
  · obtain rfl := Except.ok.inj (takes.symm.trans same)
    obtain ⟨piece, left⟩ := found.unique splits
    rcases received_cases.2 kept with ⟨-, l, p'', result, -⟩ | ⟨-, result, goes⟩
    · have both := (Except.ok.inj shown).symm.trans result
      cases both
    · have both := (Except.ok.inj shown).symm.trans result
      obtain ⟨-, rfl, rfl⟩ : true = true ∧ line' = taken.1 ∧
          p' = { p with tcpClient := taken.2.2 } := by simpa using both
      refine ⟨piece, left, goes, awaits.arrives arrives, fun small short => grows small ?_⟩
      have two : redisLineEnd.length = 2 := rfl
      rw [piece, two, kDefaultBufferSize]
      omega

/-- A line that arrives is read. -/
theorem readLine_arrives {p : RedisProtocol π} (valid : p.Valid) (arrives : p.Arrives)
    {line rest : Bytes} (some : line ≠ []) (short : line.length < 2 ^ 60)
    (splits : Delimited.Splits redisLineEnd p.stream line rest) :
    ∃ p', p.readLine = .ok (true, line, p') := by
  rcases TcpClient.readLine_ends valid redisLineEnd (by decide) p.readTimeout with
    ⟨-, -, -, reason, -⟩ | ⟨returned, -, -, none⟩ | ⟨returned, same, takes, taken, -⟩
  · have long := reason arrives _ _ splits
    have two : redisLineEnd.length = 2 := rfl
    rw [kDefaultBufferSize] at long
    omega
  · exact absurd splits (none arrives _ _)
  · obtain ⟨piece, -⟩ := taken.unique splits
    rcases received_cases.2 takes with ⟨empty, -⟩ | ⟨-, result, -⟩
    · exact absurd (piece.symm.trans empty) some
    · refine ⟨{ p with tcpClient := returned.2.2 }, ?_⟩
      rw [readLine, same, ← piece]
      exact congrArg Except.ok result

/-- What reading a bulk back takes. -/
def ReadsBulks (p : RedisProtocol π) (bytes : Bytes) : Prop :=
  p.CleanErrno ∧ bytes ≠ [] ∧ bytes.length + 2 < 2 ^ 62

/-- `read_bulk_2` takes a bulk that arrives if these conditions hold, and otherwise none. -/
theorem readBulk2_takes_iff {p : RedisProtocol π} (valid : p.Valid) (arrives : p.Arrives)
    {bytes rest : Bytes} (shape : p.stream = bytes ++ crlf ++ rest)
    (small : bytes.length < 2 ^ 63 → p.tcpClient.buffer.totalSize ≤ 2 ^ 61) :
    (p.ReadsBulks bytes → ∃ c, p.readBulk2 (36 :: intText bytes.length) =
      .ok (some (some bytes), { p with tcpClient := c }) ∧ c.stream = rest) ∧
    (¬ p.ReadsBulks bytes → ∀ bulk p',
      p.readBulk2 (36 :: intText bytes.length) ≠ .ok (some bulk, p')) := by
  have length : p.tcpClient.stream.length = bytes.length + redisLineEnd.length + rest.length := by
    change p.stream.length = _
    rw [shape, List.length_append, List.length_append]
  have two : redisLineEnd.length = 2 := rfl
  constructor
  · rintro ⟨clean, more, fits⟩
    have positive := List.length_pos_iff.mpr more
    rw [readBulk2_bytes clean more (by omega)]
    rcases TcpClient.read_ends valid redisLineEnd positive (by omega) p.readTimeout with
      ⟨-, -, -, reason, -⟩ | ⟨returned, -, -, none, -⟩ | ⟨returned, same, takes, counted, -⟩
    · have fewer := reason arrives (by omega)
      omega
    · have fewer := none arrives
      omega
    · obtain ⟨dropped, size, split⟩ := counted.eq
      have whole : returned.1 ++ (dropped ++ returned.2.2.stream) = bytes ++ (crlf ++ rest) := by
        rw [← List.append_assoc, ← split, ← List.append_assoc]
        exact shape
      obtain ⟨sameBytes, behind⟩ := List.append_inj whole counted.size
      obtain ⟨-, left⟩ := List.append_inj behind size
      rcases received_cases.2 takes with ⟨empty, -⟩ | ⟨-, result, goes⟩
      · exact absurd (sameBytes.symm.trans empty) more
      · have taken : p.read bytes.length =
            .ok (true, bytes, { p with tcpClient := returned.2.2 }) := by
          rw [read, same, ← sameBytes]
          exact congrArg Except.ok result
        refine ⟨returned.2.2, ?_, left⟩
        rw [taken]
        change (if bytes.length ≠ bytes.length then _ else _) = _
        rw [if_neg (not_not.mpr rfl)]
        rfl
  · intro bad bulk p' returns
    by_cases good : p.CleanErrno ∧ InRange bytes.length
    · obtain ⟨clean, -, high⟩ := good
      by_cases more : bytes = []
      · subst more
        rw [readBulk2, parseInteger_ok clean ⟨by decide, by decide⟩ 36] at returns
        cases returns
      · have positive := List.length_pos_iff.mpr more
        have large : 2 ^ 62 ≤ bytes.length + redisLineEnd.length := by
          by_contra fits
          exact bad ⟨clean, more, by omega⟩
        rw [readBulk2_bytes clean more (by omega)] at returns
        rcases TcpClient.read_ends valid redisLineEnd positive (by omega) p.readTimeout with
          ⟨abort, aborts, -⟩ | ⟨returned, -, -, -, room⟩ | ⟨returned, -, -, -, -, grows⟩
        · rw [read, aborts] at returns
          cases returns
        · have fits := room (small (by omega))
          omega
        · have fits := grows.word (small (by omega))
          omega
    · obtain ⟨errno, failed⟩ := parseInteger_none good 36
      rw [readBulk2, failed] at returns
      cases returns

/-- `read_bulk` returns this byte string and leaves these bytes. -/
def ReadsElement (p : RedisProtocol π) (bytes rest : Bytes) : Prop :=
  ∃ p', p.readBulk = .ok (some (some bytes), p') ∧ p'.stream = rest

/-- `read_reply` returns this byte string for a command and leaves these bytes. -/
def ReadsReply (p : RedisProtocol π) (c : RedisCommand) (bytes rest : Bytes) : Prop :=
  ∃ p', p.readReply c = .ok (true, { c with out := .bulk bytes }, p') ∧ p'.stream = rest

/-- `read_bulk` on a line that is the header of a bulk. -/
theorem readBulk_header {p p' : RedisProtocol π} {text : Bytes}
    (line : p.readLine = .ok (true, 36 :: text, p')) : p.readBulk = p'.readBulk2 (36 :: text) := by
  rw [readBulk, line]
  rfl

/-- `read_reply` for a command that is held to a bulk: a line, then what a bulk's header leads to. -/
theorem readReply_bulk {p : RedisProtocol π} {c : RedisCommand} (isBulk : p.replyType c = .bulk) :
    (∀ text p', p.readLine = .ok (true, 36 :: text, p') → p.readReply c =
      (p'.readBulkReply (36 :: text)).map fun (ok, out, p') => (ok, { c with out := out }, p')) ∧
    (∀ out p', p.readReply c = .ok (true, out, p') →
      ∃ line p', p.readLine = .ok (true, line, p')) := by
  obtain ⟨holds, -, -⟩ := @holds_typeRead c.command true p.transactionMode
    fun wrong => absurd wrong (by decide)
  rw [show typeRead true p.transactionMode c.command = .bulk from isBulk] at holds
  have passes := (holds.check .bulk).resolve_left fun fails => fails.2.2 rfl
  constructor
  · intro text p' line
    rw [readReply, readReplyInner, line]
    change (Except.bind (if _ then _ else _) _ : Except Abort _) = _
    rw [if_neg (by rw [passes.1]; decide)]
    cases p'.readBulkReply (36 :: text) with
    | error abort => rfl
    | ok returned => rfl
  · intro out p' returns
    obtain ⟨inner, called, shown⟩ := bind_returns returns
    rw [readReplyInner] at called
    obtain ⟨⟨received, line, left⟩, reads, rest⟩ := bind_returns called
    cases received with
    | true => exact ⟨line, left, reads⟩
    | false =>
      have same : Except.ok left.refused = .ok inner := rest
      rw [← Except.ok.inj same] at shown
      cases shown

/-- The header line of a bulk that arrives. Behind it the conditions decide, however the bulk is
read. -/
theorem readLine_bulk {p : RedisProtocol π} (valid : p.Valid) (arrives : p.Arrives)
    (allocated : p.Allocated) {bytes rest : Bytes}
    (shape : p.stream = Resp.bulk bytes ++ rest) :
    (∀ line p', p.readLine = .ok (true, line, p') →
      line = 36 :: intText bytes.length ∧
      (p.ReadsBulks bytes → ∃ c, p'.readBulk2 (36 :: intText bytes.length) =
        .ok (some (some bytes), { p' with tcpClient := c }) ∧ c.stream = rest) ∧
      (¬ p.ReadsBulks bytes → ∀ bulk p'',
        p'.readBulk2 (36 :: intText bytes.length) ≠ .ok (some bulk, p''))) ∧
    (p.ReadsBulks bytes → ∃ p', p.readLine = .ok (true, 36 :: intText bytes.length, p')) := by
  have splits : Delimited.Splits redisLineEnd p.stream (36 :: intText bytes.length)
      (bytes ++ crlf ++ rest) := by
    have whole : p.stream = 36 :: intText bytes.length ++ crlf ++ (bytes ++ crlf ++ rest) := by
      rw [shape, Resp.bulk, Decimal.intText_natCast]
      simp
    rw [whole]
    exact Delimited.splits_pair (by decide)
      (no_crlf_cons (by decide) (Resp.no_crlf_intText _)) _
  have short : bytes.length < 2 ^ 63 → (36 :: intText (bytes.length : Int)).length < 2 ^ 60 := by
    intro fits
    have few := Decimal.length_text_le bytes.length 19 (by decide) (by omega)
    rw [Decimal.intText_natCast, List.length_cons]
    omega
  constructor
  · intro line p' reads
    obtain ⟨header, left, goes, later, small⟩ := readLine_taken valid arrives splits reads
    have same : p'.ReadsBulks bytes ↔ p.ReadsBulks bytes := by
      simp only [ReadsBulks, CleanErrno, goes.errno]
    rw [← same]
    exact ⟨header, readBulk2_takes_iff goes.reads.valid later left
      fun fits => small (allocated.small valid) (short fits)⟩
  · rintro ⟨-, -, fits⟩
    exact readLine_arrives valid arrives (List.cons_ne_nil _ _) (short (by omega)) splits

/-- A bulk that arrives is read back exactly under these conditions, as the reply to a command
that replies a bulk and as an element of a multi-bulk. -/
theorem bulk_read_back_iff {p : RedisProtocol π} (valid : p.Valid) (arrives : p.Arrives)
    (allocated : p.Allocated) {c : RedisCommand} (isBulk : p.replyType c = .bulk)
    {bytes rest : Bytes} (shape : p.stream = Resp.bulk bytes ++ rest) :
    (p.ReadsReply c bytes rest ↔ p.ReadsBulks bytes) ∧
    (p.ReadsElement bytes rest ↔ p.ReadsBulks bytes) := by
  obtain ⟨behind, arrived⟩ := readLine_bulk valid arrives allocated shape
  obtain ⟨forward, reached⟩ := readReply_bulk isBulk
  constructor
  · constructor
    · rintro ⟨p'', returns, left⟩
      by_contra bad
      obtain ⟨line, p', reads⟩ := reached _ _ returns
      obtain ⟨rfl, -, none⟩ := behind _ _ reads
      rw [forward _ _ reads] at returns
      obtain ⟨⟨ok, out, last⟩, called, shown⟩ := map_returns returns
      obtain ⟨⟨bulk, later⟩, read, rest⟩ := bind_returns called
      cases bulk with
      | some bulk => exact none bad _ _ read
      | none =>
        have same : Except.ok later.refused = .ok (ok, out, last) := rest
        cases Except.ok.inj same
        cases shown
    · intro good
      obtain ⟨p', reads⟩ := arrived good
      obtain ⟨-, some, -⟩ := behind _ _ reads
      obtain ⟨client, read, left⟩ := some good
      refine ⟨{ p' with tcpClient := client }, ?_, left⟩
      rw [forward _ _ reads, readBulkReply, read]
      rfl
  · constructor
    · rintro ⟨p'', returns, left⟩
      by_contra bad
      obtain ⟨⟨received, line, p'⟩, reads, rest⟩ := bind_returns returns
      cases received with
      | false => cases rest
      | true =>
        obtain ⟨rfl, -, none⟩ := behind _ _ reads
        rw [readBulk_header reads] at returns
        exact none bad _ _ returns
    · intro good
      obtain ⟨p', reads⟩ := arrived good
      obtain ⟨-, some, -⟩ := behind _ _ reads
      obtain ⟨client, read, left⟩ := some good
      refine ⟨{ p' with tcpClient := client }, ?_, left⟩
      rw [readBulk_header reads, read]

/-- A new client has a small buffer. -/
theorem greeted_allocated (bytes : Bytes) (recvs : List RecvOutcome) :
    (greeted bytes recvs).Allocated := by
  have start : (greeted bytes recvs).tcpClient.buffer = TcpClientBuffer.new.clear := rfl
  rw [Allocated, start]
  decide +kernel

/-- GET on a key that holds the empty string: the reply `$0` closes the connection. -/
theorem bulk_not_read_back : ∃ (p : RedisProtocol ScriptedPeer) (c : RedisCommand)
    (bytes rest : Bytes), p.Valid ∧ p.Arrives ∧ p.Allocated ∧ p.CleanErrno ∧
      p.replyType c = .bulk ∧ p.stream = Resp.bulk bytes ++ rest ∧
      ¬ (p.ReadsReply c bytes rest ∧ p.ReadsElement bytes rest) := by
  obtain ⟨valid, shape⟩ := greeted_valid (Resp.bulk []) []
  have arrives : (greeted (Resp.bulk []) []).Arrives := by
    intro outcome member
    simp [greeted, new, connect, TcpClient.connect, TcpClient.new, Os.connect, Os.start,
      TcpClient.close, Os.time] at member
  refine ⟨greeted (Resp.bulk []) [], .new .get, [], [], valid, arrives,
    greeted_allocated _ _, ⟨by decide, by decide⟩, rfl, by simpa using shape, ?_⟩
  rintro ⟨⟨p', returns, -⟩, -⟩
  have closed : ((greeted (Resp.bulk []) []).readReply (.new .get)).toOption.map
      (fun read => (read.1, read.2.2.tcpClient.fd)) = some (false, -1) := by
    decide +kernel
  rw [returns] at closed
  simp [Except.toOption] at closed

/-- A byte string that looks like the end of a line is read back; an empty one is not. -/
theorem bulk_read_back_iff_crlf :
    (greeted (Resp.bulk crlf ++ [58]) [.chunk 1, .chunk 5]).ReadsReply (.new .get) crlf [58] ∧
    ¬ (greeted (Resp.bulk [] ++ [58]) [.chunk 1, .chunk 5]).ReadsElement [] [58] := by
  have chunks : ∀ outcome ∈ [RecvOutcome.chunk 1, .chunk 5], ∃ most, outcome = .chunk most := by
    intro outcome member
    rcases List.mem_pair.mp member with rfl | rfl
    · exact ⟨1, rfl⟩
    · exact ⟨5, rfl⟩
  have arrives (bytes : Bytes) : (greeted bytes [.chunk 1, .chunk 5]).Arrives :=
    fun outcome member => chunks outcome (List.mem_of_mem_take member)
  obtain ⟨valid, shape⟩ := greeted_valid (Resp.bulk crlf ++ [58]) [.chunk 1, .chunk 5]
  obtain ⟨valid', shape'⟩ := greeted_valid (Resp.bulk [] ++ [58]) [.chunk 1, .chunk 5]
  constructor
  · exact (bulk_read_back_iff valid (arrives _) (greeted_allocated _ _) rfl shape).1.mpr
      ⟨⟨by decide, by decide⟩, by decide, by decide⟩
  · intro reads
    exact ((bulk_read_back_iff (c := .new .get) valid' (arrives _) (greeted_allocated _ _) rfl
      shape').2.mp reads).2.1 rfl

end RedisProtocol

end LibRedis
