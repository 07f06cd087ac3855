import LibRedis.Lib.Delimited
import LibRedis.Lib.Scan
import LibRedis.RedisProtocol

/-!
# The reader as a function of the bytes

What `read_reply` makes of a stream, apart from the network: each function of the reader as a scan
of the bytes it is given. The numbers in the headers are decoded by a parameter, since `strtol`
reports errors through `errno`, and a limit says from which length on the receive buffer has no
room. `ReadScan` shows that `read_reply` follows these scans.
-/

namespace LibRedis

namespace ReplyScan

variable (decode : Bytes → Option Int) (limit : Nat)

/-- `read_line`: a line that is not empty. -/
def line (stream : Bytes) : Scan UInt8 Bytes :=
  match Delimited.split redisLineEnd stream with
  | none => .starves
  | some (line, rest) => if line = [] then .refuses else .takes line rest

/-- `parse_integer`, which takes nothing. -/
def number (header stream : Bytes) : Scan UInt8 Int :=
  match decode header.tail with
  | none => .refuses
  | some i => .takes i stream

/-- `read`: so many bytes, and two more. -/
def payload (count : Nat) (stream : Bytes) : Scan UInt8 Bytes :=
  if limit ≤ count + 2 then .stalls
  else if stream.length < count + 2 then .starves
  else .takes (stream.take count) (stream.drop (count + 2))

/-- `read_bulk_2`. -/
def bulkBehind (header stream : Bytes) : Scan UInt8 (Option Bytes) :=
  (number decode header stream).bind fun i stream =>
    if i < -1 ∨ i = 0 then .refuses
    else if i = -1 then .takes none stream
    else (payload limit i.toNat stream).bind fun bytes stream => .takes (some bytes) stream

/-- `read_bulk`. -/
def bulk (stream : Bytes) : Scan UInt8 (Option Bytes) :=
  (line stream).bind fun header stream =>
    if header.head? = some 36 then bulkBehind decode limit header stream else .refuses

/-- `__read_reply` on a line that begins with `:`. -/
def integerReply (header stream : Bytes) : Scan UInt8 RedisOutput :=
  (number decode header stream).bind fun i stream => .takes (.i i) stream

/-- `__read_reply` on a line that begins with `$`. -/
def bulkReply (header stream : Bytes) : Scan UInt8 RedisOutput :=
  (bulkBehind decode limit header stream).bind fun bulk stream =>
    .takes (bulk.elim .nilBulk .bulk) stream

/-- `__read_reply` on a line that begins with `*` for a multi-bulk of bulks. A vector of pointers
has room for less than `2 ^ 60` of them. -/
def multiBulkReply (header stream : Bytes) : Scan UInt8 RedisOutput :=
  (number decode header stream).bind fun i stream =>
    if i < -1 then .refuses
    else if i = -1 then .takes .nilMbulks stream
    else if 2 ^ 60 ≤ i then .stalls
    else
      (Scan.times (bulk decode limit) i.toNat stream).bind fun bulks stream =>
        .takes (.mbulks bulks) stream

/-- `__read_reply` on a line that begins with `*`, treated as a special multi-bulk. -/
def specialReply (child : Bytes → Scan UInt8 RedisOutput) (header stream : Bytes) :
    Scan UInt8 RedisOutput :=
  (number decode header stream).bind fun i stream =>
    if i = -1 then .takes .nilSmbulks stream
    else
      (Scan.times child i.toNat stream).bind fun smbulks stream => .takes (.smbulks smbulks) stream

/-- The switch of `__read_reply`, for a reply that is held to a type, or to none. -/
def replyBehind (child : Bytes → Scan UInt8 RedisOutput) (type : ReplyType)
    (header stream : Bytes) : Scan UInt8 RedisOutput :=
  if header.head? = some 45 then .stops stream
  else if header.head? = some 43 then
    if type = .status ∨ type = .depends then .takes (.status header.tail) stream else .refuses
  else if header.head? = some 58 then
    if type = .integer ∨ type = .depends then integerReply decode header stream else .refuses
  else if header.head? = some 36 then
    if type = .bulk ∨ type = .depends then bulkReply decode limit header stream else .refuses
  else if header.head? = some 42 then
    if type = .multiBulk then multiBulkReply decode limit header stream
    else if type = .specialMultiBulk ∨ type = .depends then specialReply decode child header stream
    else .refuses
  else .refuses

/-- `__read_reply`, to a depth that the fuel bounds. -/
def reply : Nat → ReplyType → Bytes → Scan UInt8 RedisOutput
  | 0, _, _ => .starves
  | fuel + 1, type, stream =>
    (line stream).bind fun header stream =>
      replyBehind decode limit (reply fuel .depends) type header stream

variable {decode limit}

/-- A line is taken that the stream begins with. -/
theorem line_eq_takes {stream header rest : Bytes} :
    line stream = .takes header rest ↔
      Delimited.Splits redisLineEnd stream header rest ∧ header ≠ [] := by
  rw [← Delimited.split_eq_some, line]
  cases Delimited.split redisLineEnd stream with
  | none => simp
  | some found =>
    obtain ⟨piece, left⟩ := found
    by_cases empty : piece = []
    · simp only [if_pos empty]
      constructor
      · intro wrong
        cases wrong
      · rintro ⟨same, some⟩
        obtain ⟨rfl, -⟩ := Prod.mk.inj (Option.some.inj same)
        exact absurd empty some
    · simp only [if_neg empty]
      constructor
      · intro taken
        cases taken
        exact ⟨rfl, empty⟩
      · rintro ⟨same, -⟩
        obtain ⟨rfl, rfl⟩ := Prod.mk.inj (Option.some.inj same)
        rfl

/-- A line without an end starves. -/
theorem line_eq_starves {stream : Bytes} :
    line stream = .starves ↔ ∀ piece rest, ¬ Delimited.Splits redisLineEnd stream piece rest := by
  rw [line]
  cases found : Delimited.split redisLineEnd stream with
  | none =>
    refine iff_of_true rfl fun piece rest splits => ?_
    rw [(Delimited.split_eq_some _ _ _).mpr splits] at found
    cases found
  | some pair =>
    obtain ⟨piece, rest⟩ := pair
    refine iff_of_false (fun wrong => ?_) fun none => ?_
    · simp only at wrong
      split at wrong
      · cases wrong
      · cases wrong
    · exact none piece rest ((Delimited.split_eq_some _ _ _).mp found)

/-- The rest behind a line is shorter than the stream by more than the end of the line. -/
theorem line_shorter {stream header rest : Bytes} (taken : line stream = .takes header rest) :
    rest.length + 2 < stream.length := by
  obtain ⟨splits, some⟩ := line_eq_takes.mp taken
  have whole := congrArg List.length splits.eq
  have positive := List.length_pos_iff.mpr some
  have ends : redisLineEnd.length = 2 := rfl
  simp only [List.length_append] at whole
  omega

/-- A payload has the announced length. -/
theorem payload_length {count : Nat} {stream bytes rest : Bytes}
    (taken : payload limit count stream = .takes bytes rest) : bytes.length = count := by
  unfold payload at taken
  split at taken
  · cases taken
  · split at taken
    · cases taken
    · rename_i enough
      cases taken
      rw [List.length_take]
      omega

/-- A line stays the first one when more of the stream arrives. -/
theorem line_extends (stream more : Bytes) :
    Scan.Extends more (line stream) (line (stream ++ more)) := by
  cases found : Delimited.split redisLineEnd stream with
  | none =>
    rw [line, found]
    exact .starves _
  | some pair =>
    obtain ⟨piece, rest⟩ := pair
    have splits := (Delimited.split_eq_some _ _ _).mp found
    have later := (Delimited.split_eq_some _ _ _).mpr (splits.append more)
    rw [line, line, found, later]
    simp only
    split
    · exact .refuses
    · exact .takes piece rest

/-- A number does not depend on what follows. -/
theorem number_extends (header stream more : Bytes) :
    Scan.Extends more (number decode header stream) (number decode header (stream ++ more)) := by
  unfold number
  cases decode header.tail with
  | none => exact .refuses
  | some i => exact .takes i stream

/-- A payload that has arrived is the same with more behind it. -/
theorem payload_extends (count : Nat) (stream more : Bytes) :
    Scan.Extends more (payload limit count stream) (payload limit count (stream ++ more)) := by
  unfold payload
  split
  · exact .stalls
  · split
    · exact .starves _
    · rename_i enough
      rw [not_lt] at enough
      rw [if_neg (by rw [List.length_append]; omega), List.take_append_of_le_length (by omega),
        List.drop_append_of_le_length enough]
      exact .takes _ _

/-- So is a bulk behind its header. -/
theorem bulkBehind_extends (header stream more : Bytes) :
    Scan.Extends more (bulkBehind decode limit header stream)
      (bulkBehind decode limit header (stream ++ more)) := by
  refine (number_extends header stream more).bind fun i rest _ => ?_
  split
  · exact .refuses
  · split
    · exact .takes _ _
    · exact (payload_extends _ _ _).bind fun bytes rest _ => .takes _ _

/-- So is a bulk. -/
theorem bulk_extends (stream more : Bytes) :
    Scan.Extends more (bulk decode limit stream) (bulk decode limit (stream ++ more)) := by
  refine (line_extends stream more).bind fun header rest _ => ?_
  split
  · exact bulkBehind_extends header rest more
  · exact .refuses

/-- A reply stays what it was when more of the stream arrives, and may be read to a greater
depth. -/
theorem reply_extends {fuel fuel' : Nat} (deeper : fuel ≤ fuel') (type : ReplyType)
    (stream more : Bytes) :
    Scan.Extends more (reply decode limit fuel type stream)
      (reply decode limit fuel' type (stream ++ more)) := by
  induction fuel generalizing fuel' type stream with
  | zero => exact .starves _
  | succ fuel ih =>
    obtain ⟨fuel', rfl⟩ := Nat.exists_eq_succ_of_ne_zero (show fuel' ≠ 0 by omega)
    refine (line_extends stream more).bind fun header rest _ => ?_
    have child (stream : Bytes) : Scan.Extends more (reply decode limit fuel .depends stream)
        (reply decode limit fuel' .depends (stream ++ more)) := ih (by omega) .depends stream
    unfold replyBehind
    split
    · exact .stops rest
    split
    · split
      · exact .takes _ _
      · exact .refuses
    split
    · split
      · exact (number_extends _ _ _).bind fun i rest _ => .takes _ _
      · exact .refuses
    split
    · split
      · exact (bulkBehind_extends _ _ _).bind fun bulk rest _ => .takes _ _
      · exact .refuses
    split
    · split
      · refine (number_extends _ _ _).bind fun i rest _ => ?_
        split
        · exact .refuses
        split
        · exact .takes _ _
        split
        · exact .stalls
        · exact (Scan.Extends.times (fun stream => bulk_extends stream more) _ _).bind
            fun bulks rest _ => .takes _ _
      · split
        · refine (number_extends _ _ _).bind fun i rest _ => ?_
          split
          · exact .takes _ _
          · exact (Scan.Extends.times child _ _).bind fun smbulks rest _ => .takes _ _
        · exact .refuses
    · exact .refuses

end ReplyScan

end LibRedis
