import LibRedis.ReplyFraming

/-!
# How far the receive buffer grows

`read` asks `prepare` for a bulk and its line end, and the size of the bulk is announced by the
server. The doubling loop is on 64-bit words: past `2 ^ 63` the next size is zero, and stays so. At
`2 ^ 63` it ends, with a size that no vector can have.
-/

namespace LibRedis

open Decimal (ascii)

namespace TcpClientBuffer

/-- What `read` asks `prepare` for when a bulk of this length is announced. -/
def requested (b : TcpClientBuffer) (i : Nat) : Nat :=
  ((i + redisLineEnd.length) % 2 ^ 64 + 2 ^ 64 - b.readSize) % 2 ^ 64

/-- If `prepare` comes to its loop, the loop ends, with more than the unread bytes and the requested
ones. -/
def GrowthEnds (b : TcpClientBuffer) (size : Nat) : Prop :=
  b.freeSize < size → ∃ fuel newSize,
    growSize fuel b.totalSize ((b.readSize + size) % 2 ^ 64) = some newSize ∧
      b.readSize + size < newSize

/-- Unread and requested bytes make up the bulk and its line end. -/
theorem readSize_requested {b : TcpClientBuffer} {i : Nat} (announced : i < 2 ^ 63)
    (more : b.readSize < i + redisLineEnd.length) :
    b.readSize + b.requested i = i + redisLineEnd.length := by
  have two : redisLineEnd.length = 2 := rfl
  rw [two] at more ⊢
  rw [requested, two]
  omega

/-- The loop never ends for a bound of `2 ^ 63`, however long it runs. -/
theorem Valid.growSize_endless {b : TcpClientBuffer} (valid : b.Valid) {minNewSize : Nat}
    (large : 2 ^ 63 ≤ minNewSize) (fuel : Nat) : growSize fuel b.totalSize minNewSize = none := by
  cases ends : growSize fuel b.totalSize minNewSize with
  | none => rfl
  | some grown =>
    obtain ⟨above, doublings, few, shape⟩ := growSize_some (Or.inr valid.loop_shape) ends
    have power := Nat.pow_le_pow_right (show 0 < 2 by decide) few
    omega

/-- The loop ends exactly for a bulk that is shorter than `2 ^ 63` with its line end, or for which
there is room already. -/
theorem growthEnds_iff {b : TcpClientBuffer} (valid : b.Valid) {i : Nat} (announced : i < 2 ^ 63)
    (more : b.readSize < i + redisLineEnd.length) :
    b.GrowthEnds (b.requested i) ↔
      i + redisLineEnd.length < 2 ^ 63 ∨ b.requested i ≤ b.freeSize := by
  have two : redisLineEnd.length = 2 := rfl
  have whole := readSize_requested announced more
  have word : i + redisLineEnd.length < 2 ^ 64 := by omega
  rw [GrowthEnds, whole, Nat.mod_eq_of_lt word]
  constructor
  · intro ends
    by_contra fails
    obtain ⟨large, full⟩ := not_or.mp fails
    obtain ⟨fuel, newSize, grown, -⟩ := ends (not_le.mp full)
    rw [valid.growSize_endless (not_lt.mp large)] at grown
    cases grown
  · rintro (small | room) full
    · obtain ⟨doublings, few, shape⟩ := valid.loop_shape
      obtain ⟨newSize, grown⟩ := growSize_ends 65 few (by omega) small
      rw [← shape] at grown
      exact ⟨65, newSize, grown, (growSize_some (Or.inr valid.loop_shape) grown).1⟩
    · omega

/-- A new buffer grows for a bulk of 600 bytes. -/
theorem growthEnds_iff_new : new.GrowthEnds (new.requested 600) ↔
    600 + redisLineEnd.length < 2 ^ 63 ∨ new.requested 600 ≤ new.freeSize :=
  growthEnds_iff new_valid (by decide) (by decide)

/-- `prepare` comes to its loop where there is too little room. -/
theorem prepare_full {b : TcpClientBuffer} {size : Nat} (word : b.readSize + size < 2 ^ 64)
    (full : b.freeSize < size) :
    b.prepare size = match growSize 65 b.totalSize (b.readSize + size) with
      | none => .error .diverges
      | some newSize =>
        if maxSize 1 < newSize then .error .lengthError
        else if newSize < b.readSize then .error .outOfBounds
        else .ok ⟨b.unread ++ List.replicate (newSize - b.readSize) 0, 0, b.readSize⟩ := by
  have some : ¬ size = 0 := by omega
  have large : ¬ (!false && decide (size ≤ b.freeSize)) = true := by simpa using full
  cases grows : growSize 65 b.totalSize (b.readSize + size) with
  | none => simp only [prepare, if_neg some, if_neg large, Nat.mod_eq_of_lt word, grows]
  | some newSize => simp only [prepare, if_neg some, if_neg large, Nat.mod_eq_of_lt word, grows]

/-- Where it wants `2 ^ 63` bytes the loop never ends. -/
theorem Valid.prepare_hangs {b : TcpClientBuffer} (valid : b.Valid) {size : Nat}
    (word : b.readSize + size < 2 ^ 64) (full : b.freeSize < size)
    (large : 2 ^ 63 ≤ b.readSize + size) : b.prepare size = .error .diverges := by
  rw [prepare_full word full, valid.growSize_endless large]

/-- From `2 ^ 62` bytes on the loop ends, and the vector cannot be made. -/
theorem Valid.prepare_throws {b : TcpClientBuffer} (valid : b.Valid) {size : Nat}
    (full : b.freeSize < size) (large : 2 ^ 62 ≤ b.readSize + size)
    (small : b.readSize + size < 2 ^ 63) : b.prepare size = .error .lengthError := by
  obtain ⟨doublings, few, shape⟩ := valid.loop_shape
  obtain ⟨newSize, grown⟩ := growSize_ends 65 few (by omega) small
  rw [← shape] at grown
  obtain ⟨above, sized⟩ := growSize_some (Or.inr valid.loop_shape) grown
  have most : maxSize 1 = 2 ^ 63 - 1 := by decide
  have tooLarge : maxSize 1 < newSize := by
    by_contra fits
    obtain ⟨doublings, few, rfl⟩ := shape_of_small sized (by omega)
    have power := Nat.pow_le_pow_right (show 0 < 2 by decide) few
    omega
  rw [prepare_full (by omega) full, grown]
  exact if_pos tooLarge

end TcpClientBuffer

namespace TcpClient

variable {π : Type}

/-- `read` does not come back from a `prepare` that does not. -/
theorem read_aborts {c : TcpClient π} {i : Nat} (announced : i < 2 ^ 63)
    (more : c.buffer.readSize < i + redisLineEnd.length) {abort : Abort}
    (aborts : c.buffer.prepare (c.buffer.requested i) = .error abort) (timeout : Int) :
    c.read i redisLineEnd timeout = .error abort := by
  have two : redisLineEnd.length = 2 := rfl
  have expect : (i + redisLineEnd.length) % 2 ^ 64 = i + redisLineEnd.length :=
    Nat.mod_eq_of_lt (by omega)
  rw [read, readLoop_succ, if_neg (by rw [expect]; omega), refill]
  change (c.buffer.prepare (c.buffer.requested i) >>= _) = _
  rw [aborts]
  rfl

end TcpClient

namespace RedisProtocol

variable {π : Type}

/-- Nor does `read_bulk_2`. -/
theorem readBulk2_aborts {p : RedisProtocol π} (clean : p.CleanErrno) {i : Nat} (some : 0 < i)
    (announced : i < 2 ^ 63) (more : p.tcpClient.buffer.readSize < i + redisLineEnd.length)
    {abort : Abort}
    (aborts : p.tcpClient.buffer.prepare (p.tcpClient.buffer.requested i) = .error abort) :
    p.readBulk2 (36 :: Decimal.intText (i : Int)) = .error abort := by
  have reads : p.read i = .error abort := by
    rw [read, TcpClient.read_aborts announced more aborts]
    rfl
  rw [readBulk2, parseInteger_ok clean ⟨by omega, by omega⟩ 36]
  change (if (i : Int) < -1 ∨ (i : Int) = 0 then _ else if (i : Int) = -1 then _ else _) = _
  rw [if_neg (by omega), if_neg (by omega)]
  change (p.read i >>= _) = _
  rw [reads]
  rfl

/-- A bulk for which no vector has room, though one of `2 ^ 63` bytes would have: `read_bulk_2`
throws. -/
theorem readBulk2_throws {p : RedisProtocol π} (valid : p.tcpClient.buffer.Valid)
    (clean : p.CleanErrno) {i : Nat} (large : 2 ^ 62 ≤ i + redisLineEnd.length)
    (small : i + redisLineEnd.length < 2 ^ 63)
    (full : p.tcpClient.buffer.freeSize < p.tcpClient.buffer.requested i)
    (more : p.tcpClient.buffer.readSize < i + redisLineEnd.length) :
    p.readBulk2 (36 :: Decimal.intText (i : Int)) = .error .lengthError := by
  have two : redisLineEnd.length = 2 := rfl
  have announced : i < 2 ^ 63 := by omega
  have whole := TcpClientBuffer.readSize_requested announced more
  exact readBulk2_aborts clean (by omega) announced more
    (valid.prepare_throws full (by omega) (by omega))

/-- The header of the longest bulk: `read_bulk_2` accepts it and waits for ever. -/
theorem growth_not_ends : ∃ (p : RedisProtocol ScriptedPeer) (i : Nat),
    1 ≤ i ∧ i ≤ 2 ^ 63 - 1 ∧ p.tcpClient.buffer.Valid ∧ p.CleanErrno ∧
      p.tcpClient.buffer.readSize < i + redisLineEnd.length ∧
      ¬ p.tcpClient.buffer.GrowthEnds (p.tcpClient.buffer.requested i) ∧
      p.readBulk2 (36 :: Decimal.intText (i : Int)) = .error .diverges := by
  obtain ⟨valid, -⟩ := greeted_valid [] []
  have clean : (greeted [] []).CleanErrno := ⟨by decide, by decide⟩
  have more : (greeted [] []).tcpClient.buffer.readSize < 2 ^ 63 - 1 + redisLineEnd.length := by
    decide +kernel
  have full : (greeted [] []).tcpClient.buffer.freeSize <
      (greeted [] []).tcpClient.buffer.requested (2 ^ 63 - 1) := by
    decide +kernel
  refine ⟨greeted [] [], 2 ^ 63 - 1, by decide, by decide, valid.buffer, clean, more, ?_, ?_⟩
  · rw [TcpClientBuffer.growthEnds_iff valid.buffer (by decide) more]
    exact not_or.mpr ⟨by decide, not_le.mpr full⟩
  · have whole := TcpClientBuffer.readSize_requested (show 2 ^ 63 - 1 < 2 ^ 63 by decide) more
    refine readBulk2_aborts clean (by decide) (by decide) more
      (valid.buffer.prepare_hangs ?_ full ?_)
    · rw [whole]
      decide
    · rw [whole]
      decide

end RedisProtocol

end LibRedis
