import LibRedis.ReceiveQueue

/-!
# The memory of the receive buffer

`consume` asks `drain` to give the vector back when it leaves no bytes in a large one. But `drain`
goes through the loop of `prepare`, which starts from the size that the vector has and only doubles
it. So a vector that has become large stays so until the buffer is cleared, and whether a buffer is
small when it is emptied depends on what `prepare` was asked for before.
-/

namespace LibRedis

namespace TcpClientBuffer

/-- A call that returns, on bytes that were written where the vector has room for them. The label is
the buffer before the call, with the call. -/
structure Calls (b : TcpClientBuffer) (label : TcpClientBuffer × BufferCall) (b' : TcpClientBuffer) :
    Prop where
  /-- The buffer of the label. -/
  before : label.1 = b
  /-- The bytes that `produce` is called for have room. -/
  written : ∀ data, label.2 = .produce data → data.length ≤ b.freeSize
  /-- The call returns. -/
  returns : ∃ returned, b.perform label.2 = .ok (returned, b')

/-- The size from which on a vector is given back. -/
def Large (b : TcpClientBuffer) : Prop := kMaxBufferSize ≤ b.totalSize

instance (b : TcpClientBuffer) : Decidable b.Large :=
  inferInstanceAs (Decidable (kMaxBufferSize ≤ b.totalSize))

/-- `prepare` makes a new vector, for at least half of the size from which on it is large. -/
def PreparesLarge (b : TcpClientBuffer) (size : Nat) (drain : Bool) : Prop :=
  b.Reallocates size drain ∧ kMaxBufferSize ≤ 2 * ((b.readSize + size) % 2 ^ 64)

instance (b : TcpClientBuffer) (size : Nat) (drain : Bool) :
    Decidable (b.PreparesLarge size drain) :=
  inferInstanceAs (Decidable (b.Reallocates size drain ∧
    kMaxBufferSize ≤ 2 * ((b.readSize + size) % 2 ^ 64)))

/-- A call makes a large vector. -/
def MakesLarge : TcpClientBuffer × BufferCall → Prop
  | (b, .prepare size drain) => b.PreparesLarge size drain
  | (b, .drain) => b.PreparesLarge kDefaultBufferSize true
  | (_, .produce _) => False
  | (_, .consume _) => False
  | (_, .clear) => False

instance : (label : TcpClientBuffer × BufferCall) → Decidable (MakesLarge label)
  | (b, .prepare size drain) => inferInstanceAs (Decidable (b.PreparesLarge size drain))
  | (b, .drain) => inferInstanceAs (Decidable (b.PreparesLarge kDefaultBufferSize true))
  | (_, .produce _) => inferInstanceAs (Decidable False)
  | (_, .consume _) => inferInstanceAs (Decidable False)
  | (_, .clear) => inferInstanceAs (Decidable False)

/-- A call cuts the vector to the default size. -/
def Clears (label : TcpClientBuffer × BufferCall) : Prop := label.2 = .clear

/-- In a run every `consume` that leaves no unread bytes leaves a small vector. -/
def GivesBack (labels : List (TcpClientBuffer × BufferCall)) : Prop :=
  ∀ earlier later b size bytes b', labels = earlier ++ (b, .consume size) :: later →
    b.consume size = .ok (bytes, b') → b'.readSize = 0 → b'.totalSize < kMaxBufferSize

/-- The loop ends with a large size if it has started from one, or if half of one was asked for. -/
theorem growSize_large {fuel newSize minNewSize grown : Nat}
    (shape : ∃ doublings ≤ 54, newSize = 512 * 2 ^ doublings)
    (ends : growSize (fuel + 1) newSize minNewSize = some grown) :
    kMaxBufferSize ≤ grown ↔ kMaxBufferSize ≤ 2 * minNewSize ∨ kMaxBufferSize ≤ newSize := by
  have most := growSize_le ends
  obtain ⟨above, doublings, few, size⟩ := growSize_some (Or.inr shape) ends
  have grows := growSize_ge shape ends
  rw [kMaxBufferSize] at *
  constructor
  · intro large
    omega
  · rintro (asked | large)
    · by_contra small
      have fewer : doublings < 7 := by
        by_contra several
        have power := Nat.pow_le_pow_right (show 0 < 2 by decide) (not_lt.mp several)
        omega
      have power := Nat.pow_le_pow_right (show 0 < 2 by decide) (Nat.le_of_lt_succ fewer)
      omega
    · omega

/-- What `prepare` makes, whatever it is asked for: a large vector if the one before was large, or
if it had to make one for so many bytes. -/
theorem Valid.prepare_large {b b' : TcpClientBuffer} (valid : b.Valid) {size : Nat} {drain : Bool}
    (returns : b.prepare size drain = .ok b') :
    b'.Valid ∧ (b'.Large ↔ b.PreparesLarge size drain ∨ b.Large) := by
  by_cases makes : b.Reallocates size drain
  · rcases valid.prepare_makes makes with
      ⟨abort, aborts, -⟩ | ⟨made, returns', valid', -, -, grows⟩
    · cases returns.symm.trans aborts
    · cases returns.symm.trans returns'
      refine ⟨valid', ?_⟩
      rw [PreparesLarge, and_iff_right makes]
      exact growSize_large valid.loop_shape grows
  · cases returns.symm.trans (prepare_same makes).1
    refine ⟨valid, ?_⟩
    rw [PreparesLarge, or_iff_right fun asked => makes asked.1]

/-- What `consume` asks for. -/
theorem consume_asks {b : TcpClientBuffer} {size : Nat} {out : Bytes × TcpClientBuffer}
    (returns : b.consume size = .ok out) : 0 < size ∧ size ≤ b.readSize := by
  rw [consume] at returns
  constructor
  · by_contra none
    rw [if_pos (by omega)] at returns
    cases returns
  · by_contra few
    rw [if_neg (by omega), if_pos (by omega)] at returns
    cases returns

/-- `consume` leaves no unread bytes exactly if it is called for all of them, and keeps the size of
the vector in any case. -/
theorem Valid.consume_keeps {b b' : TcpClientBuffer} (valid : b.Valid) {size : Nat} {bytes : Bytes}
    (returns : b.consume size = .ok (bytes, b')) :
    b'.Valid ∧ (b'.readSize = 0 ↔ size = b.readSize) ∧ b'.totalSize = b.totalSize := by
  obtain ⟨some, within⟩ := consume_asks returns
  have enough : size ≤ b.unread.length := by
    rw [valid.length_unread]
    exact within
  obtain ⟨made, returns', valid', left, kept⟩ := consume_ok valid size some enough
  cases returns.symm.trans returns'
  have length := congrArg List.length left
  rw [List.length_drop, valid'.length_unread, valid.length_unread] at length
  refine ⟨valid', ?_, kept⟩
  omega

/-- Every call makes the vector large, cuts it, or leaves it as large as it was. There is one case for
each call. -/
theorem Valid.calls_large {b b' : TcpClientBuffer} {label : TcpClientBuffer × BufferCall}
    (valid : b.Valid) (calls : b.Calls label b') :
    b'.Valid ∧ (b'.Large ↔ MakesLarge label ∨ b.Large ∧ ¬ Clears label) := by
  obtain ⟨before, call⟩ := label
  obtain ⟨rfl, written, returned, performs⟩ := calls
  have kept (size : b'.totalSize = before.totalSize) : b'.Large ↔ before.Large := by
    rw [Large, Large, size]
  cases call with
  | prepare size drain =>
    obtain ⟨made, returns, same⟩ := map_returns performs
    cases same
    simpa [MakesLarge, Clears] using valid.prepare_large returns
  | produce data =>
    obtain ⟨made, returns, same⟩ := map_returns performs
    cases same
    obtain ⟨made', returns', valid', -, size⟩ := produce_fill valid (written data rfl)
    cases returns.symm.trans returns'
    simpa [MakesLarge, Clears] using And.intro valid' (kept size)
  | consume size =>
    obtain ⟨valid', -, size⟩ := valid.consume_keeps performs
    simpa [MakesLarge, Clears] using And.intro valid' (kept size)
  | drain =>
    obtain ⟨made, returns, same⟩ := map_returns performs
    cases same
    simpa [MakesLarge, Clears] using valid.prepare_large returns
  | clear =>
    cases performs
    have size : before.clear.totalSize = kDefaultBufferSize := by
      simp only [totalSize, clear, List.length_append, List.length_take, List.length_replicate]
      omega
    have small : ¬ before.clear.Large := by
      rw [Large, size]
      decide
    simpa [MakesLarge, Clears] using And.intro (clear_valid before) small

/-- Behind any calls the vector is large exactly if one of them has made it so since the last
`clear`. -/
theorem run_large {labels : List (TcpClientBuffer × BufferCall)} {b : TcpClientBuffer}
    (run : Simulation.Run Calls .new labels b) :
    b.Valid ∧ (b.Large ↔ Simulation.Latched MakesLarge Clears labels) := by
  have turns (b : TcpClientBuffer) (label : TcpClientBuffer × BufferCall) (b' : TcpClientBuffer)
      (valid : b.Valid) (calls : b.Calls label b') := valid.calls_large calls
  have size : new.totalSize = kDefaultBufferSize := List.length_replicate
  have small : ¬ new.Large := by
    rw [Large, size]
    decide
  constructor
  · exact run.invariant (fun b label b' valid calls => (turns b label b' valid calls).1) new_valid
  · rw [run.latched turns new_valid, or_iff_left fun large => small large.1]

/-- A `consume` behind any calls leaves a small vector exactly if none of them has made it large
since the last `clear`. -/
theorem consume_small_iff {labels : List (TcpClientBuffer × BufferCall)} {b b' : TcpClientBuffer}
    (run : Simulation.Run Calls .new labels b) {size : Nat} {bytes : Bytes}
    (returns : b.consume size = .ok (bytes, b')) :
    b'.totalSize < kMaxBufferSize ↔ ¬ Simulation.Latched MakesLarge Clears labels := by
  obtain ⟨valid, large⟩ := run_large run
  rw [← large, (valid.consume_keeps returns).2.2, Large, not_le]

/-- In every run, whatever was called: the buffer is small wherever it is emptied if and only if no
call before had to make a vector for half of the large size, unless the buffer was cleared since. -/
theorem givesBack_iff {labels : List (TcpClientBuffer × BufferCall)} {b : TcpClientBuffer}
    (run : Simulation.Run Calls .new labels b) :
    GivesBack labels ↔ ∀ earlier later b, labels = earlier ++ (b, .consume b.readSize) :: later →
      ¬ Simulation.Latched MakesLarge Clears earlier := by
  constructor
  · rintro gives earlier later emptied rfl
    obtain ⟨before, next, front, calls, -⟩ := run.split
    obtain rfl : emptied = before := calls.before
    obtain ⟨bytes, consumes⟩ := calls.returns
    have empty := ((run_large front).1.consume_keeps consumes).2.1.mpr rfl
    have small := gives earlier later _ _ bytes next rfl consumes empty
    exact (consume_small_iff front consumes).mp small
  · rintro small earlier later emptied size bytes b' rfl consumes empty
    obtain ⟨before, next, front, calls, -⟩ := run.split
    obtain rfl : emptied = before := calls.before
    obtain rfl := ((run_large front).1.consume_keeps consumes).2.1.mp empty
    exact (consume_small_iff front consumes).mpr (small earlier later _ rfl)

/-- Three bytes are produced and consumed, and none of the calls makes a large vector. -/
theorem givesBack_iff_three :
    GivesBack [(new, .prepare 600 false), (⟨List.replicate 1024 0, 0, 0⟩, .produce [1, 2, 3]),
      (⟨[1, 2, 3] ++ List.replicate 1021 0, 0, 3⟩, .consume 3)] := by
  have grown : Calls .new (new, .prepare 600 false) ⟨List.replicate 1024 0, 0, 0⟩ := by
    refine ⟨rfl, ?_, [], by decide +kernel⟩
    intro data call
    cases call
  have filled : Calls ⟨List.replicate 1024 0, 0, 0⟩
      (⟨List.replicate 1024 0, 0, 0⟩, .produce [1, 2, 3])
      ⟨[1, 2, 3] ++ List.replicate 1021 0, 0, 3⟩ := by
    refine ⟨rfl, ?_, [], by decide +kernel⟩
    intro data call
    cases call
    decide +kernel
  have emptied : Calls ⟨[1, 2, 3] ++ List.replicate 1021 0, 0, 3⟩
      (⟨[1, 2, 3] ++ List.replicate 1021 0, 0, 3⟩, .consume 3)
      ⟨[1, 2, 3] ++ List.replicate 1021 0, 0, 0⟩ := by
    refine ⟨rfl, ?_, [1, 2, 3], by decide +kernel⟩
    intro data call
    cases call
  have gives := givesBack_iff (.step grown (.step filled (.step emptied (.done _))))
  refine gives.mpr ?_
  intro earlier later b same latched
  obtain ⟨label, member, large⟩ := latched.among
  have listed : label ∈ [(new, .prepare 600 false),
      ((⟨List.replicate 1024 0, 0, 0⟩ : TcpClientBuffer), .produce [1, 2, 3]),
      (⟨[1, 2, 3] ++ List.replicate 1021 0, 0, 3⟩, .consume 3)] := by
    rw [same]
    exact List.mem_append_left _ member
  revert large
  simp only [List.mem_cons, List.not_mem_nil, or_false] at listed
  rcases listed with rfl | rfl | rfl
  · decide +kernel
  · exact id
  · exact id

/-- Half of the large size is asked for, and the only byte produced is consumed: the empty buffer
keeps the large vector. -/
theorem not_given_back : ∃ (labels : List (TcpClientBuffer × BufferCall)) (b : TcpClientBuffer),
    Simulation.Run Calls .new labels b ∧
      labels.map Prod.snd = [.prepare 32768 false, .produce [0], .consume 1] ∧
      b.readSize = 0 ∧ kMaxBufferSize ≤ b.totalSize ∧ ¬ GivesBack labels := by
  have asked : new.PreparesLarge 32768 false := by decide +kernel
  obtain ⟨b₁, prepares, valid₁, none, room⟩ : ∃ b₁, new.prepare 32768 false = .ok b₁ ∧ b₁.Valid ∧
      b₁.unread = [] ∧ 32768 ≤ b₁.freeSize := by
    rcases prepare_cases new_valid 32768 false (by decide +kernel) with
      ⟨-, -, -, large⟩ | ⟨b₁, prepares, valid₁, same, room, -⟩
    · have small : ¬ 2 ^ 62 ≤ new.readSize + 32768 := by decide +kernel
      exact absurd large small
    · exact ⟨b₁, prepares, valid₁, same.trans new_unread, room⟩
  have large₁ : b₁.Large := (new_valid.prepare_large prepares).2.mpr (Or.inl asked)
  have few : [(0 : UInt8)].length ≤ b₁.freeSize := le_trans (by decide) room
  obtain ⟨b₂, produces, valid₂, one, size₂⟩ := produce_fill valid₁ few
  rw [none, List.nil_append] at one
  obtain ⟨b₃, consumes, valid₃, left, size₃⟩ := consume_ok valid₂ 1 (by decide) (by rw [one]; decide)
  have empty : b₃.readSize = 0 := by
    rw [← valid₃.length_unread, left, one]
    rfl
  have large₃ : kMaxBufferSize ≤ b₃.totalSize := by
    rw [size₃, size₂]
    exact large₁
  have prepared : Calls new (new, .prepare 32768 false) b₁ := by
    refine ⟨rfl, ?_, [], ?_⟩
    · intro data call
      cases call
    · rw [perform, prepares]
      rfl
  have produced : Calls b₁ (b₁, .produce [0]) b₂ := by
    refine ⟨rfl, ?_, [], ?_⟩
    · intro data call
      cases call
      exact few
    · rw [perform, produces]
      rfl
  have consumed : Calls b₂ (b₂, .consume 1) b₃ := by
    refine ⟨rfl, ?_, _, consumes⟩
    intro data call
    cases call
  refine ⟨_, b₃, .step prepared (.step produced (.step consumed (.done b₃))), rfl, empty, large₃, ?_⟩
  intro gives
  have small := gives [(new, .prepare 32768 false), (b₁, .produce [0])] [] b₂ 1 _ b₃ rfl consumes
    empty
  omega

end TcpClientBuffer

end LibRedis
