import LibRedis.Lib.Fifo
import LibRedis.TcpClientBuffer

/-!
# The receive buffer is a queue

Any sequence of calls on a `TcpClientBuffer`, each of which keeps to what the call asks for. The
unread bytes are a queue: `produce` puts bytes behind it, `consume` takes them from its front, and
`prepare` and `drain` move it to another vector.
-/

namespace LibRedis

/-- A call on the buffer. -/
inductive BufferCall where
  /-- `prepare`. -/
  | prepare (size : Nat) (drain : Bool)
  /-- Bytes are written at `to_read_`, then `produce` is called for them. -/
  | produce (data : Bytes)
  /-- `consume`. -/
  | consume (size : Nat)
  /-- `drain`. -/
  | drain
  /-- `clear`. -/
  | clear

namespace TcpClientBuffer

/-- What a call returns, and the buffer behind it. -/
def perform (b : TcpClientBuffer) : BufferCall → Except Abort (Bytes × TcpClientBuffer)
  | .prepare size drain => (b.prepare size drain).map ([], ·)
  | .produce data => ((b.fill data).produce data.length).map ([], ·)
  | .consume size => b.consume size
  | .drain => b.drain.map ([], ·)
  | .clear => .ok ([], b.clear)

/-- What a call asks for. -/
def Allows (b : TcpClientBuffer) : BufferCall → Prop
  | .prepare size _ => b.readSize + size < 2 ^ 62
  | .produce data => data.length ≤ b.freeSize
  | .consume size => 1 ≤ size ∧ size ≤ b.readSize
  | .drain => True
  | .clear => True

instance (b : TcpClientBuffer) : (call : BufferCall) → Decidable (b.Allows call)
  | .prepare size _ => inferInstanceAs (Decidable (b.readSize + size < 2 ^ 62))
  | .produce data => inferInstanceAs (Decidable (data.length ≤ b.freeSize))
  | .consume size => inferInstanceAs (Decidable (1 ≤ size ∧ size ≤ b.readSize))
  | .drain => inferInstanceAs (Decidable True)
  | .clear => inferInstanceAs (Decidable True)

/-- A call that is allowed and returns. The label is the call with what it returns. -/
def Step (b : TcpClientBuffer) (label : BufferCall × Bytes) (b' : TcpClientBuffer) : Prop :=
  b.Allows label.1 ∧ b.perform label.1 = .ok (label.2, b')

/-- What a call does to the queue of unread bytes. -/
def event : BufferCall × Bytes → Fifo.Event UInt8
  | (.produce data, _) => .put data
  | (.consume _, bytes) => .take bytes
  | (.clear, _) => .reset
  | (.prepare _ _, _) => .keep
  | (.drain, _) => .keep

/-- A call does its part, if it returns. -/
structure Does (b : TcpClientBuffer) (label : BufferCall × Bytes) (b' : TcpClientBuffer) :
    Prop where
  /-- The inequality holds behind it. -/
  valid : b'.Valid
  /-- The unread bytes have changed as the queue does. -/
  queue : Fifo.Step b.unread (event label) b'.unread
  /-- `prepare` has made room. -/
  room : ∀ size drain, label.1 = .prepare size drain → size ≤ b'.freeSize
  /-- `consume` has returned so many bytes. -/
  size : ∀ size, label.1 = .consume size → label.2.length = size

/-- Every call does its part on a valid buffer. There is one case for each call. -/
theorem Valid.does {b b' : TcpClientBuffer} (valid : b.Valid) {label : BufferCall × Bytes}
    (step : b.Step label b') : b.Does label b' := by
  obtain ⟨call, returned⟩ := label
  obtain ⟨allowed, performs⟩ := step
  have prepares {size : Nat} {drain : Bool} (word : b.readSize + size < 2 ^ 64)
      (returns : b.prepare size drain = .ok b') :
      b'.Valid ∧ b'.unread = b.unread ∧ size ≤ b'.freeSize := by
    rcases prepare_cases valid size drain word with
      ⟨abort, aborts, -⟩ | ⟨made, same, valid', kept, room, -⟩
    · cases returns.symm.trans aborts
    · obtain rfl := Except.ok.inj (returns.symm.trans same)
      exact ⟨valid', kept, room⟩
  cases call with
  | prepare size drain =>
    obtain ⟨made, returns, same⟩ := map_returns performs
    obtain ⟨rfl, rfl⟩ := Prod.mk.inj same
    have small : b.readSize + size < 2 ^ 62 := allowed
    obtain ⟨valid', kept, room⟩ := prepares (by omega) returns
    refine ⟨valid', ?_, ?_, ?_⟩
    · rw [kept]
      exact .keep b.unread
    · intro size' drain' call
      cases call
      exact room
    · intro size' call
      cases call
  | produce data =>
    obtain ⟨made, returns, same⟩ := map_returns performs
    obtain ⟨rfl, rfl⟩ := Prod.mk.inj same
    obtain ⟨made', returns', valid', appended, -⟩ := produce_fill valid allowed
    obtain rfl := Except.ok.inj (returns.symm.trans returns')
    refine ⟨valid', ?_, ?_, ?_⟩
    · rw [appended]
      exact .put b.unread data
    · intro size drain call
      cases call
    · intro size call
      cases call
  | consume size =>
    obtain ⟨some, within⟩ := allowed
    rw [← valid.length_unread] at within
    obtain ⟨made, returns, valid', left, -⟩ := consume_ok valid size some within
    obtain ⟨rfl, rfl⟩ := Prod.mk.inj (Except.ok.inj (performs.symm.trans returns))
    refine ⟨valid', ?_, ?_, ?_⟩
    · have taken := Fifo.Step.take (b.unread.take size) (b.unread.drop size)
      rw [List.take_append_drop] at taken
      rw [left]
      exact taken
    · intro size' drain call
      cases call
    · intro size' call
      cases call
      exact List.length_take_of_le within
  | drain =>
    obtain ⟨made, returns, same⟩ := map_returns performs
    obtain ⟨rfl, rfl⟩ := Prod.mk.inj same
    have most := valid.le
    have inside := valid.inside
    have word : b.readSize + kDefaultBufferSize < 2 ^ 64 := by
      rw [readSize, kDefaultBufferSize]
      omega
    obtain ⟨valid', kept, -⟩ := prepares word returns
    refine ⟨valid', ?_, ?_, ?_⟩
    · rw [kept]
      exact .keep b.unread
    · intro size drain call
      cases call
    · intro size call
      cases call
  | clear =>
    obtain ⟨rfl, rfl⟩ := Prod.mk.inj (Except.ok.inj performs)
    refine ⟨clear_valid b, ?_, ?_, ?_⟩
    · rw [clear_unread]
      exact .reset b.unread
    · intro size drain call
      cases call
    · intro size call
      cases call

/-- Every call that is allowed returns. Only `drain` may fail to, and with `2 ^ 62` bytes. -/
theorem Valid.performs {b : TcpClientBuffer} (valid : b.Valid) {call : BufferCall}
    (allowed : b.Allows call)
    (small : call = .drain → b.readSize + kDefaultBufferSize < 2 ^ 62) :
    ∃ returned b', b.perform call = .ok (returned, b') := by
  have prepares (drain : Bool) {size : Nat} (word : b.readSize + size < 2 ^ 62) :
      ∃ b', b.prepare size drain = .ok b' := by
    rcases prepare_cases valid size drain (by omega) with ⟨-, -, -, large⟩ | ⟨b', returns, -⟩
    · omega
    · exact ⟨b', returns⟩
  cases call with
  | prepare size drain =>
    obtain ⟨b', returns⟩ := prepares drain allowed
    refine ⟨[], b', ?_⟩
    rw [perform, returns]
    rfl
  | produce data =>
    obtain ⟨b', returns, -⟩ := produce_fill valid allowed
    refine ⟨[], b', ?_⟩
    rw [perform, returns]
    rfl
  | consume size =>
    obtain ⟨some, within⟩ := allowed
    rw [← valid.length_unread] at within
    obtain ⟨b', returns, -⟩ := consume_ok valid size some within
    exact ⟨_, b', returns⟩
  | drain =>
    obtain ⟨b', returns⟩ := prepares true (small rfl)
    refine ⟨[], b', ?_⟩
    rw [perform, drain, returns]
    rfl
  | clear => exact ⟨[], b.clear, rfl⟩

/-- The calls on the buffer are those of a queue. -/
theorem forward_fifo : Simulation.Forward Step
    (fun queue label queue' => Fifo.Step queue (event label) queue')
    (fun b queue => b.Valid ∧ b.unread = queue) := by
  rintro b queue label b' ⟨valid, rfl⟩ step
  have does := valid.does step
  exact ⟨b'.unread, does.queue, does.valid, rfl⟩

/-- In every state that any calls lead to, the pointers are ordered, the size is the default size
doubled, and the bytes consumed since the last `clear` and those still unread make up the bytes
produced since then. There every allowed call returns, and does its part. -/
theorem buffer_is_queue {labels : List (BufferCall × Bytes)} {b : TcpClientBuffer}
    (run : Simulation.Run Step .new labels b) :
    (b.read ≤ b.toRead ∧ b.toRead ≤ b.totalSize ∧ ∃ doublings, b.totalSize = 512 * 2 ^ doublings) ∧
    Fifo.takenSince [] (labels.map event) ++ b.unread = Fifo.putSince [] (labels.map event) ∧
    (∀ call, b.Allows call → (call = .drain → b.readSize + kDefaultBufferSize < 2 ^ 62) →
      ∃ returned b', b.perform call = .ok (returned, b')) ∧
    ∀ label b', b.Step label b' → b.Does label b' := by
  obtain ⟨queue, fifo, valid, same⟩ := forward_fifo.run run ⟨new_valid, new_unread⟩
  obtain ⟨doublings, -, shape⟩ := valid.shape
  refine ⟨⟨valid.ordered, valid.inside, doublings, shape⟩, ?_, ?_, ?_⟩
  · rw [same]
    exact Fifo.balanced fifo.view rfl
  · intro call allowed small
    exact valid.performs allowed small
  · intro label b' step
    exact valid.does step

/-- Three bytes are produced, and two of them consumed. -/
theorem buffer_is_queue_three :
    Fifo.takenSince []
        ([(.prepare 600 false, []), (.produce [1, 2, 3], []), (.consume 2, [1, 2])].map event) ++
      (⟨[1, 2, 3] ++ List.replicate 1021 0, 2, 3⟩ : TcpClientBuffer).unread = [1, 2, 3] := by
  have grown : Step .new (.prepare 600 false, []) ⟨List.replicate 1024 0, 0, 0⟩ :=
    ⟨by decide, by decide +kernel⟩
  have filled : Step ⟨List.replicate 1024 0, 0, 0⟩ (.produce [1, 2, 3], [])
      ⟨[1, 2, 3] ++ List.replicate 1021 0, 0, 3⟩ :=
    ⟨by decide +kernel, by decide +kernel⟩
  have taken : Step ⟨[1, 2, 3] ++ List.replicate 1021 0, 0, 3⟩ (.consume 2, [1, 2])
      ⟨[1, 2, 3] ++ List.replicate 1021 0, 2, 3⟩ :=
    ⟨by decide, by decide +kernel⟩
  exact (buffer_is_queue (.step grown (.step filled (.step taken (.done _))))).2.1

end TcpClientBuffer

end LibRedis
