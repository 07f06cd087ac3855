import LibRedis.Lib.Delimited
import LibRedis.Lib.Simulation
import LibRedis.TcpClient

/-!
# The reader as a byte stream

Whatever the chunks in which bytes arrive, the caller of `read_line` and `read` sees one stream:
the bytes received and not yet consumed, followed by those still to arrive. `readLine_cases` and
`read_cases` say what a call does to that stream; they are all that later modules use of the
reader. The last section states a plain byte stream as a system of its own and shows that every
run of the client is a run of it.
-/

namespace LibRedis

namespace Os

variable {π : Type}

/-- A system on which every `recv` hands over at least one byte that has arrived. -/
def Delivers (os : Os π) : Prop := ∀ outcome ∈ os.recvs, ∃ most, outcome = .chunk most

/-- A system that has used up some outcomes delivers as before. -/
theorem Delivers.suffix {os os' : Os π} (delivers : os.Delivers) (script : os'.recvs <:+ os.recvs) :
    os'.Delivers :=
  fun outcome member => delivers outcome (script.subset member)

/-- The next outcome of a system that delivers is a chunk. -/
theorem Delivers.head {os : Os π} (delivers : os.Delivers) (len : Nat) :
    ∃ most, os.recvs.headD (.chunk len) = .chunk most := by
  cases shape : os.recvs with
  | nil => exact ⟨len, rfl⟩
  | cons outcome rest => exact delivers outcome (by simp [shape])

/-- Narrowing keeps a transferred count, since one call moves less than `2 ^ 31` bytes. -/
theorem toInt32_small {count : Nat} (small : count < 2 ^ 31) : toInt32 count = count :=
  Int.bmod_eq_of_le (by omega) (by omega)

/-- Outcomes that are not a chunk are not those of a system that delivers. -/
theorem not_delivers {os : Os π} {len : Nat} {outcome : RecvOutcome}
    (next : os.recvs.headD (.chunk len) = outcome) (other : ∀ most, outcome ≠ .chunk most) :
    ¬ os.Delivers := by
  intro delivers
  obtain ⟨most, chunk⟩ := delivers.head len
  exact other most (next.symm.trans chunk)

/-- `timed_read` gives up without any bytes, after waiting or at once. -/
structure GivesUp (os : Os π) (fd : Int) (len : Nat) (count : Int) (os' : Os π) : Prop where
  /-- Its count tells the caller. -/
  count : count ≤ 0
  /-- Only the receiving side and `errno` change. -/
  frame : os' = { os with recvs := os.recvs.tail, errno := os'.errno, recvLens := os'.recvLens }
  /-- No other length was asked for. -/
  asked : os'.recvLens = os.recvLens ∨ os'.recvLens = len :: os.recvLens
  /-- If bytes are handed over as they arrive, the wait has timed out and none had arrived. -/
  quiet : os.Delivers → os'.errno = etimedout ∧ (0 ≤ fd → os.incoming = [])

/-- Waiting on a descriptor where nothing happens lasts for ever or gives up. -/
theorem timedRead_waits {os : Os π} {fd : Int} {len : Nat} {timeout : Int}
    (waits : os.timedRead fd len timeout =
      ({ os with recvs := os.recvs.tail }.wait timeout >>= fun os => pure (-1, [], os)))
    (quiet : os.Delivers → 0 ≤ fd → os.incoming = []) :
    os.timedRead fd len timeout = .error .diverges ∨
    ∃ count os', os.timedRead fd len timeout = .ok (count, [], os') ∧
      os.GivesUp fd len count os' := by
  by_cases forever : timeout < 0
  · refine Or.inl ?_
    rw [waits, wait, if_pos forever]
    rfl
  · refine Or.inr ⟨-1, { os with recvs := os.recvs.tail, errno := etimedout }, ?_, by decide, rfl,
      Or.inl rfl, fun delivers => ⟨rfl, quiet delivers⟩⟩
    rw [waits, wait, if_neg forever]
    rfl

/-- `timed_read` waits for ever, gives up, or hands over bytes that have arrived. -/
theorem timedRead_cases (os : Os π) (fd : Int) {len : Nat} (room : 0 < len) (timeout : Int) :
    (os.timedRead fd len timeout = .error .diverges ∧
      (os.Delivers → 0 ≤ fd → os.incoming = [])) ∨
    (∃ count os', os.timedRead fd len timeout = .ok (count, [], os') ∧
      os.GivesUp fd len count os') ∨
    (∃ data incoming, os.timedRead fd len timeout =
        .ok ((data.length : Int), data, { os with
          recvs := os.recvs.tail, incoming := incoming, recvLens := len :: os.recvLens }) ∧
      0 ≤ fd ∧ data ≠ [] ∧ data.length ≤ len ∧ os.incoming = data ++ incoming) := by
  by_cases closed : fd < 0
  · have quiet : os.Delivers → 0 ≤ fd → os.incoming = [] :=
      fun _ alive => absurd alive (not_le.mpr closed)
    refine (timedRead_waits ?_ quiet).imp (fun waits => ⟨waits, quiet⟩) Or.inl
    rw [timedRead]
    simp only [if_pos closed]
  · cases next : os.recvs.headD (.chunk len) with
    | timeout =>
      have quiet : os.Delivers → 0 ≤ fd → os.incoming = [] :=
        fun delivers => absurd delivers (not_delivers next (by simp))
      refine (timedRead_waits ?_ quiet).imp (fun waits => ⟨waits, quiet⟩) Or.inl
      rw [timedRead]
      simp only [if_neg closed, next]
    | failed ec =>
      refine Or.inr (Or.inl ⟨-1, { os with recvs := os.recvs.tail, errno := ec }, ?_, by decide,
        rfl, Or.inl rfl, fun delivers => absurd delivers (not_delivers next (by simp))⟩)
      rw [timedRead]
      simp only [if_neg closed, next]
      rfl
    | eof =>
      refine Or.inr (Or.inl ⟨0, { os with
        recvs := os.recvs.tail, recvLens := len :: os.recvLens }, ?_, le_rfl,
        rfl, Or.inr rfl, fun delivers => absurd delivers (not_delivers next (by simp))⟩)
      rw [timedRead]
      simp only [if_neg closed, next]
      rfl
    | chunk most =>
      by_cases arrived : os.incoming = []
      · have quiet : os.Delivers → 0 ≤ fd → os.incoming = [] := fun _ _ => arrived
        refine (timedRead_waits ?_ quiet).imp (fun waits => ⟨waits, quiet⟩) Or.inl
        rw [timedRead]
        simp only [if_neg closed, next, if_pos arrived]
      · let data := os.incoming.take (min (min len maxTransfer) (most + 1))
        have positive : 0 < os.incoming.length := List.length_pos_iff.mpr arrived
        have size : data.length = min (min (min len maxTransfer) (most + 1)) os.incoming.length :=
          List.length_take
        have bounds : 0 < data.length ∧ data.length ≤ len ∧ data.length < 2 ^ 31 := by
          simp only [maxTransfer] at size
          omega
        refine Or.inr (Or.inr ⟨data, os.incoming.drop data.length, ?_, not_lt.mp closed, ?_,
          bounds.2.1, ?_⟩)
        · rw [timedRead, ← toInt32_small bounds.2.2]
          simp only [if_neg closed, next, if_neg arrived]
          rfl
        · exact List.length_pos_iff.mp bounds.1
        · have whole := List.prefix_iff_eq_take.mp
            (List.take_prefix (min (min len maxTransfer) (most + 1)) os.incoming)
          nth_rewrite 1 [← List.take_append_drop data.length os.incoming]
          rw [← whole]

/-- The outcomes hand over bytes and then end the stream, before a `recv` finds none of so many
left. -/
def EndsBefore : List RecvOutcome → Nat → Prop
  | [], _ => False
  | .chunk most :: rest, left => 0 < left ∧ EndsBefore rest (left - (most + 1))
  | .timeout :: _, _ => False
  | .eof :: _, _ => True
  | .failed _ :: _, _ => True

instance EndsBefore.decidable : (outcomes : List RecvOutcome) → (left : Nat) →
    Decidable (EndsBefore outcomes left)
  | [], _ => inferInstanceAs (Decidable False)
  | .chunk most :: rest, left =>
    have := decidable rest (left - (most + 1))
    inferInstanceAs (Decidable (_ ∧ _))
  | .timeout :: _, _ => inferInstanceAs (Decidable False)
  | .eof :: _, _ => inferInstanceAs (Decidable True)
  | .failed _ :: _, _ => inferInstanceAs (Decidable True)

/-- With more bytes left the stream ends as well. -/
theorem EndsBefore.mono {outcomes : List RecvOutcome} {left more : Nat}
    (ends : EndsBefore outcomes left) (most : left ≤ more) : EndsBefore outcomes more := by
  induction outcomes generalizing left more with
  | nil => exact ends
  | cons outcome rest ih =>
    cases outcome with
    | chunk count => exact ⟨by have := ends.1; omega, ih ends.2 (by omega)⟩
    | timeout => exact ends
    | eof => exact ends
    | failed ec => exact ends

/-- The script ends the stream of this system without a timeout. -/
def Finishes (os : Os π) : Prop := EndsBefore os.recvs os.incoming.length

instance (os : Os π) : Decidable os.Finishes := inferInstanceAs (Decidable (EndsBefore _ _))

/-- Every byte on its way is handed over before anything else happens. -/
def Arrives (os : Os π) : Prop :=
  ∀ outcome ∈ os.recvs.take os.incoming.length, ∃ most, outcome = .chunk most

/-- Where every `recv` hands over bytes, all of them arrive. -/
theorem Delivers.arrives {os : Os π} (delivers : os.Delivers) : os.Arrives :=
  fun outcome member => delivers outcome (List.mem_of_mem_take member)

/-- The next outcome is a chunk as long as bytes are on their way. -/
theorem Arrives.head {os : Os π} (arrives : os.Arrives) (more : os.incoming ≠ []) (len : Nat) :
    ∃ most, os.recvs.headD (.chunk len) = .chunk most := by
  have positive := List.length_pos_iff.mpr more
  cases shape : os.recvs with
  | nil => exact ⟨len, rfl⟩
  | cons outcome rest =>
    refine arrives outcome ?_
    obtain ⟨count, size⟩ := Nat.exists_eq_succ_of_ne_zero (show os.incoming.length ≠ 0 by omega)
    rw [shape, size, List.take_succ_cons]
    exact List.mem_cons_self

/-- What receiving keeps of the way in which a stream ends. -/
structure Awaits (os os' : Os π) : Prop where
  /-- A stream that the script ends is ended by what is left of it. -/
  finishes : os.Finishes → os'.Finishes
  /-- The rest of the bytes arrive too. -/
  arrives : os.Arrives → os'.Arrives

/-- Nothing has been received. -/
theorem Awaits.refl (os : Os π) : os.Awaits os := ⟨id, id⟩

/-- Receiving twice is receiving. -/
theorem Awaits.trans {os os' os'' : Os π} (left : os.Awaits os') (right : os'.Awaits os'') :
    os.Awaits os'' := ⟨right.finishes ∘ left.finishes, right.arrives ∘ left.arrives⟩

/-- Where bytes are on their way and arrive, `timed_read` hands some of them over. -/
theorem Arrives.timedRead {os : Os π} (arrives : os.Arrives) {fd : Int} (alive : 0 ≤ fd) {len : Nat}
    (room : 0 < len) (timeout : Int) (more : os.incoming ≠ []) :
    ∃ count data os', os.timedRead fd len timeout = .ok (count, data, os') ∧ data ≠ [] := by
  obtain ⟨most, next⟩ := arrives.head more len
  have positive := List.length_pos_iff.mpr more
  let data := os.incoming.take (min (min len maxTransfer) (most + 1))
  have size : data.length = min (min (min len maxTransfer) (most + 1)) os.incoming.length :=
    List.length_take
  simp only [maxTransfer] at size
  refine ⟨toInt32 data.length, data, { os with
    recvs := os.recvs.tail, incoming := os.incoming.drop data.length
    recvLens := len :: os.recvLens }, ?_, List.length_pos_iff.mp (by omega)⟩
  unfold Os.timedRead
  simp only [if_neg (not_lt.mpr alive), next, if_neg more]
  rfl

/-- `timed_read` never returns only without a timeout, on a stream that its script does not end and
of which nothing is on its way. -/
theorem timedRead_hangs {os : Os π} {fd : Int} {len : Nat} (room : 0 < len) {timeout : Int}
    (hangs : os.timedRead fd len timeout = .error .diverges) :
    timeout < 0 ∧ (0 ≤ fd → ¬ os.Finishes ∧ (os.Arrives → os.incoming = [])) := by
  have forever {waiting : Os π}
      (waits : (waiting.wait timeout >>= fun os => pure ((-1 : Int), ([] : Bytes), os)) =
        .error .diverges) : timeout < 0 := by
    by_contra patient
    rw [wait, if_neg patient] at waits
    cases waits
  have empty (alive : 0 ≤ fd) (arrives : os.Arrives) : os.incoming = [] := by
    by_contra more
    obtain ⟨count, data, os', returns, -⟩ := arrives.timedRead alive room timeout more
    rw [returns] at hangs
    cases hangs
  by_cases closed : fd < 0
  · unfold timedRead at hangs
    simp only [if_pos closed] at hangs
    exact ⟨forever hangs, fun alive => absurd closed (not_lt.mpr alive)⟩
  · suffices timeout < 0 ∧ ¬ os.Finishes from ⟨this.1, fun alive => ⟨this.2, empty alive⟩⟩
    clear empty
    unfold timedRead at hangs
    simp only [if_neg closed] at hangs
    rw [Finishes]
    cases script : os.recvs with
    | nil =>
      refine ⟨?_, id⟩
      simp only [script, List.headD_nil] at hangs
      by_cases nothing : os.incoming = []
      · rw [if_pos nothing] at hangs
        exact forever hangs
      · rw [if_neg nothing] at hangs
        cases hangs
    | cons outcome rest =>
      simp only [script, List.headD_cons] at hangs
      cases outcome with
      | timeout => exact ⟨forever hangs, id⟩
      | failed ec => cases hangs
      | eof => cases hangs
      | chunk most =>
        by_cases nothing : os.incoming = []
        · simp only [if_pos nothing] at hangs
          refine ⟨forever hangs, fun ends => ?_⟩
          have positive := ends.1
          rw [nothing, List.length_nil] at positive
          exact absurd positive (lt_irrefl 0)
        · simp only [if_neg nothing] at hangs
          cases hangs

/-- `timed_read` gives up without bytes only when the stream has ended or not all of it arrives. -/
theorem timedRead_nothing {os os' : Os π} {fd : Int} (alive : 0 ≤ fd) {len : Nat}
    {timeout count : Int} (room : 0 < len)
    (returns : os.timedRead fd len timeout = .ok (count, [], os')) (arrives : os.Arrives) :
    os.incoming = [] := by
  by_contra more
  obtain ⟨count', data, os'', same, some⟩ := arrives.timedRead alive room timeout more
  have both := Except.ok.inj (returns.symm.trans same)
  exact some (congrArg (fun result => result.2.1) both).symm

/-- Bytes that `timed_read` hands over leave the others on their way. -/
theorem timedRead_awaits {os : Os π} {fd : Int} (alive : 0 ≤ fd) {len : Nat} {timeout count : Int}
    {data incoming : Bytes} {lens : List Nat} (some : data ≠ [])
    (shape : os.incoming = data ++ incoming)
    (returns : os.timedRead fd len timeout = .ok (count, data, { os with
      recvs := os.recvs.tail, incoming := incoming, recvLens := lens })) :
    os.Awaits { os with recvs := os.recvs.tail, incoming := incoming, recvLens := lens } := by
  have positive := List.length_pos_iff.mpr some
  have length : os.incoming.length = data.length + incoming.length := by
    rw [shape, List.length_append]
  have more : os.incoming ≠ [] := by
    intro nothing
    rw [nothing, List.length_nil] at length
    omega
  constructor
  · intro finishes
    rw [Finishes] at finishes ⊢
    change EndsBefore os.recvs.tail incoming.length
    unfold timedRead at returns
    simp only [if_neg (not_lt.mpr alive)] at returns
    cases script : os.recvs with
    | nil =>
      rw [script] at finishes
      exact finishes.elim
    | cons outcome rest =>
      rw [script] at finishes
      simp only [script, List.headD_cons] at returns
      cases outcome with
      | chunk most =>
        simp only [if_neg more] at returns
        have taken : os.incoming.take (min (min len maxTransfer) (most + 1)) = data :=
          congrArg (fun result => result.2.1) (Except.ok.inj returns)
        have size := congrArg List.length taken
        rw [List.length_take] at size
        exact finishes.2.mono (by omega)
      | timeout => exact finishes.elim
      | eof =>
        have same := congrArg (fun result => result.2.1) (Except.ok.inj returns)
        exact absurd same.symm some
      | failed ec =>
        have same := congrArg (fun result => result.2.1) (Except.ok.inj returns)
        exact absurd same.symm some
  · intro arrives outcome member
    refine arrives outcome ?_
    change outcome ∈ os.recvs.tail.take incoming.length at member
    cases script : os.recvs with
    | nil => simp [script] at member
    | cons first rest =>
      rw [script, List.tail_cons] at member
      obtain ⟨count, size⟩ := Nat.exists_eq_succ_of_ne_zero (show os.incoming.length ≠ 0 by omega)
      rw [size, List.take_succ_cons]
      exact List.mem_cons_of_mem _
        ((List.take_prefix_take_left (by omega)).subset member)

/-- What `is_open_slow` finds: the outcomes are used up from the front, an open connection leaves
`errno` alone or sets it to `EINTR` or `EAGAIN`, and it is found open if every peek does. -/
theorem isOpenSlowLoop_cases (arrived : Bool) (probes : List PeekOutcome) (errno : Int) :
    (isOpenSlowLoop arrived probes errno).2.2 <:+ probes ∧
    ((isOpenSlowLoop arrived probes errno).1 = true →
      (isOpenSlowLoop arrived probes errno).2.1 = errno ∨
      (isOpenSlowLoop arrived probes errno).2.1 = eintr ∨
      (isOpenSlowLoop arrived probes errno).2.1 = eagain) ∧
    ((∀ peek ∈ probes, peek.isOpen = true) → (isOpenSlowLoop arrived probes errno).1 = true) := by
  have byte : (if arrived then errno else eagain) = errno ∨
      (if arrived then errno else eagain) = eintr ∨
      (if arrived then errno else eagain) = eagain := by
    cases arrived with
    | true => exact Or.inl rfl
    | false => exact Or.inr (Or.inr rfl)
  induction probes generalizing errno with
  | nil => exact ⟨List.suffix_rfl, fun _ => byte, fun _ => rfl⟩
  | cons peek rest ih =>
    have behind : rest <:+ peek :: rest := List.suffix_cons peek rest
    cases peek with
    | byte => exact ⟨behind, fun _ => byte, fun _ => rfl⟩
    | eof =>
      refine ⟨behind, fun found => ?_, fun opens => ?_⟩
      · cases found
      · cases opens .eof List.mem_cons_self
    | failed ec =>
      rw [isOpenSlowLoop]
      by_cases interrupted : ec = eintr
      · -- the peek is repeated, with `EINTR` left in `errno`
        rw [if_pos interrupted]
        obtain ⟨suffix, clean, calm⟩ := ih eintr (by
          cases arrived with
          | true => exact Or.inl rfl
          | false => exact Or.inr (Or.inr rfl))
        refine ⟨suffix.trans behind, fun found => Or.inr ?_, fun opens => ?_⟩
        · rcases clean found with same | other
          · exact Or.inl same
          · exact other
        · exact calm fun peek member => opens peek (List.mem_cons_of_mem _ member)
      · rw [if_neg interrupted]
        refine ⟨behind, fun found => Or.inr (Or.inr (beq_iff_eq.mp found)), fun opens => ?_⟩
        have found := opens _ List.mem_cons_self
        simpa [PeekOutcome.isOpen, interrupted] using found

end Os

namespace TcpClient

variable {π : Type}

/-- The bytes of the current connection not yet consumed: those received, then those to come. -/
def stream (c : TcpClient π) : Bytes := c.buffer.unread ++ c.os.incoming

/-- What every call keeps: a valid buffer, and nothing left of a connection that was closed. -/
structure Valid (c : TcpClient π) : Prop where
  /-- The buffer is valid. -/
  buffer : c.buffer.Valid
  /-- A descriptor is -1 or one that a socket can have. -/
  fd : c.fd = -1 ∨ 0 ≤ c.fd
  /-- Without a connection there are no bytes. -/
  closed : c.fd = -1 → c.stream = []

/-- What a reading call may change: the receiving side and `errno`. -/
structure Receives (c c' : TcpClient π) : Prop where
  /-- Everything else stays. -/
  frame : c' = { c with
    fd := c'.fd
    buffer := c'.buffer
    os := { c.os with
      errno := c'.os.errno
      recvs := c'.os.recvs
      recvLens := c'.os.recvLens
      incoming := c'.os.incoming } }
  /-- The client is valid again. -/
  valid : c'.Valid
  /-- Outcomes are used up from the front. -/
  script : c'.os.recvs <:+ c.os.recvs
  /-- Every new `recv` asks for at least one byte. -/
  asked : (∀ len ∈ c.os.recvLens, 0 < len) → ∀ len ∈ c'.os.recvLens, 0 < len

/-- A reading call that loses the connection: it returns an empty string and closes. -/
structure Loses (c : TcpClient π) (returned : Bytes × Int × TcpClient π) : Prop where
  /-- Only the receiving side has changed. -/
  receives : c.Receives returned.2.2
  /-- The connection is closed. -/
  closed : returned.2.2.fd = -1
  /-- No bytes are returned. -/
  empty : returned.1 = []
  /-- The error code is the thread's `errno`. -/
  code : returned.2.1 = returned.2.2.os.errno
  /-- If bytes are handed over as they arrive, the wait for more of them has timed out. -/
  quiet : c.os.Delivers → returned.2.1 = etimedout

/-- A reading call that returns bytes and keeps the connection. -/
structure Takes (c : TcpClient π) (returned : Bytes × Int × TcpClient π) : Prop where
  /-- Only the receiving side has changed. -/
  receives : c.Receives returned.2.2
  /-- The descriptor stays. -/
  fd : returned.2.2.fd = c.fd
  /-- The call reports success. -/
  code : returned.2.1 = 0
  /-- No system call has failed. -/
  errno : returned.2.2.os.errno = c.os.errno

/-- Receiving nothing changes nothing. -/
theorem Receives.refl {c : TcpClient π} (valid : c.Valid) : c.Receives c where
  frame := rfl
  valid := valid
  script := List.suffix_rfl
  asked := id

/-- Receiving twice is receiving. -/
theorem Receives.trans {c c' c'' : TcpClient π} (left : c.Receives c') (right : c'.Receives c'') :
    c.Receives c'' where
  frame := by
    rw [right.frame, left.frame]
  valid := right.valid
  script := right.script.trans left.script
  asked := right.asked ∘ left.asked

/-- A client that has lost its connection has an empty stream. -/
theorem Loses.stream_nil {c : TcpClient π} {returned : Bytes × Int × TcpClient π}
    (loses : c.Loses returned) : returned.2.2.stream = [] :=
  loses.receives.valid.closed loses.closed

/-- A call that goes on after receiving more loses what its continuation loses. -/
theorem Receives.loses {c c' : TcpClient π} {returned : Bytes × Int × TcpClient π}
    (receives : c.Receives c') (loses : c'.Loses returned) : c.Loses returned where
  receives := receives.trans loses.receives
  closed := loses.closed
  empty := loses.empty
  code := loses.code
  quiet := fun delivers => loses.quiet (delivers.suffix receives.script)

/-- A call that goes on after receiving more takes what its continuation takes. -/
theorem Receives.takes {c c' : TcpClient π} {returned : Bytes × Int × TcpClient π}
    (receives : c.Receives c') (fd : c'.fd = c.fd) (errno : c'.os.errno = c.os.errno)
    (takes : c'.Takes returned) : c.Takes returned where
  receives := receives.trans takes.receives
  fd := takes.fd.trans fd
  code := takes.code
  errno := takes.errno.trans errno

/-- What closing leaves: no descriptor, and nothing received or on its way. -/
theorem close_eq {c : TcpClient π} (empty : c.fd = -1 → c.os.incoming = []) :
    c.close = { c with
      fd := -1, buffer := c.buffer.clear, os := { c.os with incoming := [] } } := by
  by_cases gone : c.fd = -1
  · simp [close, gone, ← empty gone]
  · simp [close, gone, Os.safeClose]

/-- There is no connection behind `close`. -/
theorem close_fd (c : TcpClient π) : c.close.fd = -1 := by
  by_cases gone : c.fd = -1
  · simp [close, gone]
  · simp [close, gone]

/-- Without a connection nothing is on its way. -/
theorem Valid.no_incoming {c : TcpClient π} (valid : c.Valid) (gone : c.fd = -1) :
    c.os.incoming = [] :=
  (List.append_eq_nil_iff.mp (valid.closed gone)).2

/-- A client with an empty buffer and no descriptor is valid if nothing is on its way. -/
theorem closed_valid {c : TcpClient π} (fd : c.fd = -1) (buffer : c.buffer.Valid)
    (unread : c.buffer.unread = []) (incoming : c.os.incoming = []) : c.Valid where
  buffer := buffer
  fd := Or.inl fd
  closed := fun _ => by rw [stream, unread, incoming, List.append_nil]

/-- Closing changes the receiving side only. -/
theorem Valid.close_receives {c : TcpClient π} (valid : c.Valid) :
    c.Receives c.close ∧ c.close.fd = -1 := by
  rw [close_eq valid.no_incoming]
  exact ⟨⟨rfl, closed_valid rfl c.buffer.clear_valid c.buffer.clear_unread rfl, List.suffix_rfl,
    id⟩, rfl⟩

/-- So does a new value in `errno`. -/
theorem Valid.errno_receives {c : TcpClient π} (valid : c.Valid) (errno : Int) :
    c.Receives { c with os := { c.os with errno := errno } } where
  frame := rfl
  valid := ⟨valid.buffer, valid.fd, valid.closed⟩
  script := List.suffix_rfl
  asked := id

/-- The part of a round that both loops share: make room, receive, and go on or give up. -/
def refill (c : TcpClient π) (size : Nat) (timeout : Int)
    (next : Nat → TcpClient π → Except Abort (Bytes × Int × TcpClient π)) :
    Except Abort (Bytes × Int × TcpClient π) := do
  let buffer ← c.buffer.prepare size
  let (count, data, os) ← c.os.timedRead c.fd buffer.freeSize timeout
  let c := { c with buffer := buffer, os := os }
  if count ≤ 0 then
    let c := c.close
    return ([], c.os.errno, c)
  let buffer ← (buffer.fill data).produce count.toNat
  next count.toNat { c with buffer := buffer }

/-- A round of `read_line`. -/
theorem readLineLoop_succ (delim : Bytes) (timeout : Int) (fuel searchOffset : Nat)
    (c : TcpClient π) :
    readLineLoop delim timeout (fuel + 1) searchOffset c =
      match search delim (c.buffer.unread.drop searchOffset) searchOffset with
      | (some position, _) => (c.buffer.consume (position + delim.length)) >>= fun consumed =>
          pure (c.buffer.unread.take (position + delim.length - delim.length), 0,
            { c with buffer := consumed.2 })
      | (none, stop) => c.refill kDefaultBufferSize timeout fun _ c =>
          readLineLoop delim timeout fuel stop c := by
  rw [readLineLoop]
  rcases search delim (c.buffer.unread.drop searchOffset) searchOffset with ⟨_ | position, stop⟩
  · rfl
  · rfl

/-- A round of `read`. -/
theorem readLoop_succ (expect delimSize : Nat) (timeout : Int) (fuel toRead : Nat)
    (c : TcpClient π) :
    readLoop expect delimSize timeout (fuel + 1) toRead c =
      if expect ≤ c.buffer.readSize then
        (c.buffer.consume expect) >>= fun consumed =>
          pure (c.buffer.unread.take (expect - delimSize), 0, { c with buffer := consumed.2 })
      else c.refill toRead timeout fun count c =>
        readLoop expect delimSize timeout fuel ((toRead + 2 ^ 64 - count) % 2 ^ 64) c := by
  rw [readLoop]
  rfl

/-- Consuming received bytes is all that a call on a full enough buffer does. -/
theorem consumed_takes {c : TcpClient π} (valid : c.Valid) {buffer : TcpClientBuffer}
    (bufferValid : buffer.Valid) {size : Nat} (left : buffer.unread = c.buffer.unread.drop size)
    (line : Bytes) : c.Takes (line, 0, { c with buffer := buffer }) where
  receives := by
    refine ⟨rfl, ⟨bufferValid, valid.fd, fun gone => ?_⟩, List.suffix_rfl, id⟩
    obtain ⟨nothing, noMore⟩ := List.append_eq_nil_iff.mp (valid.closed gone)
    rw [stream, left, nothing, noMore, List.drop_nil, List.append_nil]
  fd := rfl
  code := rfl
  errno := rfl

/-- A round in which `timed_read` gives up loses the connection. -/
theorem gives_up_loses {c : TcpClient π} (valid : c.Valid) {buffer : TcpClientBuffer}
    {count : Int} {os : Os π} (room : 0 < buffer.freeSize)
    (up : c.os.GivesUp c.fd buffer.freeSize count os) :
    c.Loses ([], ({ c with buffer := buffer, os := os } : TcpClient π).close.os.errno,
      ({ c with buffer := buffer, os := os } : TcpClient π).close) := by
  obtain ⟨errno, recvLens, rfl⟩ : ∃ errno recvLens, os =
      { c.os with recvs := c.os.recvs.tail, errno := errno, recvLens := recvLens } :=
    ⟨_, _, up.frame⟩
  have asked : recvLens = c.os.recvLens ∨ recvLens = buffer.freeSize :: c.os.recvLens := up.asked
  have quiet : c.os.Delivers → errno = etimedout ∧ _ := up.quiet
  have lens : (∀ len ∈ c.os.recvLens, 0 < len) → ∀ len ∈ recvLens, 0 < len := by
    rcases asked with same | more
    · exact same ▸ id
    · intro positive len member
      rw [more] at member
      rcases List.mem_cons.mp member with rfl | earlier
      · exact room
      · exact positive len earlier
  have shape := close_eq (c := { c with
    buffer := buffer
    os := { c.os with recvs := c.os.recvs.tail, errno := errno, recvLens := recvLens } })
    valid.no_incoming
  rw [shape]
  exact ⟨⟨rfl, closed_valid rfl buffer.clear_valid buffer.clear_unread rfl, List.tail_suffix _,
    lens⟩, rfl, rfl, rfl, fun delivers => (quiet delivers).1⟩

/-- Reading with this timeout ends, on this connection, whatever it waits for. -/
def Prompt (c : TcpClient π) (timeout : Int) : Prop :=
  0 ≤ timeout ∨ (0 ≤ c.fd ∧ c.os.Finishes)

/-- A connection that stays open is as prompt as before. -/
theorem Prompt.awaits {c c' : TcpClient π} {timeout : Int} (prompt : c.Prompt timeout)
    (awaits : c.os.Awaits c'.os) (fd : c'.fd = c.fd) : c'.Prompt timeout :=
  prompt.imp_right fun ⟨alive, finishes⟩ => ⟨fd ▸ alive, awaits.finishes finishes⟩

/-- What a refill can do. It does not return, or loses the connection, in both cases only when no
bytes are on their way or too many are asked for; otherwise some of the bytes move into the
buffer. -/
theorem refill_cases {c : TcpClient π} (valid : c.Valid) (size : Nat) (some : 0 < size)
    (word : c.buffer.readSize + size < 2 ^ 64) (timeout : Int)
    (next : Nat → TcpClient π → Except Abort (Bytes × Int × TcpClient π)) :
    (∃ abort, c.refill size timeout next = .error abort ∧ abort.Unfinished ∧
      (2 ^ 62 ≤ c.buffer.readSize + size ∨
        (¬ c.Prompt timeout ∧ (c.os.Arrives → c.os.incoming = [])))) ∨
    (∃ returned, c.refill size timeout next = .ok returned ∧ c.Loses returned ∧
      (c.os.Arrives → c.os.incoming = []) ∧
      (c.buffer.totalSize ≤ 2 ^ 61 → c.buffer.readSize + size < 2 ^ 62)) ∨
    (∃ data c', c.refill size timeout next = next data.length c' ∧ c.Receives c' ∧
      c'.fd = c.fd ∧ c'.os.errno = c.os.errno ∧ data ≠ [] ∧
      c'.buffer.unread = c.buffer.unread ++ data ∧ c.os.incoming = data ++ c'.os.incoming ∧
      c.os.Awaits c'.os ∧ c.buffer.Grows (c.buffer.readSize + size) c'.buffer) := by
  rcases TcpClientBuffer.prepare_cases valid.buffer size false word with
    ⟨abort, aborts, unfinished, large⟩ | ⟨buffer, prepared, bufferValid, same, room, grows⟩
  · refine Or.inl ⟨abort, ?_, unfinished, Or.inl large⟩
    rw [refill, aborts]
    rfl
  · have arrived : (0 ≤ c.fd → c.os.incoming = []) → c.os.incoming = [] := by
      intro nothing
      rcases valid.fd with gone | alive
      · exact valid.no_incoming gone
      · exact nothing alive
    rcases Os.timedRead_cases c.os c.fd (show 0 < buffer.freeSize by omega) timeout with
      ⟨waits, quiet⟩ | ⟨count, os, returns, up⟩ | ⟨data, incoming, returns, alive, more, fits, shape⟩
    · obtain ⟨forever, open_⟩ := Os.timedRead_hangs (by omega) waits
      refine Or.inl ⟨.diverges, ?_, .diverges, Or.inr ⟨fun prompt => ?_, fun arrives =>
        arrived fun alive => (open_ alive).2 arrives⟩⟩
      · rw [refill, prepared]
        change (Os.timedRead c.os c.fd buffer.freeSize timeout >>= _) = _
        rw [waits]
        rfl
      · rcases prompt with patient | ⟨alive, finishes⟩
        · exact absurd forever (not_lt.mpr patient)
        · exact (open_ alive).1 finishes
    · refine Or.inr (Or.inl ⟨_, ?_, gives_up_loses valid (by omega) up, fun arrives =>
        arrived fun alive => Os.timedRead_nothing alive (by omega) returns arrives, grows.word⟩)
      rw [refill, prepared]
      change (Os.timedRead c.os c.fd buffer.freeSize timeout >>= _) = _
      rw [returns]
      change (if count ≤ 0 then _ else _) = _
      rw [if_pos up.count]
      rfl
    · obtain ⟨filled, produced, filledValid, contents, total⟩ :=
        TcpClientBuffer.produce_fill bufferValid fits
      refine Or.inr (Or.inr ⟨data, { c with buffer := filled, os := { c.os with
        recvs := c.os.recvs.tail, incoming := incoming,
        recvLens := buffer.freeSize :: c.os.recvLens } }, ?_, ⟨rfl, ⟨filledValid, Or.inr alive, ?_⟩,
          List.tail_suffix _, ?_⟩, rfl, rfl, more, same ▸ contents, shape,
          Os.timedRead_awaits alive more shape returns, grows.word, fun small few => ?_⟩)
      · rw [refill, prepared]
        change (Os.timedRead c.os c.fd buffer.freeSize timeout >>= _) = _
        rw [returns]
        have positive : ¬ (data.length : Int) ≤ 0 := by
          have := List.length_pos_iff.mpr more
          omega
        change (if (data.length : Int) ≤ 0 then _ else _) = _
        rw [if_neg positive]
        change ((buffer.fill data).produce data.length >>= _) = _
        rw [produced]
        rfl
      · intro gone
        rw [gone] at alive
        exact absurd alive (by decide)
      · intro positive len member
        rcases List.mem_cons.mp member with rfl | earlier
        · omega
        · exact positive len earlier
      · change filled.totalSize ≤ _
        rw [total]
        exact grows.small small few

/-- What the inner loop of `read_line` finds. -/
inductive Searched (delim stream : Bytes) : Option Nat × Nat → Prop
  /-- The first occurrence of the delimiter. -/
  | found {position stop : Nat} (absent : Delimited.Absent delim stream position)
      (occurs : delim <+: stream.drop position) (inside : position ≤ stream.length) :
      Searched delim stream (some position, stop)
  /-- No occurrence; the search goes on where one could still begin. -/
  | missing {stop : Nat} (absent : Delimited.Absent delim stream stop)
      (resume : stop = 0 ∨ stop + delim.length ≤ stream.length + 1)
      (whole : stream.length < stop + delim.length) : Searched delim stream (none, stop)

/-- The inner loop goes on from an offset up to which there is no occurrence. -/
theorem search_searched (delim before bytes : Bytes)
    (absent : Delimited.Absent delim (before ++ bytes) before.length)
    (resume : before = [] ∨ delim.length ≤ bytes.length + 1) (nonempty : delim ≠ []) :
    Searched delim (before ++ bytes) (search delim bytes before.length) := by
  have positive := List.length_pos_iff.mpr nonempty
  induction bytes generalizing before with
  | nil =>
    rw [search, if_neg nonempty]
    refine .missing absent ?_ (by simpa using positive)
    rcases resume with rfl | short
    · exact Or.inl rfl
    · refine Or.inr ?_
      rw [List.append_nil]
      simp only [List.length_nil] at short
      omega
  | cons byte bytes ih =>
    rw [search]
    split
    · rename_i short
      refine .missing absent ?_ (by simpa [List.length_append] using short)
      rcases resume with rfl | long
      · exact Or.inl rfl
      · refine Or.inr ?_
        simp only [List.length_append]
        omega
    · rename_i long
      split
      · rename_i occurs
        refine .found absent ?_ (by simp)
        rw [List.drop_left]
        exact List.isPrefixOf_iff_prefix.mp occurs
      · rename_i other
        have here : ¬ delim <+: (before ++ byte :: bytes).drop before.length := by
          rw [List.drop_left]
          exact fun occurs => other (List.isPrefixOf_iff_prefix.mpr occurs)
        have step := ih (before ++ [byte])
        rw [List.append_assoc, List.length_append] at step
        refine step (absent.succ here) (Or.inr ?_)
        simp only [List.length_cons] at long
        omega

/-- So it does where the last search has stopped. -/
theorem search_from {delim unread : Bytes} (nonempty : delim ≠ []) {searchOffset : Nat}
    (absent : Delimited.Absent delim unread searchOffset)
    (resume : searchOffset = 0 ∨ searchOffset + delim.length ≤ unread.length + 1) :
    Searched delim unread (search delim (unread.drop searchOffset) searchOffset) := by
  have offset : searchOffset ≤ unread.length := by
    have positive := List.length_pos_iff.mpr nonempty
    omega
  have front : (unread.take searchOffset).length = searchOffset := by
    rw [List.length_take, Nat.min_eq_left offset]
  have whole := search_searched delim (unread.take searchOffset) (unread.drop searchOffset)
  rw [List.take_append_drop, front, List.length_drop] at whole
  refine whole absent ?_ nonempty
  rcases resume with rfl | inside
  · exact Or.inl rfl
  · exact Or.inr (by omega)

/-- A delimiter inside a longer piece of the stream is found by looking at that piece only. -/
theorem absent_bound {delim unread incoming piece rest : Bytes} {stop : Nat}
    (absent : Delimited.Absent delim unread stop) (whole : unread.length < stop + delim.length)
    (splits : Delimited.Splits delim (unread ++ incoming) piece rest) :
    unread.length < piece.length + delim.length := by
  by_contra inside
  refine absent piece.length (by omega) ?_
  have occurs := splits.occurs
  rw [List.drop_append_of_le_length (by omega)] at occurs
  refine List.prefix_of_prefix_length_le occurs (List.prefix_append _ incoming) ?_
  rw [List.length_drop]
  omega

/-- What `read_line` does: the first piece of the stream is taken off, unless there is none or it
does not fit into memory. -/
theorem readLineLoop_cases {delim : Bytes} (nonempty : delim ≠ []) (timeout : Int) {fuel : Nat}
    (searchOffset : Nat) {c : TcpClient π} (valid : c.Valid)
    (absent : Delimited.Absent delim c.buffer.unread searchOffset)
    (resume : searchOffset = 0 ∨ searchOffset + delim.length ≤ c.buffer.unread.length + 1)
    (enough : c.os.incoming.length < fuel) :
    (∃ abort, readLineLoop delim timeout fuel searchOffset c = .error abort ∧ abort.Unfinished ∧
      (c.os.Arrives → ∀ piece rest, Delimited.Splits delim c.stream piece rest →
        2 ^ 62 < piece.length + delim.length + kDefaultBufferSize) ∧
      (c.Prompt timeout → 2 ^ 62 ≤ c.stream.length + kDefaultBufferSize)) ∨
    (∃ returned, readLineLoop delim timeout fuel searchOffset c = .ok returned ∧
      c.Loses returned ∧
      (c.os.Arrives → ∀ piece rest, ¬ Delimited.Splits delim c.stream piece rest)) ∨
    (∃ returned, readLineLoop delim timeout fuel searchOffset c = .ok returned ∧
      c.Takes returned ∧ Delimited.Splits delim c.stream returned.1 returned.2.2.stream ∧
      c.os.Awaits returned.2.2.os ∧ (c.buffer.totalSize ≤ 2 ^ 61 →
        returned.1.length + delim.length + kDefaultBufferSize < 2 ^ 61 →
        returned.2.2.buffer.totalSize ≤ 2 ^ 61)) := by
  induction fuel generalizing searchOffset c with
  | zero => omega
  | succ fuel ih =>
    have searched := search_from nonempty absent resume
    rw [readLineLoop_succ]
    revert searched
    generalize search delim (c.buffer.unread.drop searchOffset) searchOffset = result
    rintro (⟨first, occurs, inside⟩ | ⟨first, again, whole⟩)
    · rename_i position stop
      have within := occurs.length_le
      rw [List.length_drop] at within
      have positive := List.length_pos_iff.mpr nonempty
      obtain ⟨buffer, consumed, bufferValid, left, kept⟩ :=
        TcpClientBuffer.consume_ok valid.buffer (position + delim.length) (by omega) (by omega)
      have splits := (first.splits occurs inside).append c.os.incoming
      refine Or.inr (Or.inr ⟨(c.buffer.unread.take position, 0, { c with buffer := buffer }), ?_,
        consumed_takes valid bufferValid left _, ?_, .refl _, fun total _ => kept.le.trans total⟩)
      · change (c.buffer.consume (position + delim.length) >>= _) = _
        rw [consumed, Nat.add_sub_cancel]
        rfl
      · rw [stream, stream, left]
        exact splits
    · rename_i stop
      have unreadLength := valid.buffer.length_unread
      have readSize : c.buffer.readSize ≤ 2 ^ 63 := by
        have inside := valid.buffer.inside
        have large := valid.buffer.le
        rw [TcpClientBuffer.readSize]
        omega
      have none : c.os.incoming = [] →
          ∀ piece rest, ¬ Delimited.Splits delim c.stream piece rest := by
        intro empty piece rest splits
        have bound := absent_bound first whole splits
        have size := congrArg List.length splits.eq
        simp only [stream, empty, List.length_append, List.length_nil] at size
        omega
      rcases refill_cases valid kDefaultBufferSize (by decide)
          (by simp only [kDefaultBufferSize]; omega) timeout
          (fun _ c => readLineLoop delim timeout fuel stop c) with
        ⟨abort, waits, unfinished, reason⟩ | ⟨returned, returns, loses, quiet, -⟩ |
        ⟨data, c', goes, receives, fd, errno, more, unread, incoming, awaits, grows⟩
      · refine Or.inl ⟨abort, waits, unfinished, fun arrives piece rest splits => ?_,
          fun prompt => ?_⟩
        · rcases reason with large | ⟨-, quiet⟩
          · have bound := absent_bound first whole splits
            omega
          · exact absurd splits (none (quiet arrives) piece rest)
        · have large := reason.resolve_right fun slow => slow.1 prompt
          rw [stream, List.length_append]
          omega
      · exact Or.inr (Or.inl ⟨returned, returns, loses, fun arrives => none (quiet arrives)⟩)
      · have same : c.stream = c'.stream := by
          rw [stream, stream, unread, incoming, List.append_assoc]
        have arrived := congrArg List.length incoming
        rw [List.length_append] at arrived
        have positive := List.length_pos_iff.mpr more
        change (∃ abort, c.refill kDefaultBufferSize timeout _ = _ ∧ _) ∨
          (∃ returned, c.refill kDefaultBufferSize timeout _ = _ ∧ _) ∨
          (∃ returned, c.refill kDefaultBufferSize timeout _ = _ ∧ _)
        rw [goes, same]
        rcases ih stop receives.valid
            (by
              rw [unread]
              rcases again with rfl | inside
              · exact Delimited.absent_zero delim _
              · exact first.append inside data)
            (by
              rw [unread, List.length_append]
              omega)
            (by omega) with
          ⟨abort, waits, unfinished, reason, slow⟩ | ⟨returned, returns, loses, quiet⟩ |
          ⟨returned, returns, takes, splits, later, small⟩
        · exact Or.inl ⟨abort, waits, unfinished, fun all => reason (awaits.arrives all),
            fun prompt => slow (prompt.awaits awaits fd)⟩
        · exact Or.inr (Or.inl ⟨returned, returns, receives.loses loses,
            fun all => quiet (awaits.arrives all)⟩)
        · refine Or.inr (Or.inr ⟨returned, returns, receives.takes fd errno takes, splits,
            awaits.trans later, fun total short => small (grows.small total ?_) short⟩)
          have bound := absent_bound first whole (same ▸ splits)
          omega

/-- What `read_line` does on a valid client, and what it keeps of the way in which the stream
ends. -/
theorem readLine_ends {c : TcpClient π} (valid : c.Valid) (delim : Bytes) (nonempty : delim ≠ [])
    (timeout : Int) :
    (∃ abort, c.readLine delim timeout = .error abort ∧ abort.Unfinished ∧
      (c.os.Arrives → ∀ piece rest, Delimited.Splits delim c.stream piece rest →
        2 ^ 62 < piece.length + delim.length + kDefaultBufferSize) ∧
      (c.Prompt timeout → 2 ^ 62 ≤ c.stream.length + kDefaultBufferSize)) ∨
    (∃ returned, c.readLine delim timeout = .ok returned ∧ c.Loses returned ∧
      (c.os.Arrives → ∀ piece rest, ¬ Delimited.Splits delim c.stream piece rest)) ∨
    (∃ returned, c.readLine delim timeout = .ok returned ∧
      c.Takes returned ∧ Delimited.Splits delim c.stream returned.1 returned.2.2.stream ∧
      c.os.Awaits returned.2.2.os ∧ (c.buffer.totalSize ≤ 2 ^ 61 →
        returned.1.length + delim.length + kDefaultBufferSize < 2 ^ 61 →
        returned.2.2.buffer.totalSize ≤ 2 ^ 61)) :=
  readLineLoop_cases nonempty timeout 0 valid (Delimited.absent_zero delim _) (Or.inl rfl)
    (Nat.lt_succ_self _)

/-- What `read_line` does on a valid client. -/
theorem readLine_cases {c : TcpClient π} (valid : c.Valid) (delim : Bytes) (nonempty : delim ≠ [])
    (timeout : Int) :
    (∃ abort, c.readLine delim timeout = .error abort ∧ abort.Unfinished ∧
      (c.os.Delivers → ∀ piece rest, Delimited.Splits delim c.stream piece rest →
        2 ^ 62 < piece.length + delim.length + kDefaultBufferSize)) ∨
    (∃ returned, c.readLine delim timeout = .ok returned ∧ c.Loses returned ∧
      (c.os.Delivers → ∀ piece rest, ¬ Delimited.Splits delim c.stream piece rest)) ∨
    (∃ returned, c.readLine delim timeout = .ok returned ∧
      c.Takes returned ∧ Delimited.Splits delim c.stream returned.1 returned.2.2.stream) := by
  rcases readLine_ends valid delim nonempty timeout with
    ⟨abort, waits, unfinished, reason, -⟩ | ⟨returned, returns, loses, quiet⟩ |
    ⟨returned, returns, takes, splits, -⟩
  · exact Or.inl ⟨abort, waits, unfinished, fun delivers => reason delivers.arrives⟩
  · exact Or.inr (Or.inl ⟨returned, returns, loses, fun delivers => quiet delivers.arrives⟩)
  · exact Or.inr (Or.inr ⟨returned, returns, takes, splits⟩)

/-- Bytes taken by their number: so many bytes, then as many as a delimiter has. -/
structure Counted (size ends : Nat) (stream taken rest : Bytes) : Prop where
  /-- The stream is the bytes taken, the ones dropped and the rest. -/
  eq : ∃ dropped, dropped.length = ends ∧ stream = taken ++ dropped ++ rest
  /-- As many bytes are taken as were asked for. -/
  size : taken.length = size

/-- What `read` does: it takes the bytes asked for and drops as many as the delimiter has, unless
the stream is shorter or they do not fit into memory. -/
theorem readLoop_cases {size ends : Nat} (positive : 0 < size + ends)
    (small : size + ends < 2 ^ 64) (timeout : Int) {fuel : Nat} (toRead : Nat) {c : TcpClient π}
    (valid : c.Valid)
    (counts : c.buffer.readSize < size + ends → toRead = size + ends - c.buffer.readSize)
    (enough : c.os.incoming.length < fuel) :
    (∃ abort, readLoop (size + ends) ends timeout fuel toRead c = .error abort ∧
      abort.Unfinished ∧
      (c.os.Arrives → size + ends < 2 ^ 62 → c.stream.length < size + ends) ∧
      (c.Prompt timeout → 2 ^ 62 ≤ size + ends)) ∨
    (∃ returned, readLoop (size + ends) ends timeout fuel toRead c = .ok returned ∧
      c.Loses returned ∧ (c.os.Arrives → c.stream.length < size + ends) ∧
      (c.buffer.totalSize ≤ 2 ^ 61 → size + ends < 2 ^ 62)) ∨
    (∃ returned, readLoop (size + ends) ends timeout fuel toRead c = .ok returned ∧
      c.Takes returned ∧ Counted size ends c.stream returned.1 returned.2.2.stream ∧
      c.os.Awaits returned.2.2.os ∧ c.buffer.Grows (size + ends) returned.2.2.buffer) := by
  induction fuel generalizing toRead c with
  | zero => omega
  | succ fuel ih =>
    have unreadLength := valid.buffer.length_unread
    rw [readLoop_succ]
    by_cases ready : size + ends ≤ c.buffer.readSize
    · simp only [if_pos ready]
      obtain ⟨buffer, consumed, bufferValid, left, kept⟩ :=
        TcpClientBuffer.consume_ok valid.buffer (size + ends) positive (by omega)
      have inside := valid.buffer.inside
      have received : c.buffer.readSize ≤ c.buffer.totalSize := by
        rw [TcpClientBuffer.readSize, TcpClientBuffer.totalSize]
        omega
      refine Or.inr (Or.inr ⟨(c.buffer.unread.take size, 0, { c with buffer := buffer }), ?_,
        consumed_takes valid bufferValid left _, ?_, .refl _,
        fun total => by omega, fun total _ => kept.le.trans total⟩)
      · rw [consumed, Nat.add_sub_cancel]
        rfl
      · refine ⟨⟨(c.buffer.unread.drop size).take ends, ?_, ?_⟩, ?_⟩
        · rw [List.length_take, List.length_drop]
          omega
        · rw [stream, stream, left, ← List.append_assoc, List.append_assoc _ _ (List.drop _ _),
            ← List.drop_drop, List.take_append_drop, List.take_append_drop]
        · rw [List.length_take]
          omega
    · simp only [if_neg ready]
      have remaining := counts (by omega)
      have wanted : c.buffer.readSize + toRead = size + ends := by omega
      have none : c.os.incoming = [] → c.stream.length < size + ends := by
        intro empty
        rw [stream, empty, List.append_nil]
        omega
      rcases refill_cases valid toRead (by omega) (by omega) timeout
          (fun count c => readLoop (size + ends) ends timeout fuel
            ((toRead + 2 ^ 64 - count) % 2 ^ 64) c) with
        ⟨abort, waits, unfinished, reason⟩ | ⟨returned, returns, loses, quiet, word⟩ |
        ⟨data, c', goes, receives, fd, errno, more, unread, incoming, awaits, grows⟩
      · refine Or.inl ⟨abort, waits, unfinished, fun arrives fits => ?_, fun prompt => ?_⟩
        · rcases reason with large | ⟨-, quiet⟩
          · omega
          · exact none (quiet arrives)
        · have large := reason.resolve_right fun slow => slow.1 prompt
          omega
      · exact Or.inr (Or.inl ⟨returned, returns, loses, fun arrives => none (quiet arrives),
          fun total => wanted ▸ word total⟩)
      · have same : c.stream = c'.stream := by
          rw [stream, stream, unread, incoming, List.append_assoc]
        have arrived := congrArg List.length incoming
        rw [List.length_append] at arrived
        have dataPositive := List.length_pos_iff.mpr more
        rw [wanted] at grows
        have readSize : c'.buffer.readSize = c.buffer.readSize + data.length := by
          rw [← receives.valid.buffer.length_unread, unread, List.length_append, unreadLength]
        rw [goes, same]
        rcases ih ((toRead + 2 ^ 64 - data.length) % 2 ^ 64) receives.valid
            (by omega) (by omega) with
          ⟨abort, waits, unfinished, reason, slow⟩ | ⟨returned, returns, loses, quiet, -⟩ |
          ⟨returned, returns, takes, counted, later, further⟩
        · exact Or.inl ⟨abort, waits, unfinished, fun all => reason (awaits.arrives all),
            fun prompt => slow (prompt.awaits awaits fd)⟩
        · exact Or.inr (Or.inl ⟨returned, returns, receives.loses loses,
            fun all => quiet (awaits.arrives all), grows.word⟩)
        · exact Or.inr (Or.inr ⟨returned, returns, receives.takes fd errno takes, counted,
            awaits.trans later, grows.word,
            fun total few => further.small (grows.small total few) few⟩)

/-- What `read` does on a valid client, and what it keeps of the way in which the stream ends. -/
theorem read_ends {c : TcpClient π} (valid : c.Valid) {size : Nat} (delim : Bytes)
    (positive : 0 < size) (small : size + delim.length < 2 ^ 64) (timeout : Int) :
    (∃ abort, c.read size delim timeout = .error abort ∧ abort.Unfinished ∧
      (c.os.Arrives → size + delim.length < 2 ^ 62 → c.stream.length < size + delim.length) ∧
      (c.Prompt timeout → 2 ^ 62 ≤ size + delim.length)) ∨
    (∃ returned, c.read size delim timeout = .ok returned ∧ c.Loses returned ∧
      (c.os.Arrives → c.stream.length < size + delim.length) ∧
      (c.buffer.totalSize ≤ 2 ^ 61 → size + delim.length < 2 ^ 62)) ∨
    (∃ returned, c.read size delim timeout = .ok returned ∧
      c.Takes returned ∧ Counted size delim.length c.stream returned.1 returned.2.2.stream ∧
      c.os.Awaits returned.2.2.os ∧
      c.buffer.Grows (size + delim.length) returned.2.2.buffer) := by
  have word : (size + delim.length) % 2 ^ 64 = size + delim.length :=
    Nat.mod_eq_of_lt (by omega)
  rw [read, word]
  refine readLoop_cases (by omega) small timeout _ valid ?_ (Nat.lt_succ_self _)
  intro below
  omega

/-- What `read` does on a valid client. -/
theorem read_cases {c : TcpClient π} (valid : c.Valid) {size : Nat} (delim : Bytes)
    (positive : 0 < size) (small : size + delim.length < 2 ^ 64) (timeout : Int) :
    (∃ abort, c.read size delim timeout = .error abort ∧ abort.Unfinished ∧
      (c.os.Delivers → size + delim.length < 2 ^ 62 → c.stream.length < size + delim.length)) ∨
    (∃ returned, c.read size delim timeout = .ok returned ∧ c.Loses returned ∧
      (c.os.Delivers → c.stream.length < size + delim.length)) ∨
    (∃ returned, c.read size delim timeout = .ok returned ∧
      c.Takes returned ∧ Counted size delim.length c.stream returned.1 returned.2.2.stream) := by
  rcases read_ends valid delim positive small timeout with
    ⟨abort, waits, unfinished, reason, -⟩ | ⟨returned, returns, loses, quiet, -⟩ |
    ⟨returned, returns, takes, counted, -⟩
  · exact Or.inl ⟨abort, waits, unfinished, fun delivers => reason delivers.arrives⟩
  · exact Or.inr (Or.inl ⟨returned, returns, loses, fun delivers => quiet delivers.arrives⟩)
  · exact Or.inr (Or.inr ⟨returned, returns, takes, counted⟩)

/-- What `connect` does: it closes the old connection and fails, or opens a new one, on which only
what the peer sends at once is on its way. -/
theorem connect_cases [Peer π] {c : TcpClient π} (valid : c.Valid) :
    (∃ ec, c.connect = (ec, { c with
        fd := -1
        buffer := c.buffer.clear
        os := { c.os with incoming := [], connects := c.os.connects.tail, errno := ec } })) ∨
    (∃ fd : Nat, ∃ errno now ticks, c.connect = (0, { c with
        fd := fd
        buffer := c.buffer.clear
        lastCheckOpenTime := now
        os := { c.os with
          incoming := (Peer.accept c.os.peer).1
          peer := (Peer.accept c.os.peer).2
          connects := c.os.connects.tail
          errno := errno
          clock := now
          ticks := ticks } })) := by
  rw [connect, close_eq valid.no_incoming]
  cases outcome : c.os.connects.headD (.opened 3 true) with
  | failed ec =>
    refine Or.inl ⟨ec, ?_⟩
    simp only [Os.connect, outcome]
  | opened fd inProgress =>
    refine Or.inr ⟨fd, if inProgress then einprogress else c.os.errno,
      c.os.clock + c.os.ticks.headD 0, c.os.ticks.tail, ?_⟩
    simp only [Os.connect, outcome, Os.time]

/-- A client is valid after `connect`. -/
theorem connect_valid [Peer π] {c : TcpClient π} (valid : c.Valid) : c.connect.2.Valid := by
  rcases connect_cases valid with ⟨ec, fails⟩ | ⟨fd, errno, now, ticks, opens⟩
  · rw [fails]
    exact closed_valid rfl c.buffer.clear_valid c.buffer.clear_unread rfl
  · rw [opens]
    refine ⟨c.buffer.clear_valid, Or.inr (Int.natCast_nonneg fd), fun gone => ?_⟩
    have alive : (fd : Int) ≠ -1 := by omega
    exact absurd gone alive

/-- What `is_open` finds, the clock and the peeks that it takes to find it, and the `errno` that it
leaves. An open connection leaves no error of a conversion. -/
theorem isOpen_cases (c : TcpClient π) :
    ∃ isOpen last clock ticks probes errno, c.isOpen = (isOpen, { c with
        lastCheckOpenTime := last
        os := { c.os with clock := clock, ticks := ticks, probes := probes, errno := errno } }) ∧
      probes <:+ c.os.probes ∧
      (isOpen = true → c.fd ≠ -1 ∧ (errno = c.os.errno ∨ errno = eintr ∨ errno = eagain)) ∧
      (c.fd ≠ -1 → (∀ peek ∈ c.os.probes, peek.isOpen = true) → isOpen = true) := by
  by_cases closed : c.fd = -1
  · exact ⟨false, _, _, _, _, _, if_pos closed, List.suffix_rfl, by simp, absurd closed⟩
  · rw [isOpen, if_neg closed]
    by_cases due : c.os.clock + c.os.ticks.headD 0 - c.lastCheckOpenTime > kCheckOpenInterval
    · have looks := Os.isOpenSlowLoop_cases (!c.os.incoming.isEmpty) c.os.probes c.os.errno
      exact ⟨_, _, _, _, _, _, if_pos due, looks.1, fun found => ⟨closed, looks.2.1 found⟩,
        fun _ => looks.2.2⟩
    · exact ⟨true, _, _, _, _, _, if_neg due, List.suffix_rfl, fun _ => ⟨closed, Or.inl rfl⟩,
        fun _ _ => rfl⟩

end TcpClient

end LibRedis
