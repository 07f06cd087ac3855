import LibRedis.Request
import LibRedis.SocketCalls

/-!
# What a write has sent

`TcpClient::Impl::write` over the calls of `poll` and `send` that it makes. The bytes that `send`
accepts are a prefix of the line in every case; whether the code that `write` returns tells if they
are the whole line depends on the length, which is narrowed to an `int`, and on a `send` that
returns zero, after which `errno` is zero as well.
-/

namespace LibRedis

namespace Sys

/-- A `send` returns zero before so many bytes are accepted, and nothing has failed before. -/
inductive ReturnsZero : List Call → Nat → Prop
  /-- This `send` returns zero. -/
  | zero {waits later : List Call} {len : Nat} (ready : ReadyAgain waits) (some : 0 < len) :
    ReturnsZero (waits ++ .send (.done 0) :: later) len
  /-- This `send` accepts some of the bytes. -/
  | sent {waits later : List Call} {len count : Nat} (ready : ReadyAgain waits) (some : 0 < count)
    (rest : ReturnsZero later (len - count)) :
    ReturnsZero (waits ++ .send (.done count) :: later) len
  /-- This `send` is interrupted. -/
  | interrupted {waits later : List Call} {len : Nat} (ready : ReadyAgain waits)
    (rest : ReturnsZero later len) : ReturnsZero (waits ++ .send (.failed eintr) :: later) len

/-- So many bytes are accepted, and nothing has failed before. -/
inductive AcceptsAll : List Call → Nat → Prop
  /-- There is nothing to accept. -/
  | nothing (calls : List Call) : AcceptsAll calls 0
  /-- This `send` accepts some of the bytes. -/
  | sent {waits later : List Call} {len count : Nat} (ready : ReadyAgain waits) (some : 0 < count)
    (rest : AcceptsAll later (len - count)) :
    AcceptsAll (waits ++ .send (.done count) :: later) len
  /-- This `send` is interrupted. -/
  | interrupted {waits later : List Call} {len : Nat} (ready : ReadyAgain waits)
    (rest : AcceptsAll later len) : AcceptsAll (waits ++ .send (.failed eintr) :: later) len

/-- What waiting leaves of a sequence. -/
theorem ReadyAgain.unique {waits waits' later later' : List Call} {call call' : Call}
    (ready : ReadyAgain waits) (ready' : ReadyAgain waits')
    (same : waits ++ call :: later = waits' ++ call' :: later') :
    call = call' ∧ later = later' := by
  induction ready generalizing waits' with
  | found =>
    cases ready' with
    | found =>
      have rest := (List.cons.inj same).2
      exact ⟨(List.cons.inj rest).1, (List.cons.inj rest).2⟩
    | interrupted later => cases (List.cons.inj same).1
  | interrupted later ih =>
    cases ready' with
    | found => cases (List.cons.inj same).1
    | interrupted later' => exact ih later' (List.cons.inj same).2

/-- Waiting that finds the descriptor ready has taken such calls. -/
theorem pollFor_ready {calls later : List Call} {errno errno' : Int}
    (waits : pollFor calls errno = some ⟨1, errno', later⟩) :
    ∃ waited, ReadyAgain waited ∧ calls = waited ++ later := by
  have retries : retryPoll calls errno = some ⟨1, errno', later⟩ := by
    obtain ⟨found, polls, same⟩ := Option.bind_eq_some_iff.mp waits
    split at same
    · rename_i ended
      have wrong : (0 : Int) = 1 := by
        rw [← ended]
        exact congrArg Returned.ret (Option.some.inj same)
      cases wrong
    · rw [polls]
      exact same
  clear waits
  fun_induction retryPoll calls errno with
  | case1 calls errno ih =>
    obtain ⟨waited, ready, rfl⟩ := ih retries
    exact ⟨.poll (.failed eintr) :: waited, .interrupted ready, rfl⟩
  | case2 ec calls errno other =>
    have wrong : (-1 : Int) = 1 := congrArg Returned.ret (Option.some.inj retries)
    cases wrong
  | case3 ready calls errno =>
    cases ready with
    | true =>
      have same : calls = later := congrArg Returned.calls (Option.some.inj retries)
      subst same
      exact ⟨[.poll (.done true)], .found, rfl⟩
    | false =>
      have wrong : (0 : Int) = 1 := congrArg Returned.ret (Option.some.inj retries)
      cases wrong
  | case4 => cases retries

/-- Waiting that ends otherwise leaves an error. -/
theorem pollFor_reports {calls : List Call} (reported : ∀ ec, .poll (.failed ec) ∈ calls → ec ≠ 0)
    {errno : Int} {polled : Returned} (waits : pollFor calls errno = some polled)
    (notReady : polled.ret ≠ 1) : polled.errno ≠ 0 := by
  obtain ⟨found, polls, same⟩ := Option.bind_eq_some_iff.mp waits
  split at same
  · cases same
    exact show etimedout ≠ 0 by decide
  · rename_i notOver
    cases same
    clear waits
    fun_induction retryPoll calls errno with
    | case1 calls errno ih =>
      exact ih (fun ec member => reported ec (List.mem_cons_of_mem _ member)) polls
    | case2 ec calls errno other =>
      cases polls
      exact reported ec List.mem_cons_self
    | case3 ready calls errno =>
      cases polls
      cases ready with
      | true => exact absurd rfl notReady
      | false => exact absurd rfl notOver
    | case4 => cases polls

/-- What a sequence with a ready descriptor accepts depends on the call behind. -/
theorem acceptsAll_front {waits later : List Call} (ready : ReadyAgain waits) {call : Call}
    {len : Nat} (some : 0 < len) : AcceptsAll (waits ++ call :: later) len ↔
      (∃ count, 0 < count ∧ call = .send (.done count) ∧ AcceptsAll later (len - count)) ∨
      call = .send (.failed eintr) ∧ AcceptsAll later len := by
  constructor
  · intro accepts
    generalize whole : waits ++ call :: later = calls at accepts
    cases accepts with
    | nothing => omega
    | sent ready' some' rest =>
      obtain ⟨rfl, rfl⟩ := ready.unique ready' whole
      exact Or.inl ⟨_, some', rfl, rest⟩
    | interrupted ready' rest =>
      obtain ⟨rfl, rfl⟩ := ready.unique ready' whole
      exact Or.inr ⟨rfl, rest⟩
  · rintro (⟨count, some', rfl, rest⟩ | ⟨rfl, rest⟩)
    · exact .sent ready some' rest
    · exact .interrupted ready rest

/-- Whether a `send` returns zero depends on the call behind in the same way. -/
theorem returnsZero_front {waits later : List Call} (ready : ReadyAgain waits) {call : Call}
    {len : Nat} (some : 0 < len) : ReturnsZero (waits ++ call :: later) len ↔
      call = .send (.done 0) ∨
      (∃ count, 0 < count ∧ call = .send (.done count) ∧ ReturnsZero later (len - count)) ∨
      call = .send (.failed eintr) ∧ ReturnsZero later len := by
  constructor
  · intro returns
    generalize whole : waits ++ call :: later = calls at returns
    cases returns with
    | zero ready' =>
      obtain ⟨rfl, rfl⟩ := ready.unique ready' whole
      exact Or.inl rfl
    | sent ready' some' rest =>
      obtain ⟨rfl, rfl⟩ := ready.unique ready' whole
      exact Or.inr (Or.inl ⟨_, some', rfl, rest⟩)
    | interrupted ready' rest =>
      obtain ⟨rfl, rfl⟩ := ready.unique ready' whole
      exact Or.inr (Or.inr ⟨rfl, rest⟩)
  · rintro (rfl | ⟨count, some', rfl, rest⟩ | ⟨rfl, rest⟩)
    · exact .zero ready some
    · exact .sent ready some' rest
    · exact .interrupted ready rest

/-- A sequence that does not get ready neither accepts anything nor returns zero. -/
theorem notReady_front {calls : List Call} {errno : Int}
    (notReady : ∀ polled, pollFor calls errno = some polled → polled.ret ≠ 1) {len : Nat}
    (some : 0 < len) : ¬ AcceptsAll calls len ∧ ¬ ReturnsZero calls len := by
  have none {waits later : List Call} (ready : ReadyAgain waits) (same : waits ++ later = calls) :
      False := by
    obtain ⟨errno', polls⟩ := ready.pollFor later errno
    rw [same] at polls
    exact notReady _ polls rfl
  constructor
  · intro accepts
    cases accepts with
    | nothing => omega
    | sent ready => exact none ready rfl
    | interrupted ready => exact none ready rfl
  · intro returns
    cases returns with
    | zero ready => exact none ready rfl
    | sent ready => exact none ready rfl
    | interrupted ready => exact none ready rfl

/-- A `send` that fails. -/
theorem sendCall_failed {line sent : Bytes} {left : Nat} {call : Call} {ec : Int}
    (fails : sendCall line sent left call = some (.failed ec)) : call = .send (.failed ec) := by
  unfold sendCall at fails
  split at fails
  · cases fails
  · cases fails
    rfl
  · cases fails

/-- A `send` that succeeds. -/
theorem sendCall_done {line sent bytes : Bytes} {left count : Nat} {call : Call}
    (moves : sendCall line sent left call = some (.done (count, bytes))) :
    ∃ most, call = .send (.done most) ∧ count = min most left ∧
      bytes = (line.drop sent.length).take count := by
  unfold sendCall at moves
  split at moves
  · cases moves
    exact ⟨_, rfl, rfl, rfl⟩
  · cases moves
  · cases moves

/-- How the loop of `timed_writen` ends: all is accepted, a `send` returns zero, or a call fails or
the time is over. -/
structure WriteSpec (line : Bytes) (calls : List Call) (left : Int) (sent : Bytes)
    (ending : LoopEnd) : Prop where
  /-- What was accepted is a prefix of the line. -/
  bytes : ending.bytes = line.take (sent.length + (left - ending.left).toNat)
  /-- No more is accepted than there is. -/
  range : 0 ≤ ending.left ∧ ending.left ≤ left
  /-- Nothing is left exactly if the calls accept all. -/
  whole : ending.left = 0 ↔ AcceptsAll calls left.toNat
  /-- A `send` that returns zero leaves some bytes and no error. -/
  zero : ReturnsZero calls left.toNat → 0 < ending.left ∧ ending.failed = false ∧ ending.errno = 0
  /-- Any other end that leaves some bytes leaves an error. -/
  fails : 0 < ending.left → ¬ ReturnsZero calls left.toNat → ending.errno ≠ 0

/-- A `send` can return zero only before all is accepted. -/
theorem ReturnsZero.positive {calls : List Call} {len : Nat} (returns : ReturnsZero calls len) :
    0 < len := by
  induction returns with
  | zero ready some => exact some
  | sent ready some rest ih => omega
  | interrupted ready rest ih => exact ih

/-- The descriptor gets ready before the call that follows. -/
theorem pollFor_front {calls later : List Call} {call : Call} {errno : Int} {polled : Returned}
    (waits : pollFor calls errno = some polled) (ready : ¬ polled.ret ≠ 1)
    (here : polled.calls = call :: later) :
    ∃ waited, ReadyAgain waited ∧ calls = waited ++ call :: later := by
  have same : polled = ⟨1, polled.errno, call :: later⟩ := by
    rw [← not_not.mp ready, ← here]
  rw [same] at waits
  exact pollFor_ready waits

/-- Bytes accepted behind a prefix of the line make a longer prefix. -/
theorem prefix_grows {line sent : Bytes} (prefixed : sent = line.take sent.length) (count : Nat) :
    sent ++ (line.drop sent.length).take count = line.take (sent.length + count) := by
  rw [List.take_add, ← prefixed]

/-- What is reported by the calls is reported by those behind one of them. -/
theorem reported_behind {waited later : List Call} {call : Call}
    (reported : ∀ ec, .poll (.failed ec) ∈ waited ++ call :: later ∨
      .send (.failed ec) ∈ waited ++ call :: later → ec ≠ 0) (ec : Int)
    (member : .poll (.failed ec) ∈ later ∨ .send (.failed ec) ∈ later) : ec ≠ 0 := by
  have behind {other : Call} (here : other ∈ later) : other ∈ waited ++ call :: later :=
    List.mem_append_right waited (List.mem_cons_of_mem call here)
  exact reported ec (member.imp behind behind)

/-- The loop of `timed_writen` ends so. -/
theorem transferLoop_writes {line : Bytes} {calls : List Call}
    (reported : ∀ ec, .poll (.failed ec) ∈ calls ∨ .send (.failed ec) ∈ calls → ec ≠ 0)
    {left errno : Int} (start : 0 ≤ left) {sent : Bytes} (prefixed : sent = line.take sent.length)
    (room : sent.length + left.toNat ≤ line.length) {ending : LoopEnd}
    (ends : transferLoop (sendCall line) calls left errno sent = some ending) :
    WriteSpec line calls left sent ending := by
  fun_induction transferLoop (sendCall line) calls left errno sent with
  | case1 calls left errno sent ended =>
    cases ends
    have zero : left = 0 := by omega
    subst zero
    exact {
      bytes := by simpa using prefixed
      range := ⟨le_rfl, le_rfl⟩
      whole := iff_of_true rfl (.nothing _)
      zero := fun wrong => absurd wrong.positive (lt_irrefl 0)
      fails := fun wrong => absurd wrong (lt_irrefl 0) }
  | case2 | case4 | case5 => cases ends
  | case3 calls left errno sent some polled waits notReady =>
    cases ends
    have none : ¬ AcceptsAll calls left.toNat ∧ ¬ ReturnsZero calls left.toNat := by
      have never : ∀ polled', pollFor calls errno = .some polled' → polled'.ret ≠ 1 := by
        intro polled' waits'
        rw [Option.some.inj (waits'.symm.trans waits)]
        exact notReady
      exact notReady_front never (by omega)
    exact {
      bytes := by simpa using prefixed
      range := ⟨start, le_rfl⟩
      whole := iff_of_false (show left ≠ 0 by omega) none.1
      zero := fun wrong => absurd wrong none.2
      fails := fun _ _ => pollFor_reports (fun ec member => reported ec (Or.inl member)) waits
        notReady }
  | case6 calls left errno sent some polled waits ready call later here shorter fails ih =>
    obtain ⟨waited, front, rfl⟩ := pollFor_front waits ready here
    obtain rfl := sendCall_failed fails
    have spec := ih (reported_behind reported) start prefixed room ends
    have accepts : AcceptsAll (waited ++ .send (.failed eintr) :: later) left.toNat ↔
        AcceptsAll later left.toNat := by
      rw [acceptsAll_front front (by omega)]
      simp
    have returns : ReturnsZero (waited ++ .send (.failed eintr) :: later) left.toNat ↔
        ReturnsZero later left.toNat := by
      rw [returnsZero_front front (by omega)]
      simp
    exact {
      bytes := spec.bytes
      range := spec.range
      whole := spec.whole.trans accepts.symm
      zero := fun zero => spec.zero (returns.mp zero)
      fails := fun left notZero => spec.fails left fun zero => notZero (returns.mpr zero) }
  | case7 calls left errno sent some polled waits ready call later here shorter ec fails other =>
    obtain ⟨waited, front, rfl⟩ := pollFor_front waits ready here
    obtain rfl := sendCall_failed fails
    cases ends
    have none : ¬ AcceptsAll (waited ++ .send (.failed ec) :: later) left.toNat ∧
        ¬ ReturnsZero (waited ++ .send (.failed ec) :: later) left.toNat := by
      rw [acceptsAll_front front (by omega), returnsZero_front front (by omega)]
      simp [other]
    exact {
      bytes := by simpa using prefixed
      range := ⟨start, le_rfl⟩
      whole := iff_of_false (show left ≠ 0 by omega) none.1
      zero := fun wrong => absurd wrong none.2
      fails := fun _ _ => reported ec (Or.inr (List.mem_append_right _ List.mem_cons_self)) }
  | case8 calls left errno sent some polled waits ready call later here shorter bytes moves =>
    obtain ⟨waited, front, rfl⟩ := pollFor_front waits ready here
    obtain ⟨most, rfl, none, -⟩ := sendCall_done moves
    obtain rfl : most = 0 := by omega
    cases ends
    have accepts : ¬ AcceptsAll (waited ++ .send (.done 0) :: later) left.toNat := by
      rw [acceptsAll_front front (by omega)]
      simp
    have returns : ReturnsZero (waited ++ .send (.done 0) :: later) left.toNat :=
      .zero front (by omega)
    exact {
      bytes := by simpa using prefixed
      range := ⟨start, le_rfl⟩
      whole := iff_of_false (show left ≠ 0 by omega) accepts
      zero := fun _ => ⟨show 0 < left by omega, rfl, rfl⟩
      fails := fun _ notZero => absurd returns notZero }
  | case9 calls left errno sent some polled waits ready call later here shorter count bytes moves
      positive ih =>
    obtain ⟨waited, front, rfl⟩ := pollFor_front waits ready here
    obtain ⟨most, rfl, taken, piece⟩ := sendCall_done moves
    have length : bytes.length = count := by
      rw [piece, List.length_take, List.length_drop]
      omega
    have total : (sent ++ bytes).length = sent.length + count := by
      rw [List.length_append, length]
    have grown : sent ++ bytes = line.take (sent ++ bytes).length := by
      rw [total, piece]
      exact prefix_grows prefixed count
    have rest : (left - count).toNat = left.toNat - most := by omega
    have accepted : 0 < most := by omega
    have spec := ih (reported_behind reported) (by omega) grown (by omega) ends
    have accepts : AcceptsAll (waited ++ .send (.done most) :: later) left.toNat ↔
        AcceptsAll later (left - count).toNat := by
      rw [acceptsAll_front front (by omega), rest]
      simp [accepted]
    have returns : ReturnsZero (waited ++ .send (.done most) :: later) left.toNat ↔
        ReturnsZero later (left - count).toNat := by
      rw [returnsZero_front front (by omega), rest]
      simp [accepted, accepted.ne']
    have range := spec.range
    exact {
      bytes := by
        rw [spec.bytes, total]
        congr 1
        omega
      range := ⟨range.1, by omega⟩
      whole := spec.whole.trans accepts.symm
      zero := fun zero => spec.zero (returns.mp zero)
      fails := fun left notZero => spec.fails left fun zero => notZero (returns.mpr zero) }

/-- The loop sees the descriptor ready and goes on with the call behind. -/
theorem transferLoop_found {transfer : Transfer} {left : Int} (some : 0 < left) (call : Call)
    (later : List Call) (errno : Int) (moved : Bytes) :
    transferLoop transfer (.poll (.done true) :: call :: later) left errno moved =
      transferred transfer (transfer moved left.toNat call) later left errno moved :=
  transferLoop_ready some rfl moved

/-- The loop ends when the descriptor does not get ready. -/
theorem transferLoop_ends {transfer : Transfer} {left : Int} (some : 0 < left)
    {result : Result Bool} {ec : Int} (errno : Int) (moved : Bytes) (ret : Int) (notReady : ret ≠ 1)
    (polls : pollFor [.poll result] errno = .some ⟨ret, ec, []⟩) :
    transferLoop transfer [.poll result] left errno moved = .some ⟨false, left, ec, moved, []⟩ := by
  rw [transferLoop_waits some moved, polls]
  · rfl
  · intro polled polls'
    rw [← Option.some.inj (polls.symm.trans polls')]
    exact notReady

/-- The loop over a script of outcomes sends some of the bytes. -/
theorem timedWritenLoop_range {timeout : Int} {sends : List SendOutcome} {left errno : Int}
    (start : 0 ≤ left) {ending : Os.WriteEnd}
    (returns : Os.timedWritenLoop timeout sends left errno = .ok ending) : ending.left ≤ left := by
  rcases Os.timedWritenLoop_ends timeout sends left start errno with ⟨hangs, -⟩ | ⟨_, ends, spec⟩
  · cases hangs.symm.trans returns
  · obtain rfl := Except.ok.inj (ends.symm.trans returns)
    exact spec.range.2

/-- The loop over a script of outcomes is the loop over these calls, and what it delivers is what
the calls accept. -/
theorem timedWritenLoop_calls {timeout : Int} {sends : List SendOutcome}
    (uninterrupted : .pollFailed eintr ∉ sends) {left errno : Int} {ending : Os.WriteEnd}
    (returns : Os.timedWritenLoop timeout sends left errno = .ok ending) {line sent : Bytes}
    (prefixed : sent = line.take sent.length) (room : sent.length + left.toNat ≤ line.length) :
    ∃ calls, transferLoop (sendCall line) calls left errno sent = some ⟨ending.failed, ending.left,
      ending.errno, line.take (sent.length + (left - ending.left).toNat), []⟩ := by
  have stops (left : Int) : line.take (sent.length + (left - left).toNat) = sent := by
    rw [Int.sub_self, Int.toNat_zero, Nat.add_zero]
    exact prefixed.symm
  fun_induction Os.timedWritenLoop timeout sends left errno generalizing sent with
  | case1 left errno =>
    cases returns
    by_cases ended : left ≤ 0
    · refine ⟨[], ?_⟩
      rw [transferLoop, if_pos ended, min_eq_left ended, stops left]
    · refine ⟨[.poll (.done true), .send (.done left.toNat)], ?_⟩
      have accepted : sendCall line sent left.toNat (.send (.done left.toNat)) =
          some (.done (left.toNat, (line.drop sent.length).take left.toNat)) := by
        rw [sendCall, min_self]
      have none : min left 0 = 0 := by omega
      have rest : left - left.toNat = 0 := by omega
      rw [transferLoop_found (by omega), accepted, transferred, if_neg (by omega), transferLoop,
        if_pos (by omega), prefix_grows prefixed, none, rest, Int.sub_zero]
  | case2 outcome rest left errno ended =>
    cases returns
    refine ⟨[], ?_⟩
    rw [transferLoop, if_pos ended, stops left]
  | case3 rest left errno some most ih =>
    generalize taken : min (min left.toNat maxTransfer) (most + 1) = count at ih returns
    have positive : 0 < maxTransfer := by decide
    have accepted : sendCall line sent left.toNat (.send (.done count)) =
        .some (.done (count, (line.drop sent.length).take count)) := by
      rw [sendCall, min_eq_left (by omega)]
    have length : (line.take (sent.length + count)).length = sent.length + count := by
      rw [List.length_take]
      omega
    have grown : line.take (sent.length + count) =
        line.take (line.take (sent.length + count)).length := by rw [length]
    obtain ⟨calls, ends⟩ := ih (fun member => uninterrupted (List.mem_cons_of_mem _ member)) returns
      grown (by omega) (fun left => by simp)
    refine ⟨.poll (.done true) :: .send (.done count) :: calls, ?_⟩
    have range := timedWritenLoop_range (by omega) returns
    have total : sent.length + count + (left - count - ending.left).toNat =
        sent.length + (left - ending.left).toNat := by omega
    rw [transferLoop_found (by omega), accepted, transferred, if_neg (by omega),
      prefix_grows prefixed, ends, length, total]
  | case4 rest left errno some =>
    cases returns
    refine ⟨[.poll (.done true), .send (.done 0)], ?_⟩
    rw [transferLoop_found (by omega), stops left]
    simp only [sendCall, Nat.zero_min, transferred, if_pos]
  | case5 rest left errno some forever => cases returns
  | case6 rest left errno some bounded =>
    cases returns
    refine ⟨[.poll (.done false)], ?_⟩
    rw [stops left]
    exact transferLoop_ends (by omega) errno sent 0 (by decide) rfl
  | case7 rest left errno some ec =>
    cases returns
    have other : ec ≠ eintr := by
      rintro rfl
      exact uninterrupted List.mem_cons_self
    refine ⟨[.poll (.failed ec)], ?_⟩
    rw [stops left]
    apply transferLoop_ends (by omega) errno sent (-1) (by decide)
    rw [pollFor, retryPoll, if_neg other]
    rfl
  | case8 rest left errno some ih =>
    obtain ⟨calls, ends⟩ := ih (fun member => uninterrupted (List.mem_cons_of_mem _ member)) returns
      prefixed room stops
    refine ⟨.poll (.done true) :: .send (.failed eintr) :: calls, ?_⟩
    rw [transferLoop_found (by omega), ← ends]
    simp only [sendCall, transferred, if_pos]
  | case9 rest left errno some ec other =>
    cases returns
    refine ⟨[.poll (.done true), .send (.failed ec)], ?_⟩
    rw [transferLoop_found (by omega), stops left]
    simp only [sendCall, transferred, if_neg other]

end Sys

namespace TcpClient

variable {π : Type}

/-- What `write` leaves. -/
structure Written (π : Type) where
  /-- The code. -/
  ec : Int
  /-- The bytes that `send` accepted, in this order. -/
  sent : Bytes
  /-- The client. -/
  client : TcpClient π

/-- `write` over the calls that it makes. -/
def writeOver (c : TcpClient π) (line : Bytes) (calls : List Sys.Call) : Option (Written π) := do
  let moved ← Sys.timedWriten calls line c.os.errno
  let c := { c with os := { c.os with errno := moved.errno } }
  if moved.ret ≠ toInt32 line.length then
    let c := c.close
    return ⟨c.os.errno, moved.bytes, c⟩
  else
    let (now, os) := c.os.time
    return ⟨0, moved.bytes, { c with lastCheckOpenTime := now, os := os }⟩

/-- A write is honest: it reports success and the whole line was accepted, in order and once, or it
reports an error and the connection is closed. -/
def Written.Honest (written : Written π) (line : Bytes) : Prop :=
  written.ec = 0 ∧ written.sent = line ∨ written.ec ≠ 0 ∧ written.client.fd = -1

/-- When a write is honest: the line is empty; or its narrowed length is negative and `errno` was
not zero before; or it is positive, no `send` returns zero, and the length was not narrowed or the
narrowed length is not accepted. -/
def WritesHonestly (c : TcpClient π) (line : Bytes) (calls : List Sys.Call) : Prop :=
  line = [] ∨ toInt32 line.length < 0 ∧ c.os.errno ≠ 0 ∨
  0 < toInt32 line.length ∧ ¬ Sys.ReturnsZero calls (toInt32 line.length).toNat ∧
    (line.length < 2 ^ 31 ∨ ¬ Sys.AcceptsAll calls (toInt32 line.length).toNat)

/-- Closing keeps `errno` and the peer, and leaves no descriptor. -/
theorem close_leaves (c : TcpClient π) :
    c.close.os.errno = c.os.errno ∧ c.close.os.peer = c.os.peer ∧ c.close.fd = -1 := by
  rw [close]
  by_cases opened : c.fd ≠ -1
  · rw [if_pos opened]
    exact ⟨rfl, rfl, rfl⟩
  · rw [if_neg opened]
    exact ⟨rfl, rfl, not_not.mp opened⟩

/-- A positive narrowed length is at most the length, and equal to it below `2 ^ 31` only. -/
theorem toInt32_length {length : Nat} (positive : 0 < toInt32 length) :
    toInt32 length ≤ length ∧ (length < 2 ^ 31 ↔ toInt32 length = length) := by
  have narrowed : toInt32 length = if (length : Int) % 4294967296 < 2147483648 then
      (length : Int) % 4294967296 else (length : Int) % 4294967296 - 4294967296 := rfl
  rw [narrowed] at positive ⊢
  split at positive
  · rename_i low
    rw [if_pos low]
    omega
  · omega

/-- A write returns when its loop does. -/
theorem writeOver_returns {c : TcpClient π} {line : Bytes} {calls : List Sys.Call}
    {moved : Sys.Moved} (loop : Sys.timedWriten calls line c.os.errno = some moved) :
    ∃ written, c.writeOver line calls = some written := by
  rw [writeOver, loop]
  simp only [Option.bind_eq_bind, Option.bind_some]
  split
  · exact ⟨_, rfl⟩
  · exact ⟨_, rfl⟩

/-- A write that does not send the narrowed length closes the connection, with `errno`. -/
theorem writeOver_short {c : TcpClient π} {line : Bytes} {calls : List Sys.Call}
    {moved : Sys.Moved} (loop : Sys.timedWriten calls line c.os.errno = some moved)
    (short : moved.ret ≠ toInt32 line.length) {written : Written π}
    (returns : c.writeOver line calls = some written) :
    written.ec = moved.errno ∧ written.sent = moved.bytes ∧ written.client.fd = -1 ∧
      written.client.os.errno = moved.errno := by
  rw [writeOver, loop] at returns
  simp only [Option.bind_eq_bind, Option.bind_some, if_pos short] at returns
  obtain ⟨errno, -, fd⟩ :=
    close_leaves { c with os := { c.os with errno := moved.errno } }
  obtain rfl := Option.some.inj returns
  exact ⟨errno, rfl, fd, errno⟩

/-- Any other write reports success. -/
theorem writeOver_whole {c : TcpClient π} {line : Bytes} {calls : List Sys.Call}
    {moved : Sys.Moved} (loop : Sys.timedWriten calls line c.os.errno = some moved)
    (whole : moved.ret = toInt32 line.length) {written : Written π}
    (returns : c.writeOver line calls = some written) :
    written.ec = 0 ∧ written.sent = moved.bytes := by
  rw [writeOver, loop] at returns
  simp only [Option.bind_eq_bind, Option.bind_some, ne_eq, whole, not_true, if_false] at returns
  obtain rfl := Option.some.inj returns
  exact ⟨rfl, rfl⟩

/-- A line without what is left of it is shorter than the line. -/
theorem take_short {line : Bytes} (length left : Int) (remains : 0 < left) (room : left ≤ length)
    (most : length ≤ line.length) : line.take (length - left).toNat ≠ line := by
  intro same
  have lengths := congrArg List.length same
  rw [List.length_take] at lengths
  omega

/-- The count that the loop returns. -/
theorem result_ret (len : Int) (ending : Sys.LoopEnd) :
    (ending.result len).ret = if ending.failed then -1 else len - ending.left := rfl

/-- A line whose narrowed length is not positive takes no call, and only an `errno` from before
can report it. -/
theorem writeOver_honest_nothing {c : TcpClient π} {line : Bytes} {calls : List Sys.Call}
    (ended : toInt32 line.length ≤ 0) {moved : Sys.Moved}
    (loop : Sys.timedWriten calls line c.os.errno = some moved) {written : Written π}
    (returns : c.writeOver line calls = some written) :
    written.Honest line ↔ line = [] ∨ toInt32 line.length < 0 ∧ c.os.errno ≠ 0 := by
  obtain ⟨ending, ends, result⟩ := Option.map_eq_some_iff.mp loop
  rw [Sys.transferLoop, if_pos ended] at ends
  have same := Option.some.inj ends
  have zero : moved.ret = 0 := by
    rw [← result, result_ret, ← same]
    simp only [Bool.false_eq_true, if_false, sub_self]
  have nothing : moved.bytes = [] := by
    rw [← result, ← same]
    rfl
  rw [Written.Honest]
  by_cases none : toInt32 line.length = 0
  · obtain ⟨ec, sent⟩ := writeOver_whole loop (zero.trans none.symm) returns
    rw [ec, sent, nothing, none]
    simp [eq_comm]
  · obtain ⟨ec, sent, fd, -⟩ := writeOver_short loop (by rw [zero]; exact Ne.symm none) returns
    have errno : moved.errno = c.os.errno := by
      rw [← result, ← same]
      rfl
    have some : line ≠ [] := by
      rintro rfl
      exact none rfl
    have low : toInt32 line.length < 0 := by omega
    rw [ec, sent, fd, errno, nothing]
    simp [some, some.symm, low]

/-- A line of positive narrowed length is written honestly if no `send` returns zero, and either
the narrowed length is the length or the calls do not take as much. -/
theorem writeOver_honest_positive {c : TcpClient π} {line : Bytes} {calls : List Sys.Call}
    (reported : ∀ ec, .poll (.failed ec) ∈ calls ∨ .send (.failed ec) ∈ calls → ec ≠ 0)
    (positive : 0 < toInt32 line.length) {moved : Sys.Moved}
    (loop : Sys.timedWriten calls line c.os.errno = some moved) {written : Written π}
    (returns : c.writeOver line calls = some written) :
    written.Honest line ↔ ¬ Sys.ReturnsZero calls (toInt32 line.length).toNat ∧
      (line.length < 2 ^ 31 ∨ ¬ Sys.AcceptsAll calls (toInt32 line.length).toNat) := by
  obtain ⟨ending, ends, result⟩ := Option.map_eq_some_iff.mp loop
  obtain ⟨most, whole⟩ := toInt32_length positive
  have room : ([] : Bytes).length + (toInt32 line.length).toNat ≤ line.length := by
    rw [List.length_nil]
    omega
  have spec := Sys.transferLoop_writes reported (by omega) rfl room ends
  have range := spec.range
  have bytes : moved.bytes = line.take (toInt32 line.length - ending.left).toNat := by
    have taken := spec.bytes
    rw [List.length_nil, Nat.zero_add] at taken
    rw [← result, ← taken]
    rfl
  rw [Written.Honest]
  by_cases left : ending.left = 0
  · have succeeds : ¬ ending.failed = true := by
      intro fails
      have wrong := (Sys.transferLoop_left (Sys.sendCall_restarts line) (by omega) ends).2 fails
      omega
    have same : moved.ret = toInt32 line.length := by
      rw [← result, result_ret, if_neg succeeds, left, Int.sub_zero]
    obtain ⟨ec, sent⟩ := writeOver_whole loop same returns
    have notZero : ¬ Sys.ReturnsZero calls (toInt32 line.length).toNat := by
      intro zero
      have wrong := (spec.zero zero).1
      omega
    have accepts := spec.whole.mp left
    rw [ec, sent, bytes, left, Int.sub_zero, and_iff_right notZero,
      or_iff_left (not_not.mpr accepts), whole]
    have all : line.take (toInt32 line.length).toNat = line ↔
        toInt32 line.length = line.length := by
      rw [List.take_eq_self_iff]
      omega
    rw [all]
    simp
  · have remains : 0 < ending.left := by omega
    have short : moved.ret ≠ toInt32 line.length := by
      rw [← result, result_ret]
      split
      · omega
      · omega
    obtain ⟨ec, sent, fd, -⟩ := writeOver_short loop short returns
    have errno : moved.errno = ending.errno := by
      rw [← result]
      rfl
    have partly : ¬ Sys.AcceptsAll calls (toInt32 line.length).toNat :=
      fun accepts => left (spec.whole.mpr accepts)
    by_cases zero : Sys.ReturnsZero calls (toInt32 line.length).toNat
    · have none : written.ec = 0 := by
        rw [ec, errno]
        exact (spec.zero zero).2.2
      have shorter : written.sent ≠ line := by
        rw [sent, bytes]
        exact take_short (toInt32 line.length) ending.left remains range.2 most
      refine iff_of_false ?_ fun good => good.1 zero
      rintro (⟨-, wrong⟩ | ⟨wrong, -⟩)
      · exact shorter wrong
      · exact wrong none
    · have reports : written.ec ≠ 0 := by
        rw [ec, errno]
        exact spec.fails remains zero
      exact iff_of_true (Or.inr ⟨reports, fd⟩) ⟨zero, Or.inr partly⟩

/-- `write` is honest exactly under this condition. -/
theorem writeOver_honest_iff (c : TcpClient π) (line : Bytes) {calls : List Sys.Call}
    (reported : ∀ ec, .poll (.failed ec) ∈ calls ∨ .send (.failed ec) ∈ calls → ec ≠ 0)
    {written : Written π} (returns : c.writeOver line calls = some written) :
    written.Honest line ↔ c.WritesHonestly line calls := by
  obtain ⟨moved, loop, -⟩ := Option.bind_eq_some_iff.mp returns
  rw [WritesHonestly]
  by_cases ended : toInt32 line.length ≤ 0
  · rw [writeOver_honest_nothing ended loop returns]
    simp [not_lt.mpr ended]
  · have positive : 0 < toInt32 line.length := by omega
    have some : line ≠ [] := by
      rintro rfl
      exact ended le_rfl
    rw [writeOver_honest_positive reported positive loop returns]
    simp [some, positive, not_lt.mpr positive.le]

/-- A connected client whose peer says nothing. -/
def connectedClient : TcpClient ScriptedPeer :=
  { TcpClient.new (Os.start ⟨[]⟩ []) with fd := 3 }

/-- One byte that is accepted. -/
theorem writeOver_honest_iff_sent : ∃ written,
    connectedClient.writeOver [43] [.poll (.done true), .send (.done 1)] = some written ∧
      (written.Honest [43] ↔
        connectedClient.WritesHonestly [43] [.poll (.done true), .send (.done 1)]) := by
  have loop : Sys.transferLoop (Sys.sendCall [43]) [.poll (.done true), .send (.done 1)] 1 0 [] =
      some ⟨false, 0, 0, [43], []⟩ := by
    rw [Sys.transferLoop_found (by decide), Sys.sendCall, Sys.transferred, if_neg (by decide),
      Sys.transferLoop, if_pos (by decide)]
    rfl
  have moved : Sys.timedWriten [.poll (.done true), .send (.done 1)] [43]
      connectedClient.os.errno = some ⟨1, 0, [43], []⟩ := congrArg (Option.map _) loop
  obtain ⟨written, writes⟩ := writeOver_returns moved
  exact ⟨written, writes, writeOver_honest_iff connectedClient [43] (by simp) writes⟩

/-- A `send` that returns zero, and a line of `2 ^ 32` bytes: the code is zero and nothing was
sent. -/
theorem writeOver_dishonest :
    (∃ written, connectedClient.writeOver [43] [.poll (.done true), .send (.done 0)] =
      some written ∧ ¬ written.Honest [43]) ∧
    ∃ written, connectedClient.writeOver (List.replicate (2 ^ 32) 43) [] = some written ∧
      ¬ written.Honest (List.replicate (2 ^ 32) 43) := by
  have lies {written : Written ScriptedPeer} {line : Bytes} (ec : written.ec = 0)
      (sent : written.sent ≠ line) : ¬ written.Honest line := by
    rintro (⟨-, wrong⟩ | ⟨wrong, -⟩)
    · exact sent wrong
    · exact wrong ec
  constructor
  · have loop : Sys.transferLoop (Sys.sendCall [43]) [.poll (.done true), .send (.done 0)] 1 0 [] =
        some ⟨false, 1, 0, [], []⟩ := by
      rw [Sys.transferLoop_found (by decide), Sys.sendCall, Sys.transferred, if_pos (by decide)]
    have moved : Sys.timedWriten [.poll (.done true), .send (.done 0)] [43]
        connectedClient.os.errno = some ⟨0, 0, [], []⟩ := congrArg (Option.map _) loop
    obtain ⟨written, writes⟩ := writeOver_returns moved
    obtain ⟨ec, sent, -⟩ := writeOver_short moved (by decide) writes
    exact ⟨written, writes, lies ec (by rw [sent]; decide)⟩
  · have none : toInt32 (List.replicate (2 ^ 32) (43 : UInt8)).length = 0 := by
      rw [List.length_replicate]
      rfl
    have moved : Sys.timedWriten [] (List.replicate (2 ^ 32) 43) connectedClient.os.errno =
        some ⟨0, 0, [], []⟩ := by
      rw [Sys.timedWriten, none, Sys.transferLoop, if_pos le_rfl]
      rfl
    obtain ⟨written, writes⟩ := writeOver_returns moved
    obtain ⟨ec, sent⟩ := writeOver_whole moved none.symm writes
    have missing : [] ≠ List.replicate (2 ^ 32) (43 : UInt8) := by
      rw [ne_comm, Ne, List.replicate_eq_nil_iff]
      decide
    exact ⟨written, writes, lies ec (by rw [sent]; exact missing)⟩

/-- The narrowed length leaves room for what is sent. -/
theorem toInt32_room (line : Bytes) : ([] : Bytes).length + (toInt32 line.length).toNat ≤
    line.length := by
  rw [List.length_nil, Nat.zero_add]
  by_cases positive : 0 < toInt32 line.length
  · have most := (toInt32_length positive).1
    omega
  · rw [Int.toNat_of_nonpos (by omega)]
    exact Nat.zero_le _

/-- `timed_writen` over a script of outcomes is `timed_writen` over these calls. -/
theorem timedWriten_calls [Peer π] {os os' : Os π} {line : Bytes} {fd timeout count : Int}
    (uninterrupted : .pollFailed eintr ∉ os.sends)
    (returns : os.timedWriten fd line timeout = .ok (count, os')) :
    ∃ calls moved, Sys.timedWriten calls line os.errno = some moved ∧ moved.ret = count ∧
      moved.errno = os'.errno ∧ peerAfter os.peer moved.bytes = os'.peer := by
  have room := toInt32_room line
  simp only [Sys.timedWriten]
  unfold Os.timedWriten at returns
  generalize toInt32 line.length = len at room returns ⊢
  by_cases gone : fd < 0 ∧ 0 < len
  · rw [if_pos gone] at returns
    obtain ⟨waited, waits, same⟩ := bind_returns returns
    cases same
    have wait : os' = { os with errno := etimedout } := by
      rw [Os.wait] at waits
      split at waits
      · cases waits
      · exact (Except.ok.inj waits).symm
    -- `poll` ignores the descriptor until the time is over
    have ends : Sys.transferLoop (Sys.sendCall line) [.poll (.done false)] len os.errno [] =
        some ⟨false, len, etimedout, [], []⟩ :=
      Sys.transferLoop_ends gone.2 os.errno [] 0 (by decide) rfl
    refine ⟨[.poll (.done false)], Sys.LoopEnd.result len _, congrArg (Option.map _) ends, ?_⟩
    rw [wait]
    refine ⟨?_, rfl, if_pos rfl⟩
    rw [result_ret, if_neg Bool.false_ne_true, Int.sub_self]
  · rw [if_neg gone] at returns
    obtain ⟨ending, ends, same⟩ := bind_returns returns
    cases same
    have prefixed : ([] : Bytes) = line.take ([] : Bytes).length := rfl
    obtain ⟨calls, loop⟩ := Sys.timedWritenLoop_calls uninterrupted ends prefixed room
    rw [List.length_nil, Nat.zero_add] at loop
    refine ⟨calls, _, congrArg (Option.map _) loop, rfl, ?_⟩
    rw [deliver_eq]
    exact ⟨rfl, rfl⟩

/-- A write over a script of outcomes is a write over these calls: the code, the descriptor and
`errno` are the same, and the peer gets the bytes that the calls accept. -/
theorem write_calls [Peer π] {c c' : TcpClient π} {line : Bytes} {timeout ec : Int}
    (uninterrupted : .pollFailed eintr ∉ c.os.sends)
    (returns : c.write line timeout = .ok (ec, c')) :
    ∃ calls written, c.writeOver line calls = some written ∧ written.ec = ec ∧
      written.client.fd = c'.fd ∧ written.client.os.errno = c'.os.errno ∧
      peerAfter c.os.peer written.sent = c'.os.peer := by
  obtain ⟨⟨count, os⟩, sends, same⟩ := bind_returns returns
  obtain ⟨calls, moved, loop, ret, code, peer⟩ := timedWriten_calls uninterrupted sends
  refine ⟨calls, ?_⟩
  by_cases short : count ≠ toInt32 line.length
  · simp only [if_pos short] at same
    cases same
    have cut := ret ▸ short
    obtain ⟨written, writes⟩ := writeOver_returns loop
    refine ⟨written, writes, ?_⟩
    obtain ⟨ec, sent, fd, errno⟩ := writeOver_short loop cut writes
    obtain ⟨errno', peer', fd'⟩ := close_leaves { c with os := os }
    rw [ec, sent, fd, errno, errno', peer', fd', code, peer]
    exact ⟨rfl, rfl, rfl, rfl⟩
  · simp only [if_neg short] at same
    cases same
    rw [writeOver, loop]
    simp only [Option.bind_eq_bind, Option.bind_some, ret, if_neg short]
    exact ⟨_, rfl, rfl, rfl, code, peer⟩

end TcpClient

end LibRedis
