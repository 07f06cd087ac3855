import LibRedis.TcpStream

/-!
# The socket functions, call by call

`timed_connect`, `timed_read`, `timed_readn` and `timed_writen` over a sequence of system calls with
their outcomes. A function takes its calls off the front of the sequence; a sequence that ends too
early, or has another call where one is made, is no sequence of it. `Interrupts` puts interrupted
calls into a sequence. The two loops do not notice them, the two other functions do:
`timed_read` does not repeat `recv`, and `timed_connect` repeats a `connect` that is still going on.
-/

namespace LibRedis

/-- `EALREADY`. -/
def ealready : Int := 114

namespace Sys

/-- What a system call returns: -1 with this `errno`, or a value. -/
inductive Result (α : Type) where
  /-- It fails. -/
  | failed (ec : Int)
  /-- It succeeds. -/
  | done (value : α)
  deriving DecidableEq, Repr

/-- A system call and its outcome. -/
inductive Call where
  /-- `fcntl` for the flags: whether the descriptor does not block. -/
  | getFlags (result : Result Bool)
  /-- `fcntl` that sets the flags. -/
  | setFlags (result : Result Unit)
  /-- `connect`. -/
  | connect (result : Result Unit)
  /-- `poll`: whether the descriptor is ready or the time is over. -/
  | poll (result : Result Bool)
  /-- `recv`: the bytes received, none at the end of the stream. -/
  | recv (result : Result Bytes)
  /-- `send`: the count of bytes accepted. -/
  | send (result : Result Nat)
  /-- `getsockopt` for the pending error, zero if there is none. -/
  | getError (result : Result Int)
  deriving DecidableEq, Repr

/-- Result of a loop around one call: what it returns, `errno`, and the calls to come. -/
structure Returned where
  /-- The value returned. -/
  ret : Int
  /-- `errno`. -/
  errno : Int
  /-- The calls to come. -/
  calls : List Call

/-- `set_nonblock`. -/
def setNonblock (calls : List Call) (errno : Int) : Option Returned :=
  match calls with
  | .getFlags (.failed ec) :: calls => some ⟨-1, ec, calls⟩
  | .getFlags (.done true) :: calls => some ⟨0, errno, calls⟩
  | .getFlags (.done false) :: .setFlags (.failed ec) :: calls => some ⟨-1, ec, calls⟩
  | .getFlags (.done false) :: .setFlags (.done ()) :: calls => some ⟨0, errno, calls⟩
  | _ => none

/-- `poll`, repeated while it is interrupted. -/
def retryPoll : List Call → Int → Option Returned
  | .poll (.failed ec) :: calls, _ =>
    if ec = eintr then retryPoll calls ec else some ⟨-1, ec, calls⟩
  | .poll (.done ready) :: calls, errno => some ⟨if ready then 1 else 0, errno, calls⟩
  | _, _ => none

/-- `connect`, repeated while it is interrupted. -/
def retryConnect : List Call → Int → Option Returned
  | .connect (.failed ec) :: calls, _ =>
    if ec = eintr then retryConnect calls ec else some ⟨-1, ec, calls⟩
  | .connect (.done ()) :: calls, errno => some ⟨0, errno, calls⟩
  | _, _ => none

/-- Waiting for a descriptor: 1 if it is ready, 0 after the timeout, -1 if `poll` fails. -/
def pollFor (calls : List Call) (errno : Int) : Option Returned := do
  let polled ← retryPoll calls errno
  if polled.ret = 0 then return { polled with errno := etimedout } else return polled

/-- `poll_read`. -/
def pollRead : List Call → Int → Option Returned := pollFor

/-- `poll_write`. -/
def pollWrite : List Call → Int → Option Returned := pollFor

/-- End of `timed_connect`: the attempt is in progress. -/
def awaitConnected (calls : List Call) (errno : Int) : Option Returned := do
  let polled ← pollFor calls errno
  if polled.ret ≠ 1 then return { polled with ret := -1 }
  else
    match polled.calls with
    | .getError (.failed ec) :: calls => return ⟨-1, ec, calls⟩
    | .getError (.done err) :: calls =>
      if err ≠ 0 then return ⟨-1, err, calls⟩ else return ⟨0, polled.errno, calls⟩
    | _ => none

/-- `timed_connect` behind `set_nonblock`. -/
def attemptConnect (calls : List Call) (errno : Int) : Option Returned := do
  let connected ← retryConnect calls errno
  if connected.ret = 0 then return connected
  else if connected.errno ≠ einprogress then return connected
  else awaitConnected connected.calls connected.errno

/-- `timed_connect`. -/
def timedConnect (calls : List Call) (errno : Int) : Option Returned := do
  let set ← setNonblock calls errno
  if set.ret = -1 then return set else attemptConnect set.calls set.errno

/-- Result of a function that moves bytes. -/
structure Moved where
  /-- The value returned. -/
  ret : Int
  /-- `errno`. -/
  errno : Int
  /-- The bytes received, or those accepted by `send`, in this order. -/
  bytes : Bytes
  /-- The calls to come. -/
  calls : List Call

/-- `timed_read`. -/
def timedRead (calls : List Call) (len : Nat) (errno : Int) : Option Moved := do
  let polled ← pollRead calls errno
  if polled.ret ≠ 1 then return ⟨-1, polled.errno, [], polled.calls⟩
  else
    match polled.calls with
    | .recv (.failed ec) :: calls => return ⟨-1, ec, [], calls⟩
    | .recv (.done data) :: calls =>
      let data := data.take (min len maxTransfer)
      return ⟨toInt32 data.length, polled.errno, data, calls⟩
    | _ => none

/-- A call that moves bytes in a loop, with the bytes that were moved before it and the count of
those that are left: the count it returns and the bytes it moves. -/
abbrev Transfer := Bytes → Nat → Call → Option (Result (Nat × Bytes))

/-- `recv` with room for what is left. -/
def recvCall : Transfer
  | _, left, .recv (.done data) =>
    let data := data.take left
    some (.done (data.length, data))
  | _, _, .recv (.failed ec) => some (.failed ec)
  | _, _, _ => none

/-- `send` of what is left of the bytes; it accepts some of them from the front. -/
def sendCall (line : Bytes) : Transfer
  | sent, left, .send (.done count) =>
    let count := min count left
    some (.done (count, (line.drop sent.length).take count))
  | _, _, .send (.failed ec) => some (.failed ec)
  | _, _, _ => none

/-- How a loop ends. -/
structure LoopEnd where
  /-- Whether it returns -1 instead of a count. -/
  failed : Bool
  /-- The count of bytes left. -/
  left : Int
  /-- `errno`. -/
  errno : Int
  /-- The bytes moved. -/
  bytes : Bytes
  /-- The calls to come. -/
  calls : List Call

/-- Repeating `poll` takes calls off the front. -/
theorem retryPoll_shorter {calls : List Call} {errno : Int} {polled : Returned}
    (returns : retryPoll calls errno = some polled) : polled.calls.length < calls.length := by
  fun_induction retryPoll calls errno with
  | case1 calls errno ih =>
    have shorter := ih returns
    rw [List.length_cons]
    omega
  | case2 ec calls errno other =>
    cases returns
    exact Nat.lt_succ_self _
  | case3 ready calls errno =>
    cases returns
    exact Nat.lt_succ_self _
  | case4 => cases returns

/-- So does waiting. -/
theorem pollFor_shorter {calls : List Call} {errno : Int} {polled : Returned}
    (returns : pollFor calls errno = some polled) : polled.calls.length < calls.length := by
  obtain ⟨found, polls, same⟩ := Option.bind_eq_some_iff.mp returns
  have shorter := retryPoll_shorter polls
  split at same
  · cases same
    exact shorter
  · cases same
    exact shorter

/-- The loop of `timed_readn` and `timed_writen`: wait, then one call that moves bytes. -/
def transferLoop (transfer : Transfer) (calls : List Call) (left errno : Int) (moved : Bytes) :
    Option LoopEnd :=
  if left ≤ 0 then some ⟨false, left, errno, moved, calls⟩
  else
    match waits : pollFor calls errno with
    | none => none
    | some polled =>
      if polled.ret ≠ 1 then some ⟨false, left, polled.errno, moved, polled.calls⟩
      else
        match here : polled.calls with
        | [] => none
        | call :: later =>
          have : later.length < calls.length := by
            have shorter := pollFor_shorter waits
            rw [here, List.length_cons] at shorter
            omega
          match transfer moved left.toNat call with
          | none => none
          | some (.failed ec) =>
            -- interrupted: the call is made again
            if ec = eintr then transferLoop transfer later left ec moved
            else some ⟨true, left, ec, moved, later⟩
          | some (.done (count, bytes)) =>
            if count = 0 then some ⟨false, left, 0, moved, later⟩
            else transferLoop transfer later (left - count) polled.errno (moved ++ bytes)
  termination_by calls.length

/-- What a loop over so many bytes returns. -/
def LoopEnd.result (len : Int) (ending : LoopEnd) : Moved :=
  ⟨if ending.failed then -1 else len - ending.left, ending.errno, ending.bytes, ending.calls⟩

/-- `timed_readn`. The length is narrowed to an `int` before the loop. -/
def timedReadn (calls : List Call) (len : Nat) (errno : Int) : Option Moved :=
  (transferLoop recvCall calls (toInt32 len) errno []).map (LoopEnd.result (toInt32 len))

/-- `timed_writen`. The length is narrowed to an `int` before the loop. -/
def timedWriten (calls : List Call) (line : Bytes) (errno : Int) : Option Moved :=
  (transferLoop (sendCall line) calls (toInt32 line.length) errno []).map
    (LoopEnd.result (toInt32 line.length))

/-- A descriptor that was found ready and was not used is found ready again, be it after
interruptions. -/
inductive ReadyAgain : List Call → Prop
  /-- It is found ready. -/
  | found : ReadyAgain [.poll (.done true)]
  /-- `poll` is interrupted before. -/
  | interrupted {again : List Call} (later : ReadyAgain again) :
    ReadyAgain (.poll (.failed eintr) :: again)

/-- The second sequence is the first one with interrupted calls put into it. -/
inductive Interrupts : List Call → List Call → Prop
  /-- There is no call. -/
  | nil : Interrupts [] []
  /-- A call is not interrupted. -/
  | same (call : Call) {base calls : List Call} (later : Interrupts base calls) :
    Interrupts (call :: base) (call :: calls)
  /-- A `poll` is interrupted. -/
  | poll {result : Result Bool} {base calls : List Call}
    (later : Interrupts (.poll result :: base) calls) :
    Interrupts (.poll result :: base) (.poll (.failed eintr) :: calls)
  /-- A `recv` is interrupted; the bytes are still there. -/
  | recv {result : Result Bytes} {base calls again : List Call} (ready : ReadyAgain again)
    (later : Interrupts (.recv result :: base) calls) :
    Interrupts (.recv result :: base) (.recv (.failed eintr) :: again ++ calls)
  /-- A `send` is interrupted; there is still room. -/
  | send {result : Result Nat} {base calls again : List Call} (ready : ReadyAgain again)
    (later : Interrupts (.send result :: base) calls) :
    Interrupts (.send result :: base) (.send (.failed eintr) :: again ++ calls)
  /-- A `connect` is interrupted: the attempt goes on, and a repeated `connect` says so. -/
  | connect {result : Result Unit} {base calls : List Call} (later : Interrupts base calls) :
    Interrupts (.connect result :: base)
      (.connect (.failed eintr) :: .connect (.failed ealready) :: calls)

/-- Waiting for a descriptor that is ready again. -/
theorem ReadyAgain.pollFor {again : List Call} (ready : ReadyAgain again) (calls : List Call)
    (errno : Int) : ∃ errno', pollFor (again ++ calls) errno = some ⟨1, errno', calls⟩ := by
  have retries : ∃ errno', retryPoll (again ++ calls) errno = some ⟨1, errno', calls⟩ := by
    induction ready generalizing errno with
    | found => exact ⟨errno, rfl⟩
    | interrupted later ih =>
      obtain ⟨errno', polls⟩ := ih eintr
      refine ⟨errno', ?_⟩
      rw [← polls]
      exact if_pos rfl
  obtain ⟨errno', polls⟩ := retries
  refine ⟨errno', ?_⟩
  rw [Sys.pollFor, polls]
  rfl

/-- Two results of waiting that differ by interrupted calls only. -/
inductive SamePoll : Option Returned → Option Returned → Prop
  /-- Neither sequence has the calls. -/
  | none : SamePoll none none
  /-- Both return the same, with the same `errno` for an error. -/
  | some {ret errno errno' : Int} {base calls : List Call} (later : Interrupts base calls)
    (reported : ret ≠ 1 → errno = errno') :
    SamePoll (some ⟨ret, errno, base⟩) (some ⟨ret, errno', calls⟩)

/-- Waiting does not notice interrupted calls. -/
theorem Interrupts.pollFor {base calls : List Call} (interrupts : Interrupts base calls)
    (errno errno' : Int) : SamePoll (pollFor base errno) (pollFor calls errno') := by
  induction interrupts generalizing errno errno' with
  | nil => exact .none
  | @same call base calls later ih =>
    cases call with
    | poll result =>
      cases result with
      | failed ec =>
        by_cases interrupted : ec = eintr
        · have skips (calls : List Call) (errno : Int) :
              Sys.pollFor (.poll (.failed ec) :: calls) errno = Sys.pollFor calls ec := by
            rw [Sys.pollFor, retryPoll, if_pos interrupted]
            rfl
          rw [skips, skips]
          exact ih ec ec
        · have fails (calls : List Call) (errno : Int) :
              Sys.pollFor (.poll (.failed ec) :: calls) errno = some ⟨-1, ec, calls⟩ := by
            rw [Sys.pollFor, retryPoll, if_neg interrupted]
            rfl
          rw [fails, fails]
          exact .some later fun _ => rfl
      | done ready =>
        cases ready with
        | true => exact .some later fun wrong => absurd rfl wrong
        | false => exact .some later fun _ => rfl
    | _ => exact .none
  | @poll result base calls later ih =>
    have skips : Sys.pollFor (.poll (.failed eintr) :: calls) errno' = Sys.pollFor calls eintr := by
      rw [Sys.pollFor, retryPoll, if_pos rfl]
      rfl
    rw [skips]
    exact ih errno eintr
  | recv => exact .none
  | send => exact .none
  | connect => exact .none

/-- A call that moves bytes fails when it is interrupted, and no other call takes its place. -/
structure Transfer.Restarts (transfer : Transfer) : Prop where
  /-- An interrupted `recv` fails, if `recv` is the call. -/
  recv : ∀ moved left, (∀ result, transfer moved left (.recv result) = none) ∨
    transfer moved left (.recv (.failed eintr)) = some (.failed eintr)
  /-- An interrupted `send` fails, if `send` is the call. -/
  send : ∀ moved left, (∀ result, transfer moved left (.send result) = none) ∨
    transfer moved left (.send (.failed eintr)) = some (.failed eintr)
  /-- `poll` is not the call. -/
  poll : ∀ moved left result, transfer moved left (.poll result) = none
  /-- `connect` is not the call. -/
  connect : ∀ moved left result, transfer moved left (.connect result) = none
  /-- No more than what is left is moved. -/
  bounded : ∀ {moved left call count bytes},
    transfer moved left call = some (.done (count, bytes)) → count ≤ left

/-- `recv` restarts. -/
theorem recvCall_restarts : recvCall.Restarts where
  recv := fun _ _ => Or.inr rfl
  send := fun _ _ => Or.inl fun _ => rfl
  poll := fun _ _ _ => rfl
  connect := fun _ _ _ => rfl
  bounded := by
    intro moved left call count bytes moves
    unfold recvCall at moves
    split at moves
    · obtain ⟨rfl, -⟩ := Prod.mk.inj (Result.done.inj (Option.some.inj moves))
      rw [List.length_take]
      omega
    · cases moves
    · cases moves

/-- `send` restarts. -/
theorem sendCall_restarts (line : Bytes) : (sendCall line).Restarts where
  recv := fun _ _ => Or.inl fun _ => rfl
  send := fun _ _ => Or.inr rfl
  poll := fun _ _ _ => rfl
  connect := fun _ _ _ => rfl
  bounded := by
    intro moved left call count bytes moves
    unfold sendCall at moves
    split at moves
    · obtain ⟨rfl, -⟩ := Prod.mk.inj (Result.done.inj (Option.some.inj moves))
      omega
    · cases moves
    · cases moves

/-- What a loop does after the call that moves bytes. -/
def transferred (transfer : Transfer) (result : Option (Result (Nat × Bytes))) (later : List Call)
    (left errno : Int) (moved : Bytes) : Option LoopEnd :=
  match result with
  | none => none
  | some (.failed ec) =>
    if ec = eintr then transferLoop transfer later left ec moved
    else some ⟨true, left, ec, moved, later⟩
  | some (.done (count, bytes)) =>
    if count = 0 then some ⟨false, left, 0, moved, later⟩
    else transferLoop transfer later (left - count) errno (moved ++ bytes)

/-- A loop over a ready descriptor makes the next call. -/
theorem transferLoop_ready {transfer : Transfer} {calls later : List Call} {call : Call}
    {left errno errno' : Int} (some : 0 < left)
    (waits : pollFor calls errno = .some ⟨1, errno', call :: later⟩) (moved : Bytes) :
    transferLoop transfer calls left errno moved =
      transferred transfer (transfer moved left.toNat call) later left errno' moved := by
  rw [transferLoop, if_neg (by omega)]
  split
  · rename_i wrong
    cases wrong.symm.trans waits
  · rename_i polled found
    obtain rfl := Option.some.inj (found.symm.trans waits)
    rw [if_neg (fun wrong => wrong rfl)]
    rfl

/-- A loop over a ready descriptor without another call is cut short. -/
theorem transferLoop_cut {transfer : Transfer} {calls : List Call} {left errno errno' : Int}
    (some : 0 < left) (waits : pollFor calls errno = .some ⟨1, errno', []⟩) (moved : Bytes) :
    transferLoop transfer calls left errno moved = none := by
  rw [transferLoop, if_neg (by omega)]
  split
  · rfl
  · rename_i polled found
    obtain rfl := Option.some.inj (found.symm.trans waits)
    rfl

/-- A loop whose descriptor does not get ready ends, or is cut short with its sequence. -/
theorem transferLoop_waits {transfer : Transfer} {calls : List Call} {left errno : Int}
    (some : 0 < left) (moved : Bytes) (notReady : ∀ polled, pollFor calls errno = .some polled →
      polled.ret ≠ 1) :
    transferLoop transfer calls left errno moved = (pollFor calls errno).map fun polled =>
      ⟨false, left, polled.errno, moved, polled.calls⟩ := by
  rw [transferLoop, if_neg (by omega)]
  split
  · rename_i cut
    rw [cut]
    rfl
  · rename_i polled found
    rw [if_pos (notReady polled found), found]
    rfl

/-- Two ends of a loop that show the same, with the same `errno` if something is left. -/
inductive SameEnd : Option LoopEnd → Option LoopEnd → Prop
  /-- Neither sequence has the calls. -/
  | none : SameEnd none none
  /-- Both end. -/
  | some {failed : Bool} {left errno errno' : Int} {bytes : Bytes} {base calls : List Call}
    (reported : 0 < left → errno = errno') :
    SameEnd (some ⟨failed, left, errno, bytes, base⟩) (some ⟨failed, left, errno', bytes, calls⟩)

/-- The loop shows the same on both sequences, from any state. -/
def SameLoop (transfer : Transfer) (base calls : List Call) : Prop :=
  ∀ left errno errno' moved, SameEnd (transferLoop transfer base left errno moved)
    (transferLoop transfer calls left errno' moved)

/-- After the same call the loop goes on in the same way. -/
theorem SameLoop.transferred {transfer : Transfer} {base calls : List Call}
    (same : SameLoop transfer base calls) (result : Option (Result (Nat × Bytes)))
    (left errno errno' : Int) (moved : Bytes) :
    SameEnd (transferred transfer result base left errno moved)
      (transferred transfer result calls left errno' moved) := by
  rcases result with _ | ec | ⟨count, bytes⟩
  · exact .none
  · by_cases interrupted : ec = eintr
    · simp only [Sys.transferred, if_pos interrupted]
      exact same left ec ec moved
    · simp only [Sys.transferred, if_neg interrupted]
      exact .some fun _ => rfl
  · by_cases nothing : count = 0
    · simp only [Sys.transferred, if_pos nothing]
      exact .some fun _ => rfl
    · simp only [Sys.transferred, if_neg nothing]
      exact same (left - count) errno errno' (moved ++ bytes)

/-- An interrupted call that moves bytes is made again: the loop waits for the descriptor, which is
ready, and comes to the call that is not interrupted. -/
theorem transferLoop_again {transfer : Transfer} {call broken : Call}
    {base calls again front front' : List Call} {left errno errno' ec ec' : Int} {moved : Bytes}
    (restarts : transfer moved left.toNat call = none ∧ transfer moved left.toNat broken = none ∨
      transfer moved left.toNat broken = some (.failed eintr))
    (some : 0 < left) (waits : Sys.pollFor front errno = .some ⟨1, ec, call :: base⟩)
    (waits' : Sys.pollFor front' errno' = .some ⟨1, ec', broken :: again ++ calls⟩)
    (ready : ReadyAgain again)
    (same : ∀ {ec''}, Sys.pollFor (again ++ calls) eintr = .some ⟨1, ec'', calls⟩ →
      SameEnd (transferLoop transfer front left errno moved)
        (transferLoop transfer (again ++ calls) left eintr moved)) :
    SameEnd (transferLoop transfer front left errno moved)
      (transferLoop transfer front' left errno' moved) := by
  rw [transferLoop_ready some waits']
  rcases restarts with ⟨other, other'⟩ | fails
  · rw [transferLoop_ready some waits, other, other']
    exact .none
  · obtain ⟨ec'', ready⟩ := ready.pollFor calls eintr
    rw [fails]
    simp only [transferred, if_pos]
    exact same ready

/-- The loop over a ready descriptor does not notice interrupted calls, if it does not on what comes
behind. -/
theorem Interrupts.transfer {transfer : Transfer} (restarts : transfer.Restarts)
    {base calls : List Call} (interrupts : Interrupts base calls)
    (same : ∀ {later later'}, later.length < base.length → Interrupts later later' →
      SameLoop transfer later later')
    {front front' : List Call} {left errno errno' ec ec' : Int} (some : 0 < left)
    (waits : Sys.pollFor front errno = .some ⟨1, ec, base⟩)
    (waits' : Sys.pollFor front' errno' = .some ⟨1, ec', calls⟩) (moved : Bytes) :
    SameEnd (transferLoop transfer front left errno moved)
      (transferLoop transfer front' left errno' moved) := by
  induction interrupts generalizing front' errno' ec' with
  | nil =>
    rw [transferLoop_cut some waits, transferLoop_cut some waits']
    exact .none
  | same call later =>
    rw [transferLoop_ready some waits, transferLoop_ready some waits']
    exact (same (Nat.lt_succ_self _) later).transferred _ _ _ _ _
  | poll =>
    rw [transferLoop_ready some waits, transferLoop_ready some waits', restarts.poll,
      restarts.poll]
    exact .none
  | connect =>
    rw [transferLoop_ready some waits, transferLoop_ready some waits', restarts.connect,
      restarts.connect]
    exact .none
  | recv ready later ih =>
    apply transferLoop_again _ some waits waits' ready (ih same waits)
    exact (restarts.recv moved left.toNat).imp_left fun other => ⟨other _, other _⟩
  | send ready later ih =>
    apply transferLoop_again _ some waits waits' ready (ih same waits)
    exact (restarts.send moved left.toNat).imp_left fun other => ⟨other _, other _⟩

/-- The loop does not notice interrupted calls. The induction is on the length of the sequence
without them. -/
theorem Interrupts.transferLoop {transfer : Transfer} (restarts : transfer.Restarts)
    {base calls : List Call} (interrupts : Interrupts base calls) :
    SameLoop transfer base calls := by
  have bounded : ∀ (bound : Nat) {base calls : List Call}, base.length < bound →
      Interrupts base calls → SameLoop transfer base calls := by
    intro bound
    induction bound with
    | zero =>
      intro base calls below
      omega
    | succ bound ih =>
      intro base calls below interrupts left errno errno' moved
      by_cases ended : left ≤ 0
      · rw [Sys.transferLoop, if_pos ended, Sys.transferLoop, if_pos ended]
        exact .some fun some => by omega
      · have some : 0 < left := by omega
        have polls := interrupts.pollFor errno errno'
        generalize waits : Sys.pollFor base errno = polled at polls
        generalize waits' : Sys.pollFor calls errno' = polled' at polls
        cases polls with
        | none =>
          rw [transferLoop_waits some moved (by simp [waits]),
            transferLoop_waits some moved (by simp [waits']), waits, waits']
          exact .none
        | @some ret ec ec' base' calls' later reported =>
          by_cases ready : ret = 1
          · subst ready
            have shorter : base'.length < base.length := pollFor_shorter waits
            apply later.transfer restarts _ some waits waits' moved
            intro rest rest' fewer interrupts
            exact ih (by omega) interrupts
          · have ended := reported ready
            subst ended
            rw [transferLoop_waits some moved (by simp [waits, ready]),
              transferLoop_waits some moved (by simp [waits', ready]), waits, waits']
            exact .some fun _ => rfl
  exact bounded (base.length + 1) (Nat.lt_succ_self _) interrupts

/-- A loop that has something left when it starts never moves more, and fails only with something
left. -/
theorem transferLoop_left {transfer : Transfer} (restarts : transfer.Restarts) {calls : List Call}
    {left errno : Int} (start : 0 ≤ left) {moved : Bytes} {ending : LoopEnd}
    (ends : transferLoop transfer calls left errno moved = some ending) :
    0 ≤ ending.left ∧ (ending.failed = true → 0 < ending.left) := by
  fun_induction transferLoop transfer calls left errno moved with
  | case1 calls left errno moved ended =>
    cases ends
    exact ⟨start, nofun⟩
  | case2 | case4 | case5 => cases ends
  | case3 calls left errno moved some =>
    cases ends
    exact ⟨start, nofun⟩
  | case6 calls left errno moved some polled waits ready call later here shorter fails ih =>
    exact ih start ends
  | case7 calls left errno moved some =>
    cases ends
    exact ⟨start, fun _ => show 0 < left by omega⟩
  | case8 calls left errno moved some =>
    cases ends
    exact ⟨start, nofun⟩
  | case9 calls left errno moved some polled waits ready call later here shorter count bytes moves
      positive ih =>
    have most := restarts.bounded moves
    exact ih (by omega) ends

/-- What a caller of `timed_readn` or `timed_writen` sees: the value, the bytes and, if the value is
not the length, `errno`. -/
def Moved.seen (len : Int) (moved : Moved) : Int × Bytes × Option Int :=
  (moved.ret, moved.bytes, if moved.ret = len then none else some moved.errno)

/-- What a caller of `timed_read` sees: the value, the bytes and, for -1, `errno`. For 0, the end of
the stream, `errno` is not part of it: `recv` sets none, so it is what an earlier call has left, that
of an interrupted `poll` too. `TcpClient::read` takes it for its error all the same. -/
def Moved.shown (moved : Moved) : Int × Bytes × Option Int :=
  (moved.ret, moved.bytes, if moved.ret = -1 then some moved.errno else none)

/-- What a caller of `timed_connect` sees: the value and, for -1, `errno`. -/
def Returned.shown (returned : Returned) : Int × Option Int :=
  (returned.ret, if returned.ret = -1 then some returned.errno else none)

/-- A caller of a loop does not notice interrupted calls. -/
theorem Interrupts.loop_seen {transfer : Transfer} (restarts : transfer.Restarts)
    {base calls : List Call} (interrupts : Interrupts base calls) (len errno : Int) :
    ((Sys.transferLoop transfer base len errno []).map (LoopEnd.result len)).map (Moved.seen len) =
      ((Sys.transferLoop transfer calls len errno []).map (LoopEnd.result len)).map
        (Moved.seen len) := by
  by_cases ended : len ≤ 0
  · rw [Sys.transferLoop, if_pos ended, Sys.transferLoop, if_pos ended]
    rfl
  · have bounds {calls : List Call} {ending : LoopEnd}
        (ends : Sys.transferLoop transfer calls len errno [] = some ending) :=
      transferLoop_left restarts (by omega) ends
    have same := interrupts.transferLoop restarts len errno errno []
    generalize first : Sys.transferLoop transfer base len errno [] = ending at same
    generalize Sys.transferLoop transfer calls len errno [] = ending' at same
    cases same with
    | none => rfl
    | @some failed left ec ec' bytes base' calls' reported =>
      obtain ⟨above, fails⟩ := bounds first
      have above : 0 ≤ left := above
      have fails : failed = true → 0 < left := fails
      by_cases whole : left = 0
      · have succeeds : failed = false := by
          cases failed with
          | false => rfl
          | true =>
            have wrong := fails rfl
            omega
        have full : len - left = len := by omega
        simp [LoopEnd.result, Moved.seen, succeeds, full]
      · rw [reported (by omega)]
        rfl

/-- No call of a sequence is interrupted. -/
def Uninterrupted (calls : List Call) : Prop :=
  .poll (.failed eintr) ∉ calls ∧ .recv (.failed eintr) ∉ calls ∧
    .send (.failed eintr) ∉ calls ∧ .connect (.failed eintr) ∉ calls

instance (calls : List Call) : Decidable (Uninterrupted calls) :=
  inferInstanceAs (Decidable (_ ∧ _ ∧ _ ∧ _))

/-- `timed_read` comes to an interrupted `recv`. -/
def RecvInterrupted (calls : List Call) (errno : Int) : Prop :=
  ∃ errno' later, pollRead calls errno = some ⟨1, errno', .recv (.failed eintr) :: later⟩

/-- `timed_connect` comes to an interrupted `connect`. -/
def ConnectInterrupted (calls : List Call) (errno : Int) : Prop :=
  ∃ errno' later, setNonblock calls errno = some ⟨0, errno', .connect (.failed eintr) :: later⟩

/-- The ways in which an attempt to connect ends with `EALREADY` by itself. -/
def alreadyEnds : List (List Call) := [
  [.connect (.failed ealready)],
  [.connect (.failed einprogress), .poll (.failed ealready)],
  [.connect (.failed einprogress), .poll (.done true), .getError (.failed ealready)],
  [.connect (.failed einprogress), .poll (.done true), .getError (.done ealready)]]

/-- The attempt of a sequence ends with `EALREADY` by itself. -/
def EndsAlready (calls : List Call) (errno : Int) : Prop :=
  ∃ errno' attempt, setNonblock calls errno = some ⟨0, errno', attempt⟩ ∧
    ∃ front ∈ alreadyEnds, front <+: attempt

/-- Waiting takes calls off the end of the sequence. -/
theorem retryPoll_suffix {calls : List Call} {errno : Int} {polled : Returned}
    (returns : retryPoll calls errno = some polled) : polled.calls <:+ calls := by
  fun_induction retryPoll calls errno with
  | case1 calls errno ih => exact (ih returns).trans (List.suffix_cons _ _)
  | case2 ec calls errno other =>
    cases returns
    exact List.suffix_cons _ _
  | case3 ready calls errno =>
    cases returns
    exact List.suffix_cons _ _
  | case4 => cases returns

/-- The calls that waiting leaves are calls of the sequence. -/
theorem pollFor_suffix {calls : List Call} {errno : Int} {polled : Returned}
    (returns : pollFor calls errno = some polled) : polled.calls <:+ calls := by
  obtain ⟨found, polls, same⟩ := Option.bind_eq_some_iff.mp returns
  have suffix := retryPoll_suffix polls
  split at same
  · cases same
    exact suffix
  · cases same
    exact suffix

/-- `timed_read` behind a descriptor that does not get ready. -/
theorem timedRead_waits {calls later : List Call} {errno errno' ret : Int}
    (waits : pollFor calls errno = some ⟨ret, errno', later⟩) (notReady : ret ≠ 1) (len : Nat) :
    timedRead calls len errno = some ⟨-1, errno', [], later⟩ := by
  rw [timedRead, pollRead, waits]
  exact if_pos notReady

/-- `timed_read` behind a descriptor that is ready and an interrupted `recv`. -/
theorem timedRead_interrupted {calls later : List Call} {errno errno' : Int}
    (waits : pollFor calls errno = some ⟨1, errno', .recv (.failed eintr) :: later⟩) (len : Nat) :
    (timedRead calls len errno).map Moved.shown = some (-1, [], some eintr) := by
  rw [timedRead, pollRead, waits]
  rfl

/-- The count that one `recv` returns is the length of what it returns. -/
theorem recv_count (data : Bytes) (len : Nat) :
    toInt32 (data.take (min len maxTransfer)).length =
      (data.take (min len maxTransfer)).length := by
  apply Os.toInt32_small
  rw [List.length_take, maxTransfer]
  omega

/-- `timed_read` behind a ready descriptor and a `recv` that succeeds. -/
theorem timedRead_done {calls later : List Call} {errno errno' : Int} {data : Bytes}
    (waits : pollFor calls errno = some ⟨1, errno', .recv (.done data) :: later⟩) (len : Nat) :
    timedRead calls len errno = some ⟨(data.take (min len maxTransfer)).length, errno',
      data.take (min len maxTransfer), later⟩ := by
  rw [timedRead, pollRead, waits, ← recv_count]
  rfl

/-- `timed_read` behind a descriptor that is ready shows what the next call is. -/
theorem timedRead_ready {base calls later later' : List Call} {errno ec ec' : Int} {call : Call}
    (waits : pollFor base errno = some ⟨1, ec, call :: later⟩)
    (waits' : pollFor calls errno = some ⟨1, ec', call :: later'⟩) (len : Nat) :
    (timedRead base len errno).map Moved.shown = (timedRead calls len errno).map Moved.shown := by
  cases call with
  | recv result =>
    cases result with
    | failed ec =>
      rw [timedRead, timedRead, pollRead, waits, waits']
      rfl
    | done data =>
      have succeeds : ¬ ((data.take (min len maxTransfer)).length : Int) = -1 := by omega
      rw [timedRead_done waits, timedRead_done waits', Option.map_some, Option.map_some,
        Moved.shown, Moved.shown, if_neg succeeds, if_neg succeeds]
  | _ =>
    rw [timedRead, timedRead, pollRead, waits, waits']
    rfl

/-- `timed_read` with no call behind a ready descriptor that it could make is cut short. -/
theorem timedRead_cut {calls later : List Call} {errno errno' : Int}
    (waits : pollFor calls errno = some ⟨1, errno', later⟩)
    (other : ∀ result rest, later ≠ .recv result :: rest) (len : Nat) :
    timedRead calls len errno = none := by
  rw [timedRead, pollRead, waits]
  simp only [Option.bind_eq_bind, Option.bind_some, ne_eq, not_true, if_false]
  split
  · exact absurd rfl (other _ _)
  · exact absurd rfl (other _ _)
  · rfl

/-- What `timed_read` shows of a `recv` that is not interrupted is not an interruption. -/
theorem timedRead_uninterrupted {calls later : List Call} {errno errno' : Int}
    {result : Result Bytes}
    (waits : pollFor calls errno = some ⟨1, errno', .recv result :: later⟩)
    (other : result ≠ .failed eintr) (len : Nat) :
    (timedRead calls len errno).map Moved.shown ≠ some (-1, [], some eintr) := by
  cases result with
  | failed ec =>
    rw [timedRead, pollRead, waits]
    intro same
    have reported : (some ec : Option Int) = some eintr :=
      congrArg (·.2.2) (Option.some.inj same)
    exact other (congrArg Result.failed (Option.some.inj reported))
  | done data =>
    rw [timedRead_done waits]
    intro same
    have wrong : ((data.take (min len maxTransfer)).length : Int) = -1 :=
      congrArg Prod.fst (Option.some.inj same)
    omega

/-- `timed_read` does not notice interrupted calls unless its `recv` is interrupted. -/
theorem Interrupts.timedRead_iff {base calls : List Call} (interrupts : Interrupts base calls)
    (uninterrupted : Uninterrupted base) (len : Nat) (errno : Int) :
    (timedRead base len errno).map Moved.shown = (timedRead calls len errno).map Moved.shown ↔
      ¬ RecvInterrupted calls errno := by
  have polls := interrupts.pollFor errno errno
  generalize waits : Sys.pollFor base errno = polled at polls
  generalize waits' : Sys.pollFor calls errno = polled' at polls
  cases polls with
  | none =>
    have quiet : ¬ RecvInterrupted calls errno := by
      rintro ⟨errno', later, wrong⟩
      cases waits'.symm.trans wrong
    refine iff_of_true ?_ quiet
    rw [timedRead, timedRead, pollRead, waits, waits']
  | @some ret ec ec' later later' interrupts reported =>
    by_cases ready : ret = 1
    · subst ready
      have comes : RecvInterrupted calls errno ↔
          ∃ rest, later' = .recv (.failed eintr) :: rest := by
        constructor
        · rintro ⟨errno', rest, found⟩
          have same := Option.some.inj (waits'.symm.trans found)
          exact ⟨rest, congrArg Returned.calls same⟩
        · rintro ⟨rest, rfl⟩
          exact ⟨ec', rest, waits'⟩
      have cut (other : ∀ result rest, later ≠ .recv result :: rest)
          (other' : ∀ result rest, later' ≠ .recv result :: rest) :
          (timedRead base len errno).map Moved.shown =
              (timedRead calls len errno).map Moved.shown ↔ ¬ RecvInterrupted calls errno := by
        rw [timedRead_cut waits other, timedRead_cut waits' other', comes]
        refine iff_of_true rfl ?_
        rintro ⟨rest, wrong⟩
        exact other' _ rest wrong
      cases interrupts with
      | nil => exact cut nofun nofun
      | @same call =>
        have member : call ∈ base := (pollFor_suffix waits).subset List.mem_cons_self
        refine iff_of_true (timedRead_ready waits waits' len) ?_
        intro interrupted
        obtain ⟨rest, wrong⟩ := comes.mp interrupted
        have interrupted : call = .recv (.failed eintr) := (List.cons.inj wrong).1
        rw [interrupted] at member
        exact uninterrupted.2.1 member
      | poll => exact cut nofun nofun
      | @recv result base' calls' again =>
        refine iff_of_false (fun same => ?_) (not_not.mpr (comes.mpr ⟨_, rfl⟩))
        rw [timedRead_interrupted waits'] at same
        have member : .recv result ∈ base := (pollFor_suffix waits).subset List.mem_cons_self
        have other : result ≠ .failed eintr := by
          intro wrong
          rw [wrong] at member
          exact uninterrupted.2.1 member
        exact timedRead_uninterrupted waits other len same
      | send => exact cut nofun nofun
      | connect => exact cut nofun nofun
    · have quiet : ¬ RecvInterrupted calls errno := by
        rintro ⟨errno', rest, wrong⟩
        have same := Option.some.inj (waits'.symm.trans wrong)
        exact ready (congrArg Returned.ret same)
      refine iff_of_true ?_ quiet
      rw [timedRead_waits waits ready, timedRead_waits waits' ready, reported ready]
      rfl

/-- Setting the flags does not notice interrupted calls. -/
theorem Interrupts.setNonblock {base calls : List Call} (interrupts : Interrupts base calls)
    (errno : Int) : SamePoll (setNonblock base errno) (setNonblock calls errno) := by
  cases interrupts with
  | nil => exact .none
  | @same call base calls later =>
    cases call with
    | getFlags result =>
      rcases result with ec | _ | _
      · exact .some later fun _ => rfl
      · cases later with
        | @same call base calls later =>
          cases call with
          | setFlags result =>
            cases result with
            | failed ec => exact .some later fun _ => rfl
            | done set => exact .some later fun _ => rfl
          | _ => exact .none
        | _ => exact .none
      · exact .some later fun _ => rfl
    | _ => exact .none
  | poll => exact .none
  | recv => exact .none
  | send => exact .none
  | connect => exact .none

/-- Waiting for the end of an attempt does not notice interrupted calls. -/
theorem Interrupts.awaitConnected {base calls : List Call} (interrupts : Interrupts base calls)
    (errno errno' : Int) : (awaitConnected base errno).map Returned.shown =
      (awaitConnected calls errno').map Returned.shown := by
  have polls := interrupts.pollFor errno errno'
  unfold Sys.awaitConnected
  generalize Sys.pollFor base errno = polled at polls
  generalize Sys.pollFor calls errno' = polled' at polls
  cases polls with
  | none => rfl
  | @some ret ec ec' later later' interrupts reported =>
    by_cases ready : ret = 1
    · subst ready
      cases interrupts with
      | nil => rfl
      | @same call =>
        cases call with
        | getError result =>
          cases result with
          | failed ec => rfl
          | done err =>
            by_cases none : err = 0
            · subst none
              rfl
            · simp only [Option.bind_eq_bind, Option.bind_some, ne_eq, not_true, if_false, none,
                not_false_eq_true, if_true]
              rfl
        | _ => rfl
      | poll => rfl
      | recv => rfl
      | send => rfl
      | connect => rfl
    · rw [reported ready]
      simp only [Option.bind_eq_bind, Option.bind_some, ne_eq, ready, not_false_eq_true, if_true]
      rfl

/-- An attempt whose pending error cannot be read fails. -/
theorem awaitConnected_failed (ec : Int) (rest : List Call) (errno : Int) :
    awaitConnected (.poll (.done true) :: .getError (.failed ec) :: rest) errno =
      some ⟨-1, ec, rest⟩ := rfl

/-- An attempt ends with its pending error. -/
theorem awaitConnected_done (err : Int) (rest : List Call) (errno : Int) :
    awaitConnected (.poll (.done true) :: .getError (.done err) :: rest) errno =
      if err ≠ 0 then some ⟨-1, err, rest⟩ else some ⟨0, errno, rest⟩ := rfl

/-- The ways in which an attempt in progress ends with `EALREADY`. -/
def awaitEnds : List (List Call) := [
  [.poll (.failed ealready)],
  [.poll (.done true), .getError (.failed ealready)],
  [.poll (.done true), .getError (.done ealready)]]

/-- An attempt in progress ends with `EALREADY` in one of these ways only. -/
theorem awaitConnected_already {calls : List Call} (uninterrupted : Uninterrupted calls)
    (errno : Int) : (awaitConnected calls errno).map Returned.shown = some (-1, some ealready) ↔
      ∃ front ∈ awaitEnds, front <+: calls := by
  have ends : (∃ front ∈ awaitEnds, front <+: calls) ↔ [.poll (.failed ealready)] <+: calls ∨
      [.poll (.done true), .getError (.failed ealready)] <+: calls ∨
      [.poll (.done true), .getError (.done ealready)] <+: calls := by
    simp [awaitEnds]
  rw [ends]
  cases calls with
  | nil =>
    refine iff_of_false nofun ?_
    simp
  | cons call rest =>
    cases call with
    | poll result =>
      cases result with
      | failed ec =>
        have other : ec ≠ eintr := by
          rintro rfl
          exact uninterrupted.1 List.mem_cons_self
        have fails : awaitConnected (.poll (.failed ec) :: rest) errno = some ⟨-1, ec, rest⟩ := by
          rw [awaitConnected, pollFor, retryPoll, if_neg other]
          rfl
        rw [fails]
        simp [Returned.shown, List.cons_prefix_cons, eq_comm]
      | done ready =>
        cases ready with
        | false =>
          refine iff_of_false (fun wrong => ?_) (by simp [List.cons_prefix_cons])
          have same : (some etimedout : Option Int) = some ealready :=
            congrArg Prod.snd (Option.some.inj wrong)
          exact absurd same (by decide)
        | true =>
          cases rest with
          | nil =>
            refine iff_of_false nofun ?_
            simp
          | cons next rest =>
            cases next with
            | getError result =>
              cases result with
              | failed ec =>
                rw [awaitConnected_failed]
                simp [Returned.shown, List.cons_prefix_cons, eq_comm]
              | done err =>
                rw [awaitConnected_done]
                by_cases none : err = 0
                · subst none
                  refine iff_of_false nofun ?_
                  simp [List.cons_prefix_cons, ealready]
                · simp [Returned.shown, none, List.cons_prefix_cons, eq_comm]
            | _ =>
              refine iff_of_false nofun ?_
              simp [List.cons_prefix_cons]
    | _ =>
      refine iff_of_false nofun ?_
      simp [List.cons_prefix_cons]

/-- What `connect` returns if it is not interrupted. -/
theorem retryConnect_failed {ec : Int} (other : ec ≠ eintr) (later : List Call) (errno : Int) :
    retryConnect (.connect (.failed ec) :: later) errno = some ⟨-1, ec, later⟩ := by
  rw [retryConnect, if_neg other]

/-- A `connect` that fails ends the attempt, if it is not in progress. -/
theorem attemptConnect_failed {ec : Int} (other : ec ≠ eintr) (ended : ec ≠ einprogress)
    (later : List Call) (errno : Int) :
    attemptConnect (.connect (.failed ec) :: later) errno = some ⟨-1, ec, later⟩ := by
  rw [attemptConnect, retryConnect_failed other]
  exact if_pos ended

/-- A `connect` that is in progress leaves an attempt to wait for. -/
theorem attemptConnect_progress (later : List Call) (errno : Int) :
    attemptConnect (.connect (.failed einprogress) :: later) errno =
      awaitConnected later einprogress := by
  rw [attemptConnect, retryConnect_failed (by decide)]
  rfl

/-- An interrupted `connect` ends the attempt with `EALREADY`. -/
theorem attemptConnect_interrupted (later : List Call) (errno : Int) :
    attemptConnect (.connect (.failed eintr) :: .connect (.failed ealready) :: later) errno =
      some ⟨-1, ealready, later⟩ := by
  have skips : retryConnect (.connect (.failed eintr) :: .connect (.failed ealready) :: later)
      errno = some ⟨-1, ealready, later⟩ := by
    rw [retryConnect, if_pos rfl, retryConnect_failed (by decide)]
  rw [attemptConnect, skips]
  rfl

/-- The end of a sequence without interrupted calls has none. -/
theorem Uninterrupted.suffix {calls later : List Call} (uninterrupted : Uninterrupted calls)
    (suffix : later <:+ calls) : Uninterrupted later := by
  obtain ⟨poll, recv, send, connect⟩ := uninterrupted
  exact ⟨fun member => poll (suffix.subset member), fun member => recv (suffix.subset member),
    fun member => send (suffix.subset member), fun member => connect (suffix.subset member)⟩

/-- An attempt that is not interrupted ends with `EALREADY` in one of the known ways only. -/
theorem attemptConnect_already {result : Result Unit} {later : List Call}
    (uninterrupted : Uninterrupted (.connect result :: later)) (errno : Int) :
    (attemptConnect (.connect result :: later) errno).map Returned.shown =
        some (-1, some ealready) ↔
      ∃ front ∈ alreadyEnds, front <+: .connect result :: later := by
  have ends : (∃ front ∈ alreadyEnds, front <+: .connect result :: later) ↔
      result = .failed ealready ∨
        result = .failed einprogress ∧ ∃ front ∈ awaitEnds, front <+: later := by
    simp [alreadyEnds, awaitEnds, List.cons_prefix_cons, eq_comm, and_or_left]
  rw [ends]
  cases result with
  | done connected =>
    refine iff_of_false (fun wrong => ?_) (by simp)
    have same : (none : Option Int) = some ealready :=
      congrArg Prod.snd (Option.some.inj wrong)
    cases same
  | failed ec =>
    have other : ec ≠ eintr := by
      rintro rfl
      exact uninterrupted.2.2.2 List.mem_cons_self
    by_cases progress : ec = einprogress
    · subst progress
      rw [attemptConnect_progress,
        awaitConnected_already (uninterrupted.suffix (List.suffix_cons _ _))]
      constructor
      · intro ends
        exact Or.inr ⟨rfl, ends⟩
      · rintro (wrong | ⟨-, ends⟩)
        · exact absurd wrong (by decide)
        · exact ends
    · rw [attemptConnect_failed other progress]
      simp [Returned.shown, progress]

/-- An attempt does not notice interrupted calls unless its `connect` is interrupted and it does
not end with `EALREADY` by itself. -/
theorem Interrupts.attemptConnect_iff {base calls : List Call} (interrupts : Interrupts base calls)
    (uninterrupted : Uninterrupted base) (errno : Int) :
    (attemptConnect base errno).map Returned.shown =
        (attemptConnect calls errno).map Returned.shown ↔
      ((∃ later, calls = .connect (.failed eintr) :: later) →
        ∃ front ∈ alreadyEnds, front <+: base) := by
  have quiet {call : Call} {rest : List Call} (here : calls = call :: rest)
      (other : call ≠ .connect (.failed eintr))
      (same : (attemptConnect base errno).map Returned.shown =
        (attemptConnect calls errno).map Returned.shown) :
      ((attemptConnect base errno).map Returned.shown =
        (attemptConnect calls errno).map Returned.shown ↔
      ((∃ later, calls = .connect (.failed eintr) :: later) →
        ∃ front ∈ alreadyEnds, front <+: base)) := by
    refine iff_of_true same ?_
    rintro ⟨later, wrong⟩
    rw [here] at wrong
    exact absurd (List.cons.inj wrong).1 other
  cases interrupts with
  | nil =>
    refine iff_of_true rfl ?_
    rintro ⟨later, wrong⟩
    cases wrong
  | @same call base calls later =>
    apply quiet rfl
    · rintro rfl
      exact uninterrupted.2.2.2 List.mem_cons_self
    · cases call with
      | connect result =>
        cases result with
        | done connected => rfl
        | failed ec =>
          have other : ec ≠ eintr := by
            rintro rfl
            exact uninterrupted.2.2.2 List.mem_cons_self
          by_cases progress : ec = einprogress
          · subst progress
            rw [attemptConnect_progress, attemptConnect_progress]
            exact later.awaitConnected _ _
          · rw [attemptConnect_failed other progress, attemptConnect_failed other progress]
            rfl
      | _ => rfl
  | poll => exact quiet rfl nofun rfl
  | recv => exact quiet rfl nofun rfl
  | send => exact quiet rfl nofun rfl
  | @connect result base calls later =>
    rw [attemptConnect_interrupted]
    have ends := attemptConnect_already uninterrupted errno
    constructor
    · intro same _
      exact ends.mp same
    · intro ended
      exact ends.mpr (ended ⟨_, rfl⟩)

/-- `set_nonblock` returns 0 or -1 and takes its calls off the front. -/
theorem setNonblock_returns {calls : List Call} {errno : Int} {set : Returned}
    (returns : setNonblock calls errno = some set) :
    (set.ret = 0 ∨ set.ret = -1) ∧ set.calls <:+ calls := by
  unfold setNonblock at returns
  split at returns
  · cases returns
    exact ⟨Or.inr rfl, List.suffix_cons _ _⟩
  · cases returns
    exact ⟨Or.inl rfl, List.suffix_cons _ _⟩
  · cases returns
    exact ⟨Or.inr rfl, (List.suffix_cons _ _).trans (List.suffix_cons _ _)⟩
  · cases returns
    exact ⟨Or.inl rfl, (List.suffix_cons _ _).trans (List.suffix_cons _ _)⟩
  · cases returns

/-- `timed_connect` does not notice interrupted calls unless its `connect` is interrupted and the
attempt does not end with `EALREADY` by itself. -/
theorem Interrupts.timedConnect_iff {base calls : List Call} (interrupts : Interrupts base calls)
    (uninterrupted : Uninterrupted base) (errno : Int) :
    (timedConnect base errno).map Returned.shown =
        (timedConnect calls errno).map Returned.shown ↔
      (ConnectInterrupted calls errno → EndsAlready base errno) := by
  have sets := interrupts.setNonblock errno
  have returns {set : Returned} (same : Sys.setNonblock base errno = some set) :=
    setNonblock_returns same
  rw [timedConnect, timedConnect, ConnectInterrupted, EndsAlready]
  generalize Sys.setNonblock base errno = set at sets returns
  generalize Sys.setNonblock calls errno = set' at sets
  cases sets with
  | none =>
    refine iff_of_true rfl ?_
    rintro ⟨errno', later, wrong⟩
    cases wrong
  | @some ret ec ec' later later' interrupts reported =>
    obtain ⟨returned, suffix⟩ := returns rfl
    have returned : ret = 0 ∨ ret = -1 := returned
    have same : ec = ec' := reported (by omega)
    subst same
    rcases returned with rfl | rfl
    · have attempt := interrupts.attemptConnect_iff (uninterrupted.suffix suffix) ec
      change (attemptConnect later ec).map Returned.shown =
        (attemptConnect later' ec).map Returned.shown ↔ _
      rw [attempt]
      constructor
      · rintro ended ⟨errno', rest, here⟩
        have here := congrArg Returned.calls (Option.some.inj here)
        obtain ⟨front, member, shape⟩ := ended ⟨rest, here⟩
        exact ⟨ec, later, rfl, front, member, shape⟩
      · rintro ended ⟨rest, here⟩
        obtain ⟨errno', attempt, found, front, member, shape⟩ := ended ⟨ec, rest, by rw [here]⟩
        have same : later = attempt := congrArg Returned.calls (Option.some.inj found)
        rw [same]
        exact ⟨front, member, shape⟩
    · refine iff_of_true rfl ?_
      rintro ⟨errno', rest, wrong⟩
      have wrong : (-1 : Int) = 0 := congrArg Returned.ret (Option.some.inj wrong)
      cases wrong

/-- Interrupted system calls are invisible in `timed_readn` and in `timed_writen`; in `timed_read`
exactly if its `recv` is not interrupted, and in `timed_connect` exactly if its `connect` is not
interrupted or the attempt ends with `EALREADY` anyway. -/
theorem interrupts_invisible_iff {base calls : List Call} (interrupts : Interrupts base calls)
    (uninterrupted : Uninterrupted base) (errno : Int) :
    (∀ len, (timedReadn base len errno).map (Moved.seen (toInt32 len)) =
      (timedReadn calls len errno).map (Moved.seen (toInt32 len))) ∧
    (∀ line, (timedWriten base line errno).map (Moved.seen (toInt32 line.length)) =
      (timedWriten calls line errno).map (Moved.seen (toInt32 line.length))) ∧
    (∀ len, (timedRead base len errno).map Moved.shown =
      (timedRead calls len errno).map Moved.shown ↔ ¬ RecvInterrupted calls errno) ∧
    ((timedConnect base errno).map Returned.shown = (timedConnect calls errno).map Returned.shown ↔
      (ConnectInterrupted calls errno → EndsAlready base errno)) := by
  refine ⟨fun len => ?_, fun line => ?_, fun len => ?_, ?_⟩
  · exact interrupts.loop_seen recvCall_restarts _ _
  · exact interrupts.loop_seen (sendCall_restarts line) _ _
  · exact interrupts.timedRead_iff uninterrupted len errno
  · exact interrupts.timedConnect_iff uninterrupted errno

/-- An answer is there, and `recv` takes it. -/
def oneAnswer : List Call := [.poll (.done true), .recv (.done [43])]

/-- A signal interrupts `recv`. -/
def oneAnswerInterrupted : List Call :=
  [.poll (.done true), .recv (.failed eintr), .poll (.done true), .recv (.done [43])]

/-- A server accepts a connection at the first attempt. -/
def oneConnect : List Call :=
  [.getFlags (.done false), .setFlags (.done ()), .connect (.failed einprogress),
    .poll (.done true), .getError (.done 0)]

/-- A signal interrupts `connect`. -/
def oneConnectInterrupted : List Call :=
  [.getFlags (.done false), .setFlags (.done ()), .connect (.failed eintr),
    .connect (.failed ealready), .poll (.done true), .getError (.done 0)]

/-- `timed_readn` gets the answer in spite of the signal. -/
theorem interrupts_invisible_iff_readn :
    (timedReadn oneAnswer 1 0).map (Moved.seen 1) =
      (timedReadn oneAnswerInterrupted 1 0).map (Moved.seen 1) := by
  have interrupts : Interrupts oneAnswer oneAnswerInterrupted :=
    .same _ (.recv .found (.same _ .nil))
  have uninterrupted : Uninterrupted oneAnswer := by decide
  exact (interrupts_invisible_iff interrupts uninterrupted 0).1 1

/-- `timed_read` and `timed_connect` fail at the signal. -/
theorem interrupts_visible :
    (Interrupts oneAnswer oneAnswerInterrupted ∧ Uninterrupted oneAnswer ∧
      (timedRead oneAnswer 1 0).map Moved.shown ≠
        (timedRead oneAnswerInterrupted 1 0).map Moved.shown) ∧
    Interrupts oneConnect oneConnectInterrupted ∧ Uninterrupted oneConnect ∧
      (timedConnect oneConnect 0).map Returned.shown = some (0, none) ∧
      (timedConnect oneConnectInterrupted 0).map Returned.shown = some (-1, some ealready) := by
  refine ⟨⟨.same _ (.recv .found (.same _ .nil)), by decide, by decide⟩, ?_, by decide, by decide,
    by decide⟩
  exact .same _ (.same _ (.connect (.same _ (.same _ .nil))))

end Sys

end LibRedis
