import LibRedis.RedisMethods
import LibRedis.ServerHistory

/-!
# Counting over connections that break

A call that fails may have been executed or not. What a client can rely on when it counts is what
`calls_executed_once` leaves: no INCR counts twice, none that has returned true is lost, and no number
is told twice.
-/

namespace LibRedis

open Resp (Reply)
open RedisProtocol (requestOf)

namespace Redis2

variable {σ : Type} {server : Server σ}

/-- INCR of a key, as `incr` sends it. -/
def incrCommand (key : Bytes) : RedisCommand := keyed .incr key

/-- A server that counts under a key, in its only database. -/
structure Counts (server : Server σ) (key : Bytes) (value : σ → Int) : Prop extends
    Keeps server value where
  /-- INCR counts one and tells the number, or it is answered by an error. -/
  incr (state : σ) :
    ((server.handle state (requestOf (incrCommand key))).1 = .integer (value state + 1) ∧
      value (server.handle state (requestOf (incrCommand key))).2 = value state + 1) ∨
    ((∃ text, (server.handle state (requestOf (incrCommand key))).1 = .error text) ∧
      value (server.handle state (requestOf (incrCommand key))).2 = value state)

/-- A call in a run that only counts under this key. -/
def Sending.Counting (key : Bytes) : Sending → Prop
  | .connect | .close | .select _ => True
  | .exec c | .blocking c | .checked c => c = incrCommand key
  | .execv _ _ | .checkedv _ _ => False

/-- Whether a call counts. -/
def Sending.isCount (sending : Sending) : Bool := sending.command.isSome

/-- The numbers that the calls have told. -/
def told (calls : List Sent) : List Int :=
  calls.filterMap fun sent => if sent.1.isCount && sent.2.1 then sent.2.2.takeI else none

variable {key : Bytes} {value : σ → Int}

/-- An INCR that is answered counts one, or it is answered by an error; if it succeeds, it tells the
number that it has made. -/
theorem Counts.answered (counts : Counts server key value) {first last : σ} {ok : Bool}
    {out : RedisOutput} (answered : Answered server value first last (incrCommand key) ok out) :
    (value last = value first ∨ value last = value first + 1) ∧
      (ok = true → value last = value first + 1 ∧ out.takeI = some (value last)) := by
  rcases answered with ⟨same, rfl⟩ | ⟨state, before, after, succeeds⟩
  · exact ⟨Or.inl same, by simp⟩
  · rw [after, ← before]
    rcases counts.incr state with ⟨number, next⟩ | ⟨⟨text, error⟩, next⟩
    · refine ⟨Or.inr next, fun yes => ⟨next, ?_⟩⟩
      obtain ⟨mode, accepts, rfl⟩ := succeeds yes
      rw [number] at accepts ⊢
      rw [next, accepts_own accepts (by simp)]
      rfl
    · refine ⟨Or.inl next, fun yes => ?_⟩
      obtain ⟨mode, accepts, -⟩ := succeeds yes
      have readable := accepts.readable
      rw [error] at readable
      cases readable

/-- A call counts at most one, and exactly one if it tells a number, which is then the one it has
made. -/
theorem Counts.piece (counts : Counts server key value) {first last : σ} {sent : Sent}
    (counting : sent.1.Counting key) {entries : List Entry}
    (accounts : sent.1.Accounts sent.2.1 sent.2.2 entries)
    (history : server.History first entries last) :
    (told [sent] = [] ∧ (value last = value first ∨
      (sent.1.isCount = true ∧ value last = value first + 1))) ∨
    (told [sent] = [value last] ∧ sent.1.isCount = true ∧ value last = value first + 1) := by
  obtain ⟨sending, ok, out⟩ := sent
  have quiet (quiet : sending = .connect ∨ sending = .close ∨ ∃ index, sending = .select index) :
      told [(sending, ok, out)] = [] ∧ value last = value first := by
    refine ⟨?_, counts.quiet accounts quiet history⟩
    rcases quiet with rfl | rfl | ⟨index, rfl⟩ <;> rfl
  have command (named : sending.command = some (incrCommand key)) :
      (told [(sending, ok, out)] = [] ∧ (value last = value first ∨
        (sending.isCount = true ∧ value last = value first + 1))) ∨
      (told [(sending, ok, out)] = [value last] ∧ sending.isCount = true ∧
        value last = value first + 1) := by
    have does := counts.answered (counts.call named accounts history)
    have yes : sending.isCount = true := by rw [Sending.isCount, named, Option.isSome_some]
    cases ok with
    | false =>
      refine Or.inl ⟨by simp [told], ?_⟩
      rcases does.1 with same | more
      · exact Or.inl same
      · exact Or.inr ⟨yes, more⟩
    | true =>
      obtain ⟨more, tells⟩ := does.2 rfl
      exact Or.inr ⟨by simp [told, yes, tells], yes, more⟩
  cases sending with
  | connect =>
    obtain ⟨silent, same⟩ := quiet (Or.inl rfl)
    exact Or.inl ⟨silent, Or.inl same⟩
  | close =>
    obtain ⟨silent, same⟩ := quiet (Or.inr (Or.inl rfl))
    exact Or.inl ⟨silent, Or.inl same⟩
  | select index =>
    obtain ⟨silent, same⟩ := quiet (Or.inr (Or.inr ⟨index, rfl⟩))
    exact Or.inl ⟨silent, Or.inl same⟩
  | exec c => exact command (congrArg some counting)
  | blocking c => exact command (congrArg some counting)
  | checked c => exact command (congrArg some counting)
  | execv c buf => cases counting
  | checkedv c buf => cases counting

/-- Numbers told by calls in turn. -/
theorem told_cons (sent : Sent) (calls : List Sent) :
    told (sent :: calls) = told [sent] ++ told calls :=
  List.filterMap_append (l := [sent])

/-- Along a history that falls into pieces for calls that count, the numbers told grow, they lie
between the first number and the last, and the number grows by what was told at least and by what was
called at most. -/
theorem Counts.pieces (counts : Counts server key value) {first last : σ} {calls : List Sent}
    {pieces : List (List Entry)} (counting : ∀ sent ∈ calls, sent.1.Counting key)
    (accounts : List.Forall₂ (fun (sent : Sent) entries =>
      sent.1.Accounts sent.2.1 sent.2.2 entries) calls pieces)
    (history : server.History first pieces.flatten last) :
    (told calls).Pairwise (· < ·) ∧
      (∀ number ∈ told calls, value first < number ∧ number ≤ value last) ∧
      value first + (told calls).length ≤ value last ∧
      value last ≤ value first + calls.countP fun sent => sent.1.isCount := by
  induction accounts generalizing first with
  | nil =>
    rw [counts.idle history]
    exact ⟨.nil, by simp [told], by simp [told], by simp⟩
  | @cons sent entries calls pieces accounts all ih =>
    rw [List.flatten_cons] at history
    obtain ⟨middle, before, behind⟩ := history.split
    obtain ⟨grow, between, least, most⟩ :=
      ih (fun later member => counting later (List.mem_cons_of_mem _ member)) behind
    rw [told_cons, List.countP_cons]
    rcases counts.piece (counting sent List.mem_cons_self) accounts before with
      ⟨silent, same | ⟨counted, more⟩⟩ | ⟨tells, counted, more⟩
    · rw [silent, List.nil_append, ← same]
      refine ⟨grow, between, least, ?_⟩
      push_cast
      split_ifs <;> omega
    · rw [silent, List.nil_append, if_pos counted]
      refine ⟨grow, fun number member => ?_, by omega, by push_cast; omega⟩
      have later := between number member
      omega
    · rw [tells, if_pos counted]
      refine ⟨List.pairwise_cons.mpr ⟨fun number member => (between number member).1, grow⟩, ?_, ?_,
        by push_cast; omega⟩
      · intro number member
        rcases List.mem_cons.mp member with rfl | later
        · omega
        · have later := between number later
          omega
      · simp only [List.singleton_append, List.length_cons]
        push_cast
        omega

/-- In every run of a new client that only counts under a key, whatever becomes of its connections, no
number is told twice, they are told in order, and the number at the server has grown by the calls
that told one at least and by all that counted at most. -/
theorem counts_exactly (whole : AnswersWhole server) (counts : Counts server key value)
    (host port : Bytes) (dbIndex : Int32) (timeout : Int) {os : Os (Endpoint server)}
    (silent : os.incoming = []) {r' : Redis2 (Endpoint server)} {calls : List Sent}
    (run : Simulation.Run Sends (new host port dbIndex timeout os) calls r')
    (counting : ∀ sent ∈ calls, sent.1.Counting key) :
    (told calls).Pairwise (· < ·) ∧
      (∀ number ∈ told calls, value os.peer.state < number ∧ number ≤ value r'.proto.served) ∧
      value os.peer.state + (told calls).length ≤ value r'.proto.served ∧
      value r'.proto.served ≤ value os.peer.state + calls.countP fun sent => sent.1.isCount := by
  obtain ⟨pieces, accounts, history⟩ :=
    run_accounts whole run (new_synced host port dbIndex timeout silent)
  exact counts.pieces counting accounts history

/-- A server that counts under one key, as far as a number goes. -/
def counting (key : Bytes) : Server Int where
  fresh number := number
  handle number args :=
    if args = requestOf (incrCommand key) then
      if number + 1 < 2 ^ 63 then (.integer (number + 1), number + 1)
      else (.error (Decimal.ascii "ERR increment or decrement would overflow"), number)
    else (.status (Decimal.ascii "OK"), number)

/-- It answers whole. -/
theorem counting_whole (key : Bytes) : AnswersWhole (counting key) := by
  intro number args
  simp only [counting]
  split_ifs
  · exact ⟨.integer _, Or.inr (.integer _)⟩
  · exact ⟨.error (by decide), Or.inl ⟨_, rfl⟩⟩
  · exact ⟨.status (by decide), Or.inr (.status _)⟩

/-- And it counts. -/
theorem counting_counts (key : Bytes) : Counts (counting key) key id where
  incr number := by
    simp only [counting, if_pos]
    split_ifs
    · exact Or.inl ⟨rfl, rfl⟩
    · exact Or.inr ⟨⟨_, rfl⟩, rfl⟩
  select number index := by
    have other : requestOf (selectCommand index) ≠ requestOf (incrCommand key) := by
      intro same
      have names : Command.select.commandInfo.commandStr = Command.incr.commandInfo.commandStr :=
        (List.cons.inj same).1
      exact absurd names (by decide +kernel)
    simp only [counting, if_neg other, id]
  fresh number := rfl

/-- A client of such a server that gives up waiting for the first reply. -/
def impatientCounter : Redis2 (Endpoint (counting (Decimal.ascii "k"))) :=
  new (Decimal.ascii "localhost") (Decimal.ascii "6379") 0 1000
    (.start ⟨[], 0⟩ [.timeout, .chunk 100, .chunk 100])

/-- It counts twice: the first time is executed but not told, the second tells the number two. -/
theorem counts_exactly_late : ∃ (calls : List Sent)
    (last : Redis2 (Endpoint (counting (Decimal.ascii "k")))),
    told calls = [2] ∧ calls.length = 2 ∧ (told calls).Pairwise (· < ·) ∧
      (∀ number ∈ told calls, 0 < number ∧ number ≤ last.proto.served) ∧
      0 + ((told calls).length : Int) ≤ last.proto.served ∧
      last.proto.served ≤ 0 + (calls.countP fun sent => sent.1.isCount : Nat) := by
  have shows : (sendAll [.exec (incrCommand (Decimal.ascii "k")),
      .exec (incrCommand (Decimal.ascii "k"))] impatientCounter).toOption.map
        (fun returned => (told returned.1, returned.1.length)) = some ([2], 2) := by decide +kernel
  obtain ⟨⟨calls, last⟩, returns, seen⟩ := returned_of_view shows
  obtain ⟨tells, length⟩ := Prod.mk.inj seen
  obtain ⟨run, names⟩ := run_of_sendAll (by
    intro sending member
    have same : sending = .exec (incrCommand (Decimal.ascii "k")) := by simpa using member
    rw [same]
    exact (by decide +kernel : (RedisProtocol.commandText
      (incrCommand (Decimal.ascii "k"))).length < 2 ^ 31)) returns
  have all : ∀ sent ∈ calls, sent.1.Counting (Decimal.ascii "k") := by
    intro sent member
    have named := List.mem_map_of_mem (f := Prod.fst) member
    rw [names] at named
    have same : sent.1 = .exec (incrCommand (Decimal.ascii "k")) := by simpa using named
    rw [same]
    rfl
  exact ⟨calls, last, tells, length, counts_exactly (counting_whole _) (counting_counts _) _ _ 0 _
    rfl run all⟩

end Redis2

end LibRedis
