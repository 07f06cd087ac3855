import LibRedis.Connection
import LibRedis.Lib.Simulation

/-!
# A connection found dead

`is_open` looks at the socket only if the last look or write is older than the interval. A look that
finds the end of the connection counts as a look like any other and leaves the descriptor, so that a
query within the interval reports the connection open again. A connection that was given up, by a
write that failed, stays closed.
-/

namespace LibRedis

open Decimal (ascii)

/-- What `is_open_slow` can find at a connected socket. -/
inductive Socket where
  /-- The peer has not closed: the socket is open. -/
  | alive
  /-- The peer has closed: there may be bytes before the end. -/
  | closing
  /-- A peek has found the end, and every later one does. -/
  | dead
  deriving DecidableEq, Repr

namespace Socket

/-- Whether `is_open_slow` can have this result. -/
def Finds : Socket → Bool → Prop
  | alive, found => found = true
  | closing, _ => True
  | dead, found => found = false

/-- The peer closes. -/
def close : Socket → Socket
  | alive => closing
  | socket => socket

end Socket

namespace TcpClient

variable {π : Type}

/-- The time of the last look or write is older than the interval. -/
def Outdated (c : TcpClient π) : Prop :=
  c.os.time.1 - c.lastCheckOpenTime > kCheckOpenInterval

instance (c : TcpClient π) : Decidable c.Outdated := inferInstanceAs (Decidable (_ > _))

/-- `is_open` reports a closed connection if there is no descriptor, or at a look that finds the
end. -/
theorem isOpen_closed_iff (c : TcpClient π) :
    c.isOpen.1 = false ↔ c.fd = -1 ∨ c.Outdated ∧ c.os.isOpenSlow.1 = false := by
  rw [isOpen]
  by_cases gone : c.fd = -1
  · rw [if_pos gone]
    simp [gone]
  · rw [if_neg gone]
    by_cases outdated : c.Outdated
    · have due : c.os.time.1 - c.lastCheckOpenTime > kCheckOpenInterval := outdated
      simp only [due, if_true, gone, outdated, true_and, false_or]
      rfl
    · have soon : ¬ c.os.time.1 - c.lastCheckOpenTime > kCheckOpenInterval := outdated
      simp [soon, gone, outdated]

/-- `is_open` keeps the descriptor. -/
theorem isOpen_fd (c : TcpClient π) : c.isOpen.2.fd = c.fd := by
  obtain ⟨isOpen, last, clock, ticks, probes, errno, looks, -⟩ := c.isOpen_cases
  rw [looks]

/-- A write on a connection that was given up does not bring it back. -/
theorem write_gone [Peer π] {c c' : TcpClient π} (gone : c.fd = -1) {line : Bytes}
    {timeout ec : Int} (returns : c.write line timeout = .ok (ec, c')) : c'.fd = -1 := by
  obtain ⟨⟨count, os⟩, sends, same⟩ := bind_returns returns
  by_cases short : count ≠ toInt32 line.length
  · simp only [if_pos short] at same
    cases same
    simp [close, gone]
  · simp only [if_neg short] at same
    cases same
    exact gone

end TcpClient

namespace RedisProtocol

variable {π : Type}

/-- The two queries of a connection. -/
inductive Query where
  /-- `is_open`. -/
  | isOpen
  /-- `check_connect`. -/
  | checkConnect
  deriving DecidableEq, Repr

/-- Asking one of them. -/
def ask (p : RedisProtocol π) : Query → Bool × RedisProtocol π
  | .isOpen => p.isOpen
  | .checkConnect => p.checkConnect

/-- A query is due: there is no descriptor, or it looks at the socket. -/
def Due (p : RedisProtocol π) : Prop := p.tcpClient.fd = -1 ∨ p.tcpClient.Outdated

instance (p : RedisProtocol π) : Decidable p.Due := inferInstanceAs (Decidable (_ ∨ _))

/-- Both queries report what the client does, and leave its descriptor. -/
theorem ask_client (p : RedisProtocol π) (query : Query) :
    (p.ask query).1 = p.tcpClient.isOpen.1 ∧
      (p.ask query).2.tcpClient = p.tcpClient.isOpen.2 := by
  cases query with
  | isOpen => exact ⟨rfl, rfl⟩
  | checkConnect =>
    rw [ask, checkConnect, isOpen]
    cases p.tcpClient.isOpen with
    | mk found client =>
      cases found with
      | true => exact ⟨rfl, rfl⟩
      | false => exact ⟨rfl, rfl⟩

/-- A protocol object with the socket of its connection. -/
structure Watched (π : Type) where
  /-- The protocol object. -/
  proto : RedisProtocol π
  /-- The socket that the descriptor stands for. -/
  socket : Socket

/-- What happens on a connection between `connect` and `close`. -/
inductive Watching where
  /-- A write, with its code. -/
  | write (ec : Int)
  /-- The peer closes. -/
  | peerCloses
  /-- A query: whether it was due, and what it reports. -/
  | query (query : Query) (due found : Bool)
  deriving DecidableEq, Repr

namespace Watching

/-- A query reports the connection closed. -/
def ReportsClosed : Watching → Prop
  | .query _ _ found => found = false
  | _ => False

/-- A query reports the connection open. -/
def ReportsOpen : Watching → Prop
  | .query _ _ found => found = true
  | _ => False

/-- If this is a query, it was due. -/
def WasDue : Watching → Prop
  | .query _ due _ => due = true
  | _ => True

end Watching

namespace Watched

/-- The protocol object in front of a socket where the peeks have these outcomes. -/
def facing (s : Watched π) (peeks : List PeekOutcome) : RedisProtocol π :=
  { s.proto with tcpClient := { s.proto.tcpClient with
    os := { s.proto.tcpClient.os with probes := peeks } } }

/-- What `is_open_slow` finds there. -/
def found (s : Watched π) (peeks : List PeekOutcome) : Bool :=
  (s.facing peeks).tcpClient.os.isOpenSlow.1

/-- The socket after a query: one that reports a closed connection has found the end, unless there
was no descriptor. -/
def socketAfter (s : Watched π) (found : Bool) : Socket :=
  if found ∨ s.proto.tcpClient.fd = -1 then s.socket else .dead

/-- The steps between `connect` and `close`. The time that passes is up to the system. -/
inductive Step [Peer π] : Watched π → Watching → Watched π → Prop
  /-- A write that returns. -/
  | write {s : Watched π} {line : Bytes} {timeout ec : Int} {client : TcpClient π}
    (returns : s.proto.tcpClient.write line timeout = .ok (ec, client)) :
    Step s (.write ec) { s with proto := { s.proto with tcpClient := client } }
  /-- The peer closes. -/
  | peerCloses (s : Watched π) : Step s .peerCloses { s with socket := s.socket.close }
  /-- A query, with any outcomes of the peeks that the socket can have. -/
  | query {s : Watched π} {peeks : List PeekOutcome} {found : Bool} {p : RedisProtocol π}
    (query : Query) (finds : s.socket.Finds (s.found peeks))
    (asks : (s.facing peeks).ask query = (found, p)) :
    Step s (.query query (decide s.proto.Due) found) ⟨p, s.socketAfter found⟩

/-- The connection has been found closed: it was given up, or a peek has found the end. -/
def FoundClosed (s : Watched π) : Prop := s.proto.tcpClient.fd = -1 ∨ s.socket = .dead

/-- A query reports a closed connection if there is no descriptor, or if it is due and finds the
end. -/
theorem ask_closed_iff (s : Watched π) (peeks : List PeekOutcome) (query : Query) :
    ((s.facing peeks).ask query).1 = false ↔
      s.proto.tcpClient.fd = -1 ∨ s.proto.tcpClient.Outdated ∧ s.found peeks = false := by
  rw [((s.facing peeks).ask_client query).1, TcpClient.isOpen_closed_iff]
  rfl

/-- A query keeps the descriptor. -/
theorem ask_fd (s : Watched π) (peeks : List PeekOutcome) (query : Query) :
    ((s.facing peeks).ask query).2.tcpClient.fd = s.proto.tcpClient.fd := by
  rw [((s.facing peeks).ask_client query).2, TcpClient.isOpen_fd]
  rfl

/-- After a query that reports the connection closed it has been found closed. -/
theorem Step.found_closed [Peer π] {s s' : Watched π} {label : Watching} (step : Step s label s')
    (reports : label.ReportsClosed) : s'.FoundClosed := by
  cases step with
  | write => exact reports.elim
  | peerCloses => exact reports.elim
  | @query peeks found p query finds asks =>
    obtain rfl : found = false := reports
    by_cases gone : s.proto.tcpClient.fd = -1
    · apply Or.inl
      have fd := s.ask_fd peeks query
      rw [asks] at fd
      exact fd.trans gone
    · exact Or.inr (if_neg (by simp [gone]))

/-- A connection found closed remains so in every step, and a query reports it closed exactly if it
is due. -/
theorem FoundClosed.step [Peer π] {s s' : Watched π} (closed : s.FoundClosed) {label : Watching}
    (step : Step s label s') : (¬ label.ReportsOpen ↔ label.WasDue) ∧ s'.FoundClosed := by
  cases step with
  | write returns =>
    refine ⟨by simp [Watching.ReportsOpen, Watching.WasDue], ?_⟩
    exact closed.imp_left fun gone => TcpClient.write_gone gone returns
  | peerCloses =>
    refine ⟨by simp [Watching.ReportsOpen, Watching.WasDue], ?_⟩
    exact closed.imp_right fun dead => by rw [dead]; rfl
  | @query peeks found p query finds asks =>
    have reports := s.ask_closed_iff peeks query
    have fd := s.ask_fd peeks query
    rw [asks] at reports fd
    constructor
    · have due : decide s.proto.Due = true ↔ found = false := by
        rw [decide_eq_true_iff, Due, reports]
        refine or_congr_right' fun some => ?_
        have dead := closed.resolve_left some
        rw [dead] at finds
        exact (and_iff_left finds).symm
      rw [Watching.WasDue, due, Watching.ReportsOpen, Bool.not_eq_true]
    · refine closed.imp (fun gone => fd.trans gone) fun dead => ?_
      rw [socketAfter, dead, ite_self]

/-- Once a query has reported the connection closed, later queries do so exactly if they are due:
there is no descriptor, or the last look or write is older than the interval. -/
theorem stays_closed_iff [Peer π] {s s' : Watched π} {labels : List Watching}
    (run : Simulation.Run Step s labels s') :
    labels.Pairwise (fun earlier later => earlier.ReportsClosed → ¬ later.ReportsOpen) ↔
      labels.Pairwise fun earlier later => earlier.ReportsClosed → later.WasDue := by
  induction run with
  | done => simp
  | @step first next last label labels head tail ih =>
    rw [List.pairwise_cons, List.pairwise_cons, ih]
    refine and_congr_left' ?_
    by_cases reports : label.ReportsClosed
    · have later : ∀ later ∈ labels, ¬ later.ReportsOpen ↔ later.WasDue :=
        tail.labels (fun _ _ _ closed step => closed.step step) (head.found_closed reports)
      simp only [reports, forall_const]
      exact forall₂_congr later
    · simp [reports]

/-- A connection that was given up is reported closed by every later query. -/
theorem given_up_stays [Peer π] {s s' : Watched π} {labels : List Watching}
    (run : Simulation.Run Step s labels s') (gone : s.proto.tcpClient.fd = -1) :
    ∀ label ∈ labels, ¬ label.ReportsOpen := by
  have preserved : ∀ (s : Watched π) (label : Watching) (s' : Watched π),
      s.proto.tcpClient.fd = -1 → Step s label s' →
        ¬ label.ReportsOpen ∧ s'.proto.tcpClient.fd = -1 := by
    intro s label s' gone step
    cases step with
    | write returns => exact ⟨id, TcpClient.write_gone gone returns⟩
    | peerCloses => exact ⟨id, gone⟩
    | @query peeks found p query finds asks =>
      have reports := (s.ask_closed_iff peeks query).mpr (Or.inl gone)
      have fd := s.ask_fd peeks query
      rw [asks] at reports fd
      exact ⟨(Bool.not_eq_true found).mpr reports, fd.trans gone⟩
  exact run.labels preserved gone

/-- A connected client, and the seconds that pass before each look at the clock. -/
def connected (ticks : List Nat) : Watched ScriptedPeer where
  proto := ((new (ascii "localhost") (ascii "6379") 1000
    { Os.start ⟨[]⟩ [] with ticks := 0 :: ticks }).connect).2
  socket := .alive

/-- Two queries, each later than the interval. -/
theorem stays_closed_iff_late : [Watching.peerCloses, .query .isOpen true false,
    .query .checkConnect true false].Pairwise
      (fun earlier later => earlier.ReportsClosed → ¬ later.ReportsOpen) := by
  have run : ∃ s', Simulation.Run Step (connected [181, 181]) [.peerCloses,
      .query .isOpen true false, .query .checkConnect true false] s' :=
    ⟨_, .step (.peerCloses _) (.step (@Step.query _ _ _ [.eof] false _ .isOpen trivial rfl)
      (.step (@Step.query _ _ _ [.eof] false _ .checkConnect rfl rfl) (.done _)))⟩
  obtain ⟨s', run⟩ := run
  apply (stays_closed_iff run).mpr
  simp [Watching.ReportsClosed, Watching.WasDue]

/-- `is_open` reports a connection closed whose peer has closed, and `check_connect` after it
reports the same connection open. -/
theorem found_open_again : ∃ s', Simulation.Run Step (connected [181, 0]) [.peerCloses,
      .query .isOpen true false, .query .checkConnect false true] s' ∧
    ¬ [Watching.peerCloses, .query .isOpen true false, .query .checkConnect false true].Pairwise
      (fun earlier later => earlier.ReportsClosed → ¬ later.ReportsOpen) := by
  refine ⟨_, .step (.peerCloses _) (.step (@Step.query _ _ _ [.eof] false _ .isOpen trivial rfl)
    (.step (@Step.query _ _ _ [.eof] true _ .checkConnect rfl rfl) (.done _))), ?_⟩
  simp [Watching.ReportsClosed, Watching.ReportsOpen]

end Watched

end RedisProtocol

end LibRedis
