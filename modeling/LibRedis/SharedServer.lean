import Mathlib.Algebra.Order.BigOperators.Group.Finset
import LibRedis.Counters
import LibRedis.Lib.Traces

/-!
# Clients that share a server

Several clients call one server at the same time. The calls of a client are made one after the other,
as a client is handed to one thread at a time; but the server executes the requests of all clients in
any order, each on the connection it came over. It does so turn by turn: a turn finds the data that
all clients share as the turn before it, of whatever client, has left them. What a client meets are
its own turns, between which the data may have become anything.
-/

namespace LibRedis

open Decimal (ascii)
open Resp (Reply)
open RedisProtocol (requestOf)
open Traces (part spread Linked)

variable {ι γ δ : Type} [DecidableEq ι]

/-- What a server does at once for one of its clients, with the data before and behind it. -/
structure Turn (δ : Type) where
  /-- The request and the reply to it, or none where a connection is accepted. -/
  entry : Option Entry
  /-- The data that it finds. -/
  before : δ
  /-- The data that it leaves. -/
  after : δ

/-- What a client meets of a server that it shares. -/
structure Share (γ δ : Type) where
  /-- The state of its own connection. -/
  connection : γ
  /-- The data that its turns find, by their number. -/
  found : Nat → δ
  /-- Its turns so far. -/
  turns : List (Turn δ)

/-- A server of connections and data as it is met by one client of several. -/
def Server.shared (server : Server (γ × δ)) : Server (Share γ δ) where
  fresh share :=
    let data := share.found share.turns.length
    let (connection, after) := server.fresh (share.connection, data)
    ⟨connection, share.found, share.turns ++ [⟨none, data, after⟩]⟩
  handle share args :=
    let data := share.found share.turns.length
    let (reply, connection, after) := server.handle (share.connection, data) args
    (reply, ⟨connection, share.found, share.turns ++ [⟨some (args, reply), data, after⟩]⟩)

/-- A server that keeps nothing for a connection. -/
def Server.common (server : Server δ) : Server (Unit × δ) where
  fresh state := ((), server.fresh state.2)
  handle state args := ((server.handle state.2 args).1, (), (server.handle state.2 args).2)

/-- It answers whole if that server does. -/
theorem Server.common_whole {server : Server δ} (whole : AnswersWhole server) :
    AnswersWhole server.common :=
  fun state args => whole state.2 args

/-- So does what a client meets of a server. -/
theorem Server.shared_whole {server : Server (γ × δ)} (whole : AnswersWhole server) :
    AnswersWhole server.shared :=
  fun share args => whole (share.connection, share.found share.turns.length) args

/-- The turns of a client on its connection, from one state of the connection to another. -/
inductive Server.Attends (server : Server (γ × δ)) : γ → List (Turn δ) → γ → Prop
  /-- None. -/
  | idle (connection : γ) : Attends server connection [] connection
  /-- The connection is accepted. -/
  | accept {connection last : γ} {turns : List (Turn δ)} (data : δ)
      (behind : Attends server (server.fresh (connection, data)).1 turns last) :
      Attends server connection (⟨none, data, (server.fresh (connection, data)).2⟩ :: turns) last
  /-- A request is executed. -/
  | request {connection last : γ} {turns : List (Turn δ)} (args : List Bytes) (data : δ)
      (behind : Attends server (server.handle (connection, data) args).2.1 turns last) :
      Attends server connection (⟨some (args, (server.handle (connection, data) args).1), data,
        (server.handle (connection, data) args).2.2⟩ :: turns) last

/-- A turn that the server may take. -/
inductive Server.Takes (server : Server (γ × δ)) : Turn δ → Prop
  /-- A connection is accepted. -/
  | accept (connection : γ) (data : δ) :
      Takes server ⟨none, data, (server.fresh (connection, data)).2⟩
  /-- A request is executed. -/
  | request (connection : γ) (data : δ) (args : List Bytes) :
      Takes server ⟨some (args, (server.handle (connection, data) args).1), data,
        (server.handle (connection, data) args).2.2⟩

namespace Server.Attends

variable {server : Server (γ × δ)} {first next last : γ} {turns earlier later : List (Turn δ)}

/-- Turns one after the other. -/
theorem append (before : server.Attends first earlier next)
    (behind : server.Attends next later last) : server.Attends first (earlier ++ later) last := by
  induction before with
  | idle connection => exact behind
  | accept data _ ih => exact .accept data (ih behind)
  | request args data _ ih => exact .request args data (ih behind)

/-- They are cut anywhere. -/
theorem split (attends : server.Attends first (earlier ++ later) last) :
    ∃ next, server.Attends first earlier next ∧ server.Attends next later last := by
  induction earlier generalizing first with
  | nil => exact ⟨first, .idle first, attends⟩
  | cons turn earlier ih =>
    cases attends with
    | accept data behind =>
      obtain ⟨next, here, there⟩ := ih behind
      exact ⟨next, .accept data here, there⟩
    | request args data behind =>
      obtain ⟨next, here, there⟩ := ih behind
      exact ⟨next, .request args data here, there⟩

/-- Each is one that the server may take. -/
theorem takes (attends : server.Attends first turns last) : ∀ turn ∈ turns, server.Takes turn := by
  induction attends with
  | idle connection => simp
  | accept data behind ih => exact List.forall_mem_cons.mpr ⟨.accept _ data, ih⟩
  | request args data behind ih => exact List.forall_mem_cons.mpr ⟨.request _ data args, ih⟩

end Server.Attends

/-- A share has grown by these turns. -/
def Server.Grows (server : Server (γ × δ)) (first : Share γ δ) (turns : List (Turn δ))
    (last : Share γ δ) : Prop :=
  last.turns = first.turns ++ turns ∧ server.Attends first.connection turns last.connection

namespace Server.Grows

variable {server : Server (γ × δ)} {first next last : Share γ δ}

/-- By none. -/
theorem idle (share : Share γ δ) : server.Grows share [] share :=
  ⟨(List.append_nil _).symm, .idle _⟩

/-- By one after the other. -/
theorem append {earlier later : List (Turn δ)} (before : server.Grows first earlier next)
    (behind : server.Grows next later last) : server.Grows first (earlier ++ later) last := by
  have turns : last.turns = first.turns ++ (earlier ++ later) := by
    rw [behind.1, before.1, List.append_assoc]
  exact ⟨turns, before.2.append behind.2⟩

/-- By the turns of a history. -/
theorem of_history {entries : List Entry} (history : server.shared.History first entries last) :
    ∃ turns, server.Grows first turns last ∧ turns.filterMap Turn.entry = entries := by
  induction history with
  | idle share => exact ⟨[], idle share, rfl⟩
  | @accept share last entries behind ih =>
    obtain ⟨turns, grows, shows⟩ := ih
    have here : server.Grows share [_] (server.shared.fresh share) :=
      ⟨rfl, .accept _ (.idle _)⟩
    exact ⟨_, here.append grows, shows⟩
  | @request share last entries args behind ih =>
    obtain ⟨turns, grows, shows⟩ := ih
    have here : server.Grows share [_] (server.shared.handle share args).2 :=
      ⟨rfl, .request args _ (.idle _)⟩
    exact ⟨_, here.append grows, congrArg (_ :: ·) shows⟩

end Server.Grows

/-- What a turn lists, if its entry lists this. -/
def Turn.items {α : Type} (items : Entry → List α) (turn : Turn δ) : List α :=
  turn.entry.elim [] items

/-- What the entries list, the turns list. -/
theorem Turn.flatMap_items {α : Type} (items : Entry → List α) (turns : List (Turn δ)) :
    (turns.filterMap Turn.entry).flatMap items = turns.flatMap (Turn.items items) := by
  induction turns with
  | nil => rfl
  | cons turn rest ih =>
    obtain ⟨entry, before, after⟩ := turn
    cases entry with
    | none => exact ih
    | some entry => exact congrArg (items entry ++ ·) ih

/-- A SELECT of a client's own. -/
def IsSelect (args : List Bytes) : Prop := ∃ index, args = requestOf (Redis2.selectCommand index)

/-- The entries that a SELECT may have. -/
theorem Selected.isSelect {entries : List Entry} (selected : Selected entries) :
    ∀ entry ∈ entries, IsSelect entry.1 := by
  rcases selected with rfl | ⟨index, reply, rfl⟩
  · simp
  · simpa using ⟨index, rfl⟩

namespace Redis2

variable {ℓ : Type} {server : Server (γ × δ)}
  {step : Redis2 (Endpoint server.shared) → ℓ → Redis2 (Endpoint server.shared) → Prop}
  {before after : δ} {calls : ι → List ℓ} {trace : List (ι × Turn δ)}

/-- Clients run together: each is new and makes its calls one after the other, and all their turns are
taken in one order, each on the data that the one before it has left. -/
structure Together (server : Server (γ × δ))
    (step : Redis2 (Endpoint server.shared) → ℓ → Redis2 (Endpoint server.shared) → Prop)
    (before : δ) (calls : ι → List ℓ) (trace : List (ι × Turn δ)) (after : δ) : Prop where
  /-- Each turn finds what the one before it has left. -/
  linked : Linked Turn.before Turn.after before (trace.map Prod.snd) after
  /-- The turns of a client are those that it meets. -/
  client (i : ι) : ∃ (host port : Bytes) (dbIndex : Int32) (timeout : Int)
    (os : Os (Endpoint server.shared)) (last : Redis2 (Endpoint server.shared)), os.incoming = [] ∧
      os.peer.state.turns = [] ∧
      Simulation.Run step (new host port dbIndex timeout os) (calls i) last ∧
      last.proto.served.turns = part i trace

/-- The turns of each client fall into one piece for each call, in the order of its calls. -/
theorem Together.pieces (together : Together server step before calls trace after)
    {holds : Redis2 (Endpoint server.shared) → Prop} {shows : ℓ → List (Turn δ) → Prop}
    (start : ∀ host port dbIndex timeout (os : Os (Endpoint server.shared)), os.incoming = [] →
      holds (new host port dbIndex timeout os))
    (each : ∀ r label r', holds r → step r label r' → holds r' ∧
      ∃ turns, server.Grows r.proto.served turns r'.proto.served ∧ shows label turns)
    (i : ι) : ∃ pieces, List.Forall₂ shows (calls i) pieces ∧ pieces.flatten = part i trace ∧
      ∃ first last, server.Attends first (part i trace) last := by
  obtain ⟨host, port, dbIndex, timeout, os, last, silent, nothing, run, own⟩ := together.client i
  obtain ⟨pieces, all, turns, attends⟩ :=
    run.pieces (fun r turns r' => server.Grows r.proto.served turns r'.proto.served)
      (fun r => .idle r.proto.served) (fun before behind => before.append behind) each
      (start host port dbIndex timeout os silent)
  have flat : pieces.flatten = part i trace := by
    rw [← own, turns]
    change pieces.flatten = os.peer.state.turns ++ pieces.flatten
    rw [nothing, List.nil_append]
  rw [flat] at attends
  exact ⟨pieces, all, flat, _, _, attends⟩

/-- The entries of each client fall into one piece for each call, if those of a call do. -/
theorem Together.entries (together : Together server step before calls trace after)
    {shows : ℓ → List Entry → Prop}
    (each : ∀ r label r', r.proto.Synced → step r label r' → r'.proto.Synced ∧
      ∃ entries, server.shared.History r.proto.served entries r'.proto.served ∧ shows label entries)
    (i : ι) : ∃ pieces, List.Forall₂ shows (calls i) pieces ∧
      pieces.flatten = (part i trace).filterMap Turn.entry ∧
      ∀ turn ∈ part i trace, server.Takes turn := by
  obtain ⟨pieces, all, flat, first, last, attends⟩ :=
    @Together.pieces _ _ _ _ _ _ _ _ _ _ _ together (fun r => r.proto.Synced)
      (fun label turns => shows label (turns.filterMap Turn.entry))
      (fun host port dbIndex timeout os silent => new_synced host port dbIndex timeout silent)
      (fun r label r' synced steps => by
        obtain ⟨synced', entries, history, shown⟩ := each r label r' synced steps
        obtain ⟨turns, grows, same⟩ := Server.Grows.of_history history
        exact ⟨synced', turns, grows, same ▸ shown⟩) i
  refine ⟨pieces.map (List.filterMap Turn.entry), List.forall₂_map_right_iff.mpr all, ?_,
    attends.takes⟩
  rw [← flat, List.filterMap_flatten]

/-- A call falls into its piece. -/
theorem sends_accounts (whole : AnswersWhole server) {r r' : Redis2 (Endpoint server.shared)}
    {sent : Sent} (synced : r.proto.Synced) (sends : Sends r sent r') : r'.proto.Synced ∧
      ∃ entries, server.shared.History r.proto.served entries r'.proto.served ∧
        sent.1.Accounts sent.2.1 sent.2.2 entries :=
  send_accounts (Server.shared_whole whole) synced sends.1 sends.2

section Counting

variable {key : Bytes} {value : δ → Int}

/-- The number of a reply. -/
def numberIn : Reply → List Int
  | .integer number => [number]
  | _ => []

/-- The number that an entry tells. -/
def numberOf (key : Bytes) (entry : Entry) : List Int :=
  if entry.1 = requestOf (incrCommand key) then numberIn entry.2 else []

/-- A SELECT is no INCR. -/
theorem numberOf_select {entry : Entry} (select : IsSelect entry.1) : numberOf key entry = [] := by
  obtain ⟨index, same⟩ := select
  have other : requestOf (selectCommand index) ≠ requestOf (incrCommand key) := by
    intro same
    have names : Command.select.commandInfo.commandStr = Command.incr.commandInfo.commandStr :=
      (List.cons.inj same).1
    exact absurd names (by decide +kernel)
  rw [numberOf, same, if_neg other]

/-- What the piece of a call that counts has: the number that the call tells, if it tells one, and
at most one. -/
def CountsPiece (key : Bytes) (sent : Sent) (entries : List Entry) : Prop :=
  (told [sent]).Sublist (entries.flatMap (numberOf key)) ∧
    (entries.flatMap (numberOf key)).length ≤ (if sent.1.isCount then 1 else 0) ∧
    ∀ entry ∈ entries, IsSelect entry.1 ∨ entry.1 = requestOf (incrCommand key)

/-- A piece of a call that counts. -/
theorem Sending.Accounts.counts {sent : Sent} (counting : sent.1.Counting key) {entries : List Entry}
    (accounts : sent.1.Accounts sent.2.1 sent.2.2 entries) : CountsPiece key sent entries := by
  obtain ⟨sending, ok, out⟩ := sent
  have silent {entries : List Entry} (selects : ∀ entry ∈ entries, IsSelect entry.1) :
      entries.flatMap (numberOf key) = [] :=
    List.flatMap_eq_nil_iff.mpr fun entry member => numberOf_select (selects entry member)
  have command (named : sending.command = some (incrCommand key)) {selects own : List Entry}
      (falls : entries = selects ++ own) (selected : Selected selects)
      (executed : Executed (incrCommand key).command (requestOf (incrCommand key)) ok out own) :
      CountsPiece key (sending, ok, out) entries := by
    have counted : sending.isCount = true := by rw [Sending.isCount, named, Option.isSome_some]
    rw [CountsPiece, falls, List.flatMap_append, silent selected.isSelect, List.nil_append,
      if_pos counted]
    rcases executed with ⟨rfl, rfl⟩ | ⟨reply, rfl, succeeds⟩
    · refine ⟨by simp [told], by simp, fun entry member => ?_⟩
      rw [List.append_nil] at member
      exact Or.inl (selected.isSelect entry member)
    · have one : numberOf key (requestOf (incrCommand key), reply) = numberIn reply := if_pos rfl
      rw [List.flatMap_singleton, one]
      refine ⟨?_, by cases reply <;> simp [numberIn], fun entry member => ?_⟩
      · cases ok with
        | false => simp [told]
        | true =>
          obtain ⟨mode, accepts, rfl⟩ := succeeds rfl
          cases mode with
          | false =>
            obtain ⟨⟨number, rfl⟩, -⟩ := accepts
            have tells : told [(sending, true, .i number)] = [number] := by
              simp [told, counted, RedisOutput.takeI]
            change (told [(sending, true, .i number)]).Sublist [number]
            rw [tells]
          | true =>
            obtain ⟨text, rfl⟩ := accepts
            have silent : told [(sending, true, .status text)] = [] := by
              simp [told, RedisOutput.takeI]
            change (told [(sending, true, .status text)]).Sublist []
            rw [silent]
      · rcases List.mem_append.mp member with member | member
        · exact Or.inl (selected.isSelect entry member)
        · rw [List.mem_singleton.mp member]
          exact Or.inr rfl
  have quiet (selects : ∀ entry ∈ entries, IsSelect entry.1) (none : told [(sending, ok, out)] = []) :
      CountsPiece key (sending, ok, out) entries := by
    rw [CountsPiece, silent selects, none]
    exact ⟨.slnil, by simp, fun entry member => Or.inl (selects entry member)⟩
  cases sending with
  | connect =>
    cases accounts
    exact quiet (by simp) rfl
  | close =>
    cases accounts
    exact quiet (by simp) rfl
  | select index =>
    refine quiet ?_ rfl
    rcases accounts with ⟨rfl, -⟩ | ⟨reply, rfl, -⟩
    · simp
    · simpa using ⟨index, rfl⟩
  | exec c =>
    cases counting
    obtain ⟨selects, own, falls, selected, executed⟩ := accounts
    exact command rfl falls selected executed
  | blocking c =>
    cases counting
    obtain ⟨selects, own, falls, selected, executed⟩ := accounts
    exact command rfl falls selected executed
  | checked c =>
    cases counting
    exact command rfl (List.nil_append _).symm (Or.inl rfl) accounts
  | execv c buf => cases counting
  | checkedv c buf => cases counting

/-- A turn counts one and tells it, or it does neither. -/
theorem Counts.turn (counts : Counts server key fun state => value state.2) {turn : Turn δ}
    (takes : server.Takes turn)
    (only : ∀ entry ∈ turn.entry, IsSelect entry.1 ∨ entry.1 = requestOf (incrCommand key)) :
    (turn.items (numberOf key) = [] ∧ value turn.after = value turn.before) ∨
      (turn.items (numberOf key) = [value turn.after] ∧
        value turn.after = value turn.before + 1) := by
  cases takes with
  | accept connection data =>
    have same : value (server.fresh (connection, data)).2 = value data := counts.fresh _
    exact Or.inl ⟨rfl, same⟩
  | request connection data args =>
    rcases only _ rfl with select | counting
    · have silent : numberOf key (args, (server.handle (connection, data) args).1) = [] :=
        numberOf_select select
      obtain ⟨index, rfl⟩ := select
      have same : value (server.handle (connection, data) (requestOf (selectCommand index))).2.2 =
          value data := counts.select _ index
      exact Or.inl ⟨silent, same⟩
    · have asks : args = requestOf (incrCommand key) := counting
      subst asks
      let turns := server.handle (connection, data) (requestOf (incrCommand key))
      have told : numberOf key (requestOf (incrCommand key), turns.1) = numberIn turns.1 := if_pos rfl
      rcases counts.incr (connection, data) with ⟨number, next⟩ | ⟨⟨text, error⟩, next⟩
      · have more : value turns.2.2 = value data + 1 := next
        have tells : numberIn turns.1 = [value turns.2.2] := by
          rw [more]
          exact congrArg numberIn number
        exact Or.inr ⟨told.trans tells, more⟩
      · have silent : numberIn turns.1 = [] := congrArg numberIn error
        exact Or.inl ⟨told.trans silent, next⟩

/-- The numbers of all turns are those that the server counts through. -/
theorem Counts.linked (counts : Counts server key fun state => value state.2)
    {turns : List (Turn δ)} (takes : ∀ turn ∈ turns, server.Takes turn)
    (only : ∀ turn ∈ turns, ∀ entry ∈ turn.entry,
      IsSelect entry.1 ∨ entry.1 = requestOf (incrCommand key))
    (linked : Linked Turn.before Turn.after before turns after) :
    (turns.flatMap (Turn.items (numberOf key))).Pairwise (· < ·) ∧
      (∀ number ∈ turns.flatMap (Turn.items (numberOf key)),
        value before < number ∧ number ≤ value after) ∧
      value before + (turns.flatMap (Turn.items (numberOf key))).length = value after := by
  induction linked with
  | nil data => simp
  | cons turn behind ih =>
    have rest := ih (fun later member => takes later (List.mem_cons_of_mem _ member))
      (fun later member => only later (List.mem_cons_of_mem _ member))
    obtain ⟨grow, between, length⟩ := rest
    have here := counts.turn (takes turn List.mem_cons_self) (only turn List.mem_cons_self)
    rw [List.flatMap_cons]
    rcases here with ⟨silent, same⟩ | ⟨told, more⟩
    · rw [silent, List.nil_append, ← same]
      exact ⟨grow, between, length⟩
    · rw [told]
      refine ⟨List.pairwise_cons.mpr ⟨fun number member => (between number member).1, grow⟩,
        ?_, ?_⟩
      · intro number member
        rcases List.mem_cons.mp member with rfl | later
        · omega
        · have later := between number later
          omega
      · rw [List.singleton_append, List.length_cons]
        push_cast
        omega

/-- What the pieces of calls have, their trace has. -/
theorem CountsPiece.all {calls : List Sent} {pieces : List (List Entry)}
    (all : List.Forall₂ (CountsPiece key) calls pieces) :
    (told calls).Sublist (pieces.flatten.flatMap (numberOf key)) ∧
      (pieces.flatten.flatMap (numberOf key)).length ≤ calls.countP (fun sent => sent.1.isCount) ∧
      ∀ entry ∈ pieces.flatten, IsSelect entry.1 ∨ entry.1 = requestOf (incrCommand key) := by
  induction all with
  | nil => simp [told]
  | @cons sent entries calls pieces here all ih =>
    obtain ⟨tells, bound, only⟩ := here
    obtain ⟨tells', bound', only'⟩ := ih
    rw [told_cons, List.flatten_cons, List.flatMap_append, List.countP_cons, List.length_append]
    refine ⟨tells.append tells', by omega, fun entry member => ?_⟩
    rcases List.mem_append.mp member with member | member
    · exact only entry member
    · exact only' entry member

/-- Clients that count together under one key, whatever becomes of their connections: each is told
growing numbers, no two are told the same number, and the number at the server has grown by all that
was told at least and by all calls that counted at most. -/
theorem numbers_told_once [Fintype ι] (whole : AnswersWhole server)
    (counts : Counts server key fun state => value state.2) {calls : ι → List Sent}
    {trace : List (ι × Turn δ)} (together : Together server Sends before calls trace after)
    (counting : ∀ i, ∀ sent ∈ calls i, sent.1.Counting key) :
    (∀ i, (told (calls i)).Pairwise (· < ·)) ∧
      (∀ i j, i ≠ j → (told (calls i)).Disjoint (told (calls j))) ∧
      (∀ i, ∀ number ∈ told (calls i), value before < number ∧ number ≤ value after) ∧
      value before + (∑ i, (told (calls i)).length : Nat) ≤ value after ∧
      value after ≤ value before + (∑ i, (calls i).countP fun sent => sent.1.isCount : Nat) := by
  let numbers : Turn δ → List Int := Turn.items (numberOf key)
  have own (i : ι) : (told (calls i)).Sublist ((part i trace).flatMap numbers) ∧
      ((part i trace).flatMap numbers).length ≤ (calls i).countP (fun sent => sent.1.isCount) ∧
      (∀ turn ∈ part i trace, ∀ entry ∈ turn.entry,
        IsSelect entry.1 ∨ entry.1 = requestOf (incrCommand key)) ∧
      ∀ turn ∈ part i trace, server.Takes turn := by
    obtain ⟨pieces, all, flat, takes⟩ := together.entries (fun _ _ _ => sends_accounts whole) i
    have counted : List.Forall₂ (CountsPiece key) (calls i) pieces :=
      ((List.forall₂_and_left _ _).mpr ⟨counting i, all⟩).imp
        fun _ _ both => Sending.Accounts.counts both.1 both.2
    have shows := CountsPiece.all counted
    rw [flat, Turn.flatMap_items] at shows
    refine ⟨shows.1, shows.2.1, fun turn member entry is => ?_, takes⟩
    exact shows.2.2 entry (List.mem_filterMap.mpr ⟨turn, member, is⟩)
  have each (turn : Turn δ) (member : turn ∈ trace.map Prod.snd) :
      ∃ i, turn ∈ part i trace := by
    obtain ⟨event, listed, rfl⟩ := List.mem_map.mp member
    exact ⟨event.1, Traces.mem_part.mpr listed⟩
  have linked := counts.linked
    (fun turn member => (each turn member).elim fun i mine => (own i).2.2.2 turn mine)
    (fun turn member => (each turn member).elim fun i mine => (own i).2.2.1 turn mine)
    together.linked
  obtain ⟨grow, between, length⟩ := linked
  have spreads := Traces.map_snd_spread numbers trace
  have mine (i : ι) : (told (calls i)).Sublist (part i (spread numbers trace)) := by
    rw [Traces.part_spread]
    exact (own i).1
  rw [← spreads] at grow between length
  refine ⟨fun i => grow.sublist ((mine i).trans (Traces.part_sublist i _)), fun i j apart => ?_,
    fun i number member => ?_, ?_, ?_⟩
  · have once : ((spread numbers trace).map Prod.snd).Nodup := grow.imp ne_of_lt
    intro number here there
    exact Traces.disjoint_part apart once ((mine i).subset here) ((mine j).subset there)
  · exact between number ((Traces.part_sublist i _).subset ((mine i).subset member))
  · have least : ∑ i, (told (calls i)).length ≤ (spread numbers trace).length := by
      rw [← Traces.sum_length_part]
      exact Finset.sum_le_sum fun i _ => (mine i).length_le
    rw [List.length_map] at length
    omega
  · have most : (spread numbers trace).length ≤
        ∑ i, (calls i).countP fun sent => sent.1.isCount := by
      rw [← Traces.sum_length_part]
      apply Finset.sum_le_sum
      intro i _
      rw [Traces.part_spread]
      exact (own i).2.1
    rw [List.length_map] at length
    omega

end Counting

/-- What it keeps alone, it keeps for several. -/
theorem Keeps.common {α : Type} {server : Server δ} {observed : δ → α}
    (keeps : Keeps server observed) : Keeps server.common fun state => observed state.2 where
  select state := keeps.select state.2
  fresh state := keeps.fresh state.2

/-- If it counts alone, it counts for several. -/
theorem Counts.common {server : Server δ} {key : Bytes} {value : δ → Int}
    (counts : Counts server key value) : Counts server.common key fun state => value state.2 where
  toKeeps := counts.toKeeps.common
  incr state := counts.incr state.2

/-- A new client of a server that keeps nothing for a connection, which is going to find these data,
with these outcomes of the receive calls. -/
def commonClient (server : Server δ) (found : Nat → δ) (recvs : List RecvOutcome) :
    Redis2 (Endpoint server.common.shared) :=
  new (ascii "localhost") (ascii "6379") 0 1000 (.start ⟨[], (), found, []⟩ recvs)

/-- A number or a byte string. -/
inductive Scalar where
  | number (value : Int)
  | bytes (value : Option Bytes)
  deriving DecidableEq

/-- The number or the byte string that a reply is. -/
def scalarOf : Reply → Option Scalar
  | .integer number => some (.number number)
  | .bulk bytes => some (.bytes bytes)
  | .nilBulk => some (.bytes none)
  | _ => none

/-- The reply of a number or a byte string. -/
def Scalar.reply : Scalar → Reply
  | .number value => .integer value
  | .bytes value => value.elim .nilBulk .bulk

/-- A reply is such a one if it is seen to be. -/
theorem scalarOf_eq_some {reply : Reply} {scalar : Scalar} (shows : scalarOf reply = some scalar) :
    reply = scalar.reply := by
  cases reply with
  | integer number =>
    rw [← Option.some.inj shows]
    rfl
  | bulk bytes =>
    rw [← Option.some.inj shows]
    rfl
  | nilBulk =>
    rw [← Option.some.inj shows]
    rfl
  | _ => cases shows

/-- A turn whose reply is a scalar. -/
structure Seen (δ : Type) where
  /-- The request and the reply to it, or none where a connection is accepted. -/
  entry : Option (List Bytes × Scalar)
  /-- The data that it finds. -/
  before : δ
  /-- The data that it leaves. -/
  after : δ
  deriving DecidableEq

/-- That turn. -/
def Seen.turn (seen : Seen δ) : Turn δ :=
  ⟨seen.entry.map fun entry => (entry.1, entry.2.reply), seen.before, seen.after⟩

/-- What is seen of a turn. -/
def seenOf (turn : Turn δ) : Option (Seen δ) :=
  match turn.entry with
  | none => some ⟨none, turn.before, turn.after⟩
  | some (args, reply) =>
    (scalarOf reply).map fun scalar => ⟨some (args, scalar), turn.before, turn.after⟩

/-- A turn is what is seen of it. -/
theorem seenOf_eq_some {turn : Turn δ} {seen : Seen δ} (shows : seenOf turn = some seen) :
    turn = seen.turn := by
  obtain ⟨entry, before, after⟩ := turn
  cases entry with
  | none =>
    rw [← Option.some.inj shows]
    rfl
  | some entry =>
    obtain ⟨args, reply⟩ := entry
    obtain ⟨scalar, is, same⟩ := Option.map_eq_some_iff.mp shows
    rw [scalarOf_eq_some is, ← same]
    rfl

/-- Turns are what is seen of them. -/
theorem turns_of_seen {turns : List (Turn δ)} {seen : List (Seen δ)}
    (shows : turns.map seenOf = seen.map some) : turns = seen.map Seen.turn := by
  induction turns generalizing seen with
  | nil =>
    have none : seen = [] := by simpa using shows.symm
    rw [none]
    rfl
  | cons turn rest ih =>
    cases seen with
    | nil => cases shows
    | cons first others =>
      have parts := List.cons.inj shows
      rw [List.map_cons, ← ih parts.2, ← seenOf_eq_some parts.1]

/-- Two clients count: the first gives up waiting for its first number, which is told to none; the
second is told the number two, and the first then three. -/
theorem numbers_told_once_late : ∃ calls : Bool → List Sent,
    told (calls false) = [3] ∧ told (calls true) = [2] ∧
      (∀ i, (told (calls i)).Pairwise (· < ·)) ∧
      (∀ i j, i ≠ j → (told (calls i)).Disjoint (told (calls j))) ∧
      (∀ i, ∀ number ∈ told (calls i), 0 < number ∧ number ≤ 3) ∧
      0 + (∑ i, (told (calls i)).length : Nat) ≤ (3 : Int) ∧
      3 ≤ (0 : Int) + (∑ i, (calls i).countP fun sent => sent.1.isCount : Nat) := by
  let key := ascii "k"
  let asks := requestOf (incrCommand key)
  let accepted (number : Int) : Seen Int := ⟨none, number, number⟩
  let counted (number : Int) : Seen Int := ⟨some (asks, .number (number + 1)), number, number + 1⟩
  have first : (sendAll [.exec (incrCommand key), .exec (incrCommand key)] (commonClient
      (counting key) (fun turn => if turn < 2 then 0 else 2) [.timeout, .chunk 100, .chunk 100])
      ).toOption.map (fun returned => (told returned.1, returned.2.proto.served.turns.map seenOf)) =
        some ([3], [accepted 0, counted 0, accepted 2, counted 2].map some) := by
    decide +kernel
  have second : (sendAll [.exec (incrCommand key)] (commonClient (counting key) (fun _ => 1) [])
      ).toOption.map (fun returned => (told returned.1, returned.2.proto.served.turns.map seenOf)) =
        some ([2], [accepted 1, counted 1].map some) := by
    decide +kernel
  obtain ⟨⟨calls, last⟩, returns, seen⟩ := returned_of_view first
  obtain ⟨⟨others, lastToo⟩, returnsToo, seenToo⟩ := returned_of_view second
  have shows := Prod.mk.inj seen
  have showsToo := Prod.mk.inj seenToo
  have short : ∀ sending ∈ [Sending.exec (incrCommand key), .exec (incrCommand key)],
      sending.Small := by
    intro sending member
    have same : sending = .exec (incrCommand key) := by simpa using member
    rw [same]
    exact (by decide +kernel : (RedisProtocol.commandText
      (incrCommand (ascii "k"))).length < 2 ^ 31)
  obtain ⟨run, names⟩ := run_of_sendAll short returns
  obtain ⟨runToo, namesToo⟩ := run_of_sendAll
    (fun sending member => short sending (List.mem_cons_of_mem _ member)) returnsToo
  have only {calls : List Sent} (named : ∀ sending ∈ calls.map Prod.fst,
      sending = .exec (incrCommand key)) : ∀ sent ∈ calls, sent.1.Counting key := by
    intro sent member
    rw [named sent.1 (List.mem_map_of_mem member)]
    rfl
  have together : Together (counting key).common Sends 0 (fun i => if i then others else calls)
      [(false, (accepted 0).turn), (false, (counted 0).turn), (true, (accepted 1).turn),
        (true, (counted 1).turn), (false, (accepted 2).turn), (false, (counted 2).turn)] 3 := by
    refine ⟨?_, ?_⟩
    · exact .cons (accepted 0).turn (.cons (counted 0).turn (.cons (accepted 1).turn
        (.cons (counted 1).turn (.cons (accepted 2).turn (.cons (counted 2).turn (.nil 3))))))
    · intro i
      cases i with
      | false => exact ⟨_, _, _, _, _, last, rfl, rfl, run, turns_of_seen shows.2⟩
      | true => exact ⟨_, _, _, _, _, lastToo, rfl, rfl, runToo, turns_of_seen showsToo.2⟩
  have allCount : ∀ i : Bool, ∀ sent ∈ if i then others else calls, sent.1.Counting key := by
    intro i
    cases i with
    | false => exact only (by simp [names])
    | true => exact only (by simp [namesToo])
  refine ⟨fun i => if i then others else calls, shows.1, showsToo.1, ?_⟩
  exact numbers_told_once (Server.common_whole (counting_whole key)) (counting_counts key).common
    together allCount

end Redis2

end LibRedis
