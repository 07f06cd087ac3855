import LibRedis.SelectedDatabase

/-!
# What a server executes for a client

What a server does between two moments is a history: it accepts connections and executes requests,
each with a reply. In every run of a client the history of its server falls into one piece for each
call: a SELECT that the client sends on its own account, and the request of the call, once or not at
all. A call that returns true has been executed, and its output is the reply that the server gave to
it and not to another.
-/

namespace LibRedis

open Resp (Reply)
open RedisProtocol (commandText requestOf Synced Exchanges)

/-- A request that was executed, with the reply to it. -/
abbrev Entry := List Bytes × Reply

variable {σ : Type} {server : Server σ}

/-- What a server does from one state to another: the requests in the order of execution. -/
inductive Server.History (server : Server σ) : σ → List Entry → σ → Prop
  /-- Nothing. -/
  | idle (state : σ) : History server state [] state
  /-- A connection is accepted. -/
  | accept {state last : σ} {entries : List Entry}
      (behind : History server (server.fresh state) entries last) : History server state entries last
  /-- A request is executed. -/
  | request {state last : σ} {entries : List Entry} (args : List Bytes)
      (behind : History server (server.handle state args).2 entries last) :
      History server state ((args, (server.handle state args).1) :: entries) last

namespace Server.History

/-- Histories one after the other. -/
theorem append {first next last : σ} {entries later : List Entry}
    (before : server.History first entries next) (behind : server.History next later last) :
    server.History first (entries ++ later) last := by
  induction before with
  | idle => exact behind
  | accept _ ih => exact .accept (ih behind)
  | request args _ ih => exact .request args (ih behind)

/-- A history is cut where its entries are. -/
theorem split {first last : σ} {entries later : List Entry}
    (whole : server.History first (entries ++ later) last) :
    ∃ next, server.History first entries next ∧ server.History next later last := by
  generalize same : entries ++ later = all at whole
  induction whole generalizing entries with
  | idle state =>
    obtain ⟨rfl, rfl⟩ := List.append_eq_nil_iff.mp same
    exact ⟨state, .idle state, .idle state⟩
  | accept _ ih =>
    obtain ⟨next, before, behind⟩ := ih same
    exact ⟨next, .accept before, behind⟩
  | @request state last rest args behind ih =>
    cases entries with
    | nil =>
      rw [List.nil_append] at same
      rw [same]
      exact ⟨state, .idle state, .request args behind⟩
    | cons entry entries =>
      rw [List.cons_append] at same
      obtain ⟨rfl, behind'⟩ := List.cons.inj same
      obtain ⟨next, before, behind⟩ := ih behind'
      exact ⟨next, .request args before, behind⟩

/-- One request. -/
theorem single (state : σ) (args : List Bytes) : server.History state
    [(args, (server.handle state args).1)] (server.handle state args).2 :=
  .request args (.idle _)

end Server.History

/-- Replies that a client reads to their end: well formed, and without errors inside arrays. -/
def AnswersWhole (server : Server σ) : Prop :=
  ∀ state args, (server.handle state args).1.WellFormed ∧ NoNestedError (server.handle state args).1

/-- The state of the server at the other end of a connection. -/
def RedisProtocol.served (p : RedisProtocol (Endpoint server)) : σ := p.tcpClient.os.peer.state

/-- The piece of a history for a command: it was not executed and failed, or it was executed once; if
it succeeded, the output is that of the reply, read for the type of the command or for a status. -/
def Executed (command : Command) (args : List Bytes) (ok : Bool) (out : RedisOutput)
    (entries : List Entry) : Prop :=
  (entries = [] ∧ ok = false) ∨ ∃ reply, entries = [(args, reply)] ∧ (ok = true → ∃ mode,
    Accepts (RedisProtocol.typeRead true mode command) reply ∧
    out = denoteAs (RedisProtocol.typeRead true mode command) reply)

/-- The piece of a history for the SELECT that may come before a command. -/
def Selected (entries : List Entry) : Prop :=
  entries = [] ∨ ∃ index reply, entries = [(requestOf (Redis2.selectCommand index), reply)]

namespace RedisProtocol

variable {p p' : RedisProtocol (Endpoint server)}

/-- An exchange executes its request once or not at all, and leaves nothing under way. -/
theorem exchanges_executed (whole : AnswersWhole server) {c c' : RedisCommand}
    {args : List Bytes} {reply : Reply} {next : σ}
    (handles : server.handle p.served args = (reply, next)) {ok : Bool}
    (exchanges : Exchanges p c reply next (.ok (ok, c', p'))) :
    p'.Synced ∧ ∃ entries, server.History p.served entries p'.served ∧
      Executed c.command args ok c'.out entries := by
  have executes (state : p'.served = next) :
      server.History p.served [(args, reply)] p'.served := by
    have single := @Server.History.single _ server p.served args
    rw [handles, ← state] at single
    exact single
  cases exchanges with
  | lost valid fd mode state reason =>
    refine ⟨Valid.synced valid fd, ?_⟩
    rcases state with unchanged | ⟨-, changed⟩
    · have same : p'.served = p.served := unchanged
      exact ⟨[], by rw [same]; exact .idle _, Or.inl ⟨rfl, rfl⟩⟩
    · exact ⟨[(args, reply)], executes changed, Or.inr ⟨reply, rfl, by simp⟩⟩
  | accepted synced' alive fd mode state accepts =>
    exact ⟨synced', [(args, reply)], executes state,
      Or.inr ⟨reply, rfl, fun _ => ⟨p.transactionMode, accepts, rfl⟩⟩⟩
  | @refused out _ left valid alive fd mode state unread refuses =>
    have flat := (whole p.served args).2
    rw [handles] at flat
    refine ⟨⟨valid, fun _ => ?_, fun _ => by rw [state]⟩, [(args, reply)],
      executes (by rw [served, state]), Or.inr ⟨reply, rfl, by simp⟩⟩
    rw [unread, (flat.refuses refuses).2]
    rfl

/-- So does `exec_command`. -/
theorem Synced.execCommand (whole : AnswersWhole server) (synced : p.Synced) {c c' : RedisCommand}
    (small : (commandText c).length < 2 ^ 31) {ok : Bool}
    (returns : p.execCommand c = .ok (ok, c', p')) :
    p'.Synced ∧ ∃ entries, server.History p.served entries p'.served ∧
      Executed c.command (requestOf c) ok c'.out entries := by
  rcases execCommand_cases synced small rfl (whole _ _).1 with
    ⟨-, text, refused⟩ | ⟨-, exchanges⟩
  · cases returns.symm.trans refused
    exact ⟨⟨synced.valid, synced.stream, synced.pending⟩, [], .idle _, Or.inl ⟨rfl, rfl⟩⟩
  · rw [returns] at exchanges
    exact exchanges_executed whole rfl exchanges

/-- So does a text. -/
theorem Synced.execCommandv (whole : AnswersWhole server) (synced : p.Synced) {c c' : RedisCommand}
    {buf : Bytes} (small : (commandvText (splitWords buf)).length < 2 ^ 31) {ok : Bool}
    (returns : p.execCommandv c buf = .ok (ok, c', p')) :
    p'.Synced ∧ ∃ entries, server.History p.served entries p'.served ∧
      Executed (commandvOf c buf).command (splitWords buf) ok c'.out entries := by
  rcases execCommandv_cases synced c small rfl (whole _ _).1 with
    ⟨text, c₁, refused⟩ | exchanges
  · cases returns.symm.trans refused
    exact ⟨⟨synced.valid, synced.stream, synced.pending⟩, [], .idle _, Or.inl ⟨rfl, rfl⟩⟩
  · rw [returns] at exchanges
    exact exchanges_executed whole rfl exchanges

/-- Making a connection executes nothing. -/
theorem Synced.assureConnect (synced : p.Synced) {ok : Bool} {status : Int}
    (assures : p.assureConnect = (ok, status, p')) :
    p'.Synced ∧ server.History p.served [] p'.served := by
  rcases assureConnect_cases synced.valid with
    ⟨p₁, same, -, -, looks, -⟩ | ⟨ok₁, status₁, p₁, same, -, -, shuts⟩ | ⟨p₁, same, -, opens⟩
  · cases same.symm.trans assures
    exact ⟨looks.synced synced, by rw [served, served, looks.peer]; exact .idle _⟩
  · cases same.symm.trans assures
    exact ⟨Valid.synced shuts.valid shuts.fd, by rw [served, served, shuts.peer]; exact .idle _⟩
  · cases same.symm.trans assures
    exact ⟨opens.synced, by rw [served, served, opens.peer]; exact .accept (.idle _)⟩

/-- So does `connect`. -/
theorem Synced.connect (synced : p.Synced) {ok : Bool} (connects : p.connect = (ok, p')) :
    p'.Synced ∧ server.History p.served [] p'.served := by
  rcases connect_cases synced.valid with ⟨ok₁, p₁, same, shuts⟩ | ⟨p₁, same, opens⟩
  · cases same.symm.trans connects
    exact ⟨Valid.synced shuts.valid shuts.fd, by rw [served, served, shuts.peer]; exact .idle _⟩
  · cases same.symm.trans connects
    exact ⟨opens.synced, by rw [served, served, opens.peer]; exact .accept (.idle _)⟩

end RedisProtocol

namespace Redis2

/-- A call that may send a request. The methods about keys are `exec` with the command they send;
`exec`, `discard` and `add_command` are `checked`. -/
inductive Sending where
  /-- `connect`. -/
  | connect
  /-- `close`. -/
  | close
  /-- `select`. -/
  | select (index : Int32)
  /-- `exec_command`. -/
  | exec (c : RedisCommand)
  /-- `exec_command` with a format. -/
  | execv (c : RedisCommand) (buf : Bytes)
  /-- A command that waits without a timeout. -/
  | blocking (c : RedisCommand)
  /-- `check_connect`, then the command. -/
  | checked (c : RedisCommand)
  /-- `check_connect`, then the command of a text. -/
  | checkedv (c : RedisCommand) (buf : Bytes)

/-- `check_connect`, then a command: what `exec`, `discard` and `add_command` begin with. -/
def execChecked {π : Type} [Peer π] (r : Redis2 π) (c : RedisCommand) :
    Except Abort (Bool × RedisCommand × Redis2 π) :=
  let (connected, r) := r.checkConnect
  if !connected then .ok (false, c, r) else r.protoExecCommand c

/-- The same with the text of a command. -/
def execCheckedv {π : Type} [Peer π] (r : Redis2 π) (c : RedisCommand) (buf : Bytes) :
    Except Abort (Bool × RedisCommand × Redis2 π) :=
  let (connected, r) := r.checkConnect
  if !connected then .ok (false, c, r) else r.protoExecCommandv c buf

/-- Whether a call succeeds, the output of its command, and the client behind it. -/
def send {π : Type} [Peer π] (r : Redis2 π) : Sending → Except Abort (Bool × RedisOutput × Redis2 π)
  | .connect => .ok (r.connect.1, .none, r.connect.2)
  | .close => .ok (true, .none, r.close)
  | .select index => (r.select index).map fun (ok, r) => (ok, .none, r)
  | .exec c => (r.execCommand c).map fun (ok, c, r) => (ok, c.out, r)
  | .execv c buf => (r.execCommandv c buf).map fun (ok, c, r) => (ok, c.out, r)
  | .blocking c => (r.execBlocking c).map fun (ok, c, r) => (ok, c.out, r)
  | .checked c => (r.execChecked c).map fun (ok, c, r) => (ok, c.out, r)
  | .checkedv c buf => (r.execCheckedv c buf).map fun (ok, c, r) => (ok, c.out, r)

/-- A call whose request fits into an `int`. -/
def Sending.Small : Sending → Prop
  | .connect | .close | .select _ => True
  | .exec c | .blocking c | .checked c => (commandText c).length < 2 ^ 31
  | .execv _ buf | .checkedv _ buf =>
    (RedisProtocol.commandvText (RedisProtocol.splitWords buf)).length < 2 ^ 31

/-- The piece of a history for a call. -/
def Sending.Accounts (ok : Bool) (out : RedisOutput) (entries : List Entry) : Sending → Prop
  | .connect | .close => entries = []
  | .select index => (entries = [] ∧ ok = false) ∨ ∃ reply,
      entries = [(requestOf (selectCommand index), reply)] ∧
      (ok = true → reply = .status (Decimal.ascii "OK"))
  | .exec c | .blocking c => ∃ selects own, entries = selects ++ own ∧ Selected selects ∧
      Executed c.command (requestOf c) ok out own
  | .execv c buf => ∃ selects own, entries = selects ++ own ∧ Selected selects ∧
      Executed (RedisProtocol.commandvOf c buf).command (RedisProtocol.splitWords buf) ok out own
  | .checked c => Executed c.command (requestOf c) ok out entries
  | .checkedv c buf =>
      Executed (RedisProtocol.commandvOf c buf).command (RedisProtocol.splitWords buf) ok out entries

variable {r r' : Redis2 (Endpoint server)}

/-- SELECT on a connection is executed once or not at all, and with the status OK if it succeeds. -/
theorem selectConnected_accounts (whole : AnswersWhole server) (synced : r.proto.Synced)
    {index : Int32} {ok : Bool} (returns : r.selectConnected index = .ok (ok, r')) :
    r'.proto.Synced ∧ ∃ entries, server.History r.proto.served entries r'.proto.served ∧
      (Sending.select index).Accounts ok .none entries := by
  obtain ⟨answered, c', proto, sends, ends⟩ := selectConnected_returns returns
  obtain ⟨synced', entries, history, executed⟩ :=
    synced.execCommand whole (selectCommand_small index) sends
  have accounts (good : ok = true → answered = true ∧ c'.out.isStatusOk = true) :
      (Sending.select index).Accounts ok .none entries := by
    rcases executed with ⟨nothing, failed⟩ | ⟨reply, once, succeeds⟩
    · refine Or.inl ⟨nothing, ?_⟩
      cases ok with
      | false => rfl
      | true => cases failed.symm.trans (good rfl).1
    · refine Or.inr ⟨reply, once, fun yes => ?_⟩
      obtain ⟨yes, status⟩ := good yes
      obtain ⟨mode, accepts, out⟩ := succeeds yes
      have type : RedisProtocol.typeRead true mode (selectCommand index).command = .status := by
        cases mode <;> rfl
      rw [type] at accepts out
      obtain ⟨text, rfl⟩ := accepts
      have same : c'.out = .status text := out
      rw [same] at status
      exact congrArg Reply.status (eq_of_beq status)
  rcases ends with ⟨rfl, rfl, rfl⟩ | ⟨rfl, good, text, rfl⟩
  · exact ⟨synced', entries, history, accounts (by simp)⟩
  · exact ⟨⟨synced'.valid, synced'.stream, synced'.pending⟩, entries, history,
      accounts fun yes => ⟨rfl, good.symm.trans yes⟩⟩

/-- `select`. -/
theorem select_accounts (whole : AnswersWhole server) (synced : r.proto.Synced) {index : Int32}
    {ok : Bool} (returns : r.select index = .ok (ok, r')) :
    r'.proto.Synced ∧ ∃ entries, server.History r.proto.served entries r'.proto.served ∧
      (Sending.select index).Accounts ok .none entries := by
  cases assures : r.proto.assureConnect with
  | mk connected rest =>
    obtain ⟨status, p⟩ := rest
    obtain ⟨synced₁, opens⟩ := synced.assureConnect assures
    rw [select, assures] at returns
    cases connected with
    | false =>
      cases returns
      exact ⟨synced₁, [], opens, Or.inl ⟨rfl, rfl⟩⟩
    | true =>
      change selectConnected { r with proto := p } index = _ at returns
      obtain ⟨synced', entries, history, accounts⟩ :=
        selectConnected_accounts (r := { r with proto := p }) whole synced₁ returns
      exact ⟨synced', entries, opens.append history, accounts⟩

/-- `assure_connect` executes a SELECT, or nothing. -/
theorem assureConnect_accounts (whole : AnswersWhole server) (synced : r.proto.Synced) {ok : Bool}
    (returns : r.assureConnect = .ok (ok, r')) :
    r'.proto.Synced ∧ ∃ entries, server.History r.proto.served entries r'.proto.served ∧
      Selected entries := by
  cases assures : r.proto.assureConnect with
  | mk connected rest =>
    obtain ⟨status, p⟩ := rest
    obtain ⟨synced₁, opens⟩ := synced.assureConnect assures
    have selects {r₁ : Redis2 (Endpoint server)} (same : r₁.proto = p)
        (returns : r₁.assureDatabase = .ok (ok, r')) :
        r'.proto.Synced ∧ ∃ entries, server.History r.proto.served entries r'.proto.served ∧
          Selected entries := by
      rw [assureDatabase] at returns
      split at returns
      · obtain ⟨synced', entries, history, accounts⟩ :=
          select_accounts whole (same ▸ synced₁) returns
        rw [same] at history
        refine ⟨synced', entries, opens.append history, ?_⟩
        rcases accounts with ⟨nothing, -⟩ | ⟨reply, once, -⟩
        · exact Or.inl nothing
        · exact Or.inr ⟨_, reply, once⟩
      · cases returns
        rw [same]
        exact ⟨synced₁, [], opens, Or.inl rfl⟩
    rw [assureConnect, assures] at returns
    cases connected with
    | false =>
      cases returns
      exact ⟨synced₁, [], opens, Or.inl rfl⟩
    | true =>
      change (if status = 1 then assureDatabase (onReset { r with proto := p })
        else assureDatabase { r with proto := p }) = _ at returns
      split at returns
      · exact selects rfl returns
      · exact selects rfl returns

/-- A command sent behind `assure_connect` follows its SELECT. -/
theorem assured_accounts {r₁ : Redis2 (Endpoint server)} {before : List Entry}
    {command : Command} {args : List Bytes} {ok : Bool} {out : RedisOutput}
    (selects : server.History r.proto.served before r₁.proto.served ∧ Selected before)
    (executes : r'.proto.Synced ∧ ∃ entries,
      server.History r₁.proto.served entries r'.proto.served ∧
      Executed command args ok out entries) :
    r'.proto.Synced ∧ ∃ entries, server.History r.proto.served entries r'.proto.served ∧
      ∃ selects own, entries = selects ++ own ∧ Selected selects ∧
        Executed command args ok out own := by
  obtain ⟨first, selected⟩ := selects
  obtain ⟨synced, own, second, executed⟩ := executes
  exact ⟨synced, before ++ own, first.append second, before, own, rfl, selected, executed⟩

/-- `check_connect` executes nothing. -/
theorem checkConnect_accounts (synced : r.proto.Synced) {ok : Bool}
    (checks : r.checkConnect = (ok, r')) :
    r'.proto.Synced ∧ r'.proto.served = r.proto.served := by
  obtain ⟨found, p, shows, looks, -, -⟩ := RedisProtocol.isOpen_cases synced.valid
  have kept : p.Synced ∧ p.served = r.proto.served :=
    ⟨looks.synced synced, congrArg Endpoint.state looks.peer⟩
  rw [checkConnect, RedisProtocol.checkConnect, shows] at checks
  cases found with
  | false =>
    cases checks
    exact ⟨⟨kept.1.valid, kept.1.stream, kept.1.pending⟩, kept.2⟩
  | true =>
    cases checks
    exact kept

/-- Every call adds its piece to the history. There is one case for each call. -/
theorem send_accounts (whole : AnswersWhole server) (synced : r.proto.Synced) {sending : Sending}
    (small : sending.Small) {ok : Bool} {out : RedisOutput}
    (returns : r.send sending = .ok (ok, out, r')) :
    r'.proto.Synced ∧ ∃ entries, server.History r.proto.served entries r'.proto.served ∧
      sending.Accounts ok out entries := by
  cases sending with
  | connect =>
    cases connects : r.proto.connect with
    | mk connected p =>
      have same : r.connect.2 = { r with proto := p } := by rw [connect, connects]
      obtain ⟨synced', history⟩ := synced.connect connects
      cases returns
      rw [same]
      exact ⟨synced', [], history, rfl⟩
  | close =>
    cases returns
    have closes := synced.valid.close_receives
    refine ⟨RedisProtocol.Valid.synced closes.1.valid closes.2, [], ?_, rfl⟩
    change server.History r.proto.served [] r.proto.tcpClient.close.os.peer.state
    rw [closes.1.frame]
    exact .idle _
  | select index =>
    obtain ⟨⟨selected, r₁⟩, selects, same⟩ := map_returns returns
    cases same
    exact select_accounts whole synced selects
  | exec c =>
    obtain ⟨⟨sent, c', r₁⟩, executes, same⟩ := map_returns returns
    cases same
    obtain ⟨⟨connected, r₂⟩, assures, sends⟩ := bind_returns executes
    obtain ⟨synced₂, before, selects⟩ := assureConnect_accounts whole synced assures
    cases connected with
    | false =>
      cases sends
      exact assured_accounts selects ⟨synced₂, [], .idle _, Or.inl ⟨rfl, rfl⟩⟩
    | true =>
      obtain ⟨proto, answers, rfl⟩ := protoExecCommand_returns (r := r₂) sends
      exact assured_accounts selects (synced₂.execCommand whole small answers)
  | execv c buf =>
    obtain ⟨⟨sent, c', r₁⟩, executes, same⟩ := map_returns returns
    cases same
    obtain ⟨⟨connected, r₂⟩, assures, sends⟩ := bind_returns executes
    obtain ⟨synced₂, before, selects⟩ := assureConnect_accounts whole synced assures
    cases connected with
    | false =>
      cases sends
      exact assured_accounts selects ⟨synced₂, [], .idle _, Or.inl ⟨rfl, rfl⟩⟩
    | true =>
      obtain ⟨proto, answers, rfl⟩ := protoExecCommandv_returns (r := r₂) sends
      exact assured_accounts selects (synced₂.execCommandv whole small answers)
  | blocking c =>
    obtain ⟨⟨sent, c', r₁⟩, executes, same⟩ := map_returns returns
    cases same
    obtain ⟨⟨connected, r₂⟩, assures, sends⟩ := bind_returns executes
    obtain ⟨synced₂, before, selects⟩ := assureConnect_accounts whole synced assures
    cases connected with
    | false =>
      cases sends
      exact assured_accounts selects ⟨synced₂, [], .idle _, Or.inl ⟨rfl, rfl⟩⟩
    | true =>
      obtain ⟨⟨sent, c₁, r₃⟩, waits, same⟩ := bind_returns sends
      cases same
      obtain ⟨proto, answers, rfl⟩ := protoExecCommand_returns (r := r₂.setBlockingMode true) waits
      have patient : (r₂.setBlockingMode true).proto.Synced :=
        ⟨synced₂.valid, synced₂.stream, synced₂.pending⟩
      obtain ⟨synced', entries, history, executed⟩ := patient.execCommand whole small answers
      exact assured_accounts selects ⟨⟨synced'.valid, synced'.stream, synced'.pending⟩, entries,
        history, executed⟩
  | checked c =>
    obtain ⟨⟨sent, c', r₁⟩, executes, same⟩ := map_returns returns
    cases same
    cases checks : r.checkConnect with
    | mk connected r₂ =>
      obtain ⟨synced₂, kept⟩ := checkConnect_accounts synced checks
      rw [execChecked, checks] at executes
      rw [← kept]
      cases connected with
      | false =>
        cases executes
        exact ⟨synced₂, [], .idle _, Or.inl ⟨rfl, rfl⟩⟩
      | true =>
        obtain ⟨proto, answers, rfl⟩ := protoExecCommand_returns (r := r₂) executes
        exact synced₂.execCommand whole small answers
  | checkedv c buf =>
    obtain ⟨⟨sent, c', r₁⟩, executes, same⟩ := map_returns returns
    cases same
    cases checks : r.checkConnect with
    | mk connected r₂ =>
      obtain ⟨synced₂, kept⟩ := checkConnect_accounts synced checks
      rw [execCheckedv, checks] at executes
      rw [← kept]
      cases connected with
      | false =>
        cases executes
        exact ⟨synced₂, [], .idle _, Or.inl ⟨rfl, rfl⟩⟩
      | true =>
        obtain ⟨proto, answers, rfl⟩ := protoExecCommandv_returns (r := r₂) executes
        exact synced₂.execCommandv whole small answers

/-- A call as an observer sees it: with its success and the output of its command. -/
abbrev Sent := Sending × Bool × RedisOutput

/-- A call that fits and returns. -/
def Sends {π : Type} [Peer π] (r : Redis2 π) (sent : Sent) (r' : Redis2 π) : Prop :=
  sent.1.Small ∧ r.send sent.1 = .ok (sent.2.1, sent.2.2, r')

/-- Along every run the history grows by one piece for each call, in the order of the calls. -/
theorem run_accounts (whole : AnswersWhole server) {calls : List Sent}
    (run : Simulation.Run Sends r calls r') (synced : r.proto.Synced) :
    ∃ pieces, List.Forall₂ (fun (sent : Sent) entries =>
        sent.1.Accounts sent.2.1 sent.2.2 entries) calls pieces ∧
      server.History r.proto.served pieces.flatten r'.proto.served :=
  run.pieces (fun r entries r' => server.History r.proto.served entries r'.proto.served)
    (fun r => .idle r.proto.served) (fun before behind => before.append behind)
    (fun _ _ _ synced sends => send_accounts whole synced sends.1 sends.2) synced

/-- Nothing is under way for a client that has not connected yet. -/
theorem new_synced (host port : Bytes) (dbIndex : Int32) (timeout : Int) {os : Os (Endpoint server)}
    (silent : os.incoming = []) : (new host port dbIndex timeout os).proto.Synced :=
  RedisProtocol.Valid.synced
    (TcpClient.closed_valid rfl TcpClientBuffer.new_valid TcpClientBuffer.new_unread silent) rfl

/-- A reply is read for a status, or for the command's own type. -/
theorem typeRead_cases (mode : Bool) (command : Command) :
    RedisProtocol.typeRead true mode command = .status ∨
      RedisProtocol.typeRead true mode command = command.commandInfo.replyType := by
  unfold RedisProtocol.typeRead
  split_ifs with checks
  · unfold RedisProtocol.expectedType
    split_ifs
    · split <;> simp
    · exact Or.inr rfl
  · simp only [Bool.true_and, bne_iff_ne, ne_eq, not_not] at checks
    exact Or.inr checks.symm

/-- A reply that is no status is accepted for the command's own type. -/
theorem accepts_own {mode : Bool} {command : Command} {reply : Reply}
    (accepts : Accepts (RedisProtocol.typeRead true mode command) reply)
    (other : ∀ text, reply ≠ .status text) :
    RedisProtocol.typeRead true mode command = command.commandInfo.replyType := by
  rcases typeRead_cases mode command with status | own
  · rw [status] at accepts
    obtain ⟨text, is⟩ := accepts
    exact absurd is (other text)
  · exact own

section Observed

variable {α : Type} {observed : σ → α} {first last : σ}

/-- What neither a SELECT nor a new connection changes of the state of a server. -/
structure Keeps (server : Server σ) (observed : σ → α) : Prop where
  /-- SELECT leaves it. -/
  select (state : σ) (index : Int32) :
    observed (server.handle state (requestOf (selectCommand index))).2 = observed state
  /-- So does a new connection. -/
  fresh (state : σ) : observed (server.fresh state) = observed state

/-- A history without requests leaves it. -/
theorem Keeps.idle (keeps : Keeps server observed) (history : server.History first [] last) :
    observed last = observed first := by
  generalize same : ([] : List Entry) = entries at history
  induction history with
  | idle state => rfl
  | accept behind ih => exact (ih same).trans (keeps.fresh _)
  | request args behind ih => cases same

/-- A history of one request is that request, and connections. -/
theorem Keeps.single (keeps : Keeps server observed) {args : List Bytes} {reply : Reply}
    (history : server.History first [(args, reply)] last) :
    ∃ state, observed state = observed first ∧ reply = (server.handle state args).1 ∧
      observed last = observed (server.handle state args).2 := by
  generalize same : [(args, reply)] = entries at history
  induction history with
  | idle state => cases same
  | accept behind ih =>
    obtain ⟨state, before, answers, after⟩ := ih same
    exact ⟨state, before.trans (keeps.fresh _), answers, after⟩
  | @request state last rest args' behind ih =>
    obtain ⟨here, rfl⟩ := List.cons.inj same
    obtain ⟨rfl, rfl⟩ := Prod.mk.inj here
    exact ⟨state, rfl, rfl, keeps.idle behind⟩

/-- A SELECT of the client's own leaves it. -/
theorem Keeps.selected (keeps : Keeps server observed) {entries : List Entry}
    (selected : Selected entries) (history : server.History first entries last) :
    observed last = observed first := by
  rcases selected with rfl | ⟨index, reply, rfl⟩
  · exact keeps.idle history
  · obtain ⟨state, before, -, after⟩ := keeps.single history
    rw [after, keeps.select, before]

/-- What a command that is executed leaves: nothing is changed and it failed, or the server has
answered it once; if it succeeded, the output is that of the reply. -/
def Answered (server : Server σ) (observed : σ → α) (first last : σ) (c : RedisCommand) (ok : Bool)
    (out : RedisOutput) : Prop :=
  (observed last = observed first ∧ ok = false) ∨
    ∃ state, observed state = observed first ∧
      observed last = observed (server.handle state (requestOf c)).2 ∧
      (ok = true → ∃ mode,
        Accepts (RedisProtocol.typeRead true mode c.command) (server.handle state (requestOf c)).1 ∧
        out = denoteAs (RedisProtocol.typeRead true mode c.command)
          (server.handle state (requestOf c)).1)

/-- A piece of a history for a command. -/
theorem Keeps.executed (keeps : Keeps server observed) {c : RedisCommand} {ok : Bool}
    {out : RedisOutput} {entries : List Entry}
    (executed : Executed c.command (requestOf c) ok out entries)
    (history : server.History first entries last) :
    Answered server observed first last c ok out := by
  rcases executed with ⟨rfl, rfl⟩ | ⟨reply, rfl, succeeds⟩
  · exact Or.inl ⟨keeps.idle history, rfl⟩
  · obtain ⟨state, before, rfl, after⟩ := keeps.single history
    exact Or.inr ⟨state, before, after, succeeds⟩

/-- The command object of a call. -/
def Sending.command : Sending → Option RedisCommand
  | .exec c | .blocking c | .checked c => some c
  | .connect | .close | .select _ | .execv _ _ | .checkedv _ _ => none

/-- A piece of a history for a call with a command object. -/
theorem Keeps.call (keeps : Keeps server observed) {sending : Sending} {c : RedisCommand}
    (named : sending.command = some c) {ok : Bool} {out : RedisOutput} {entries : List Entry}
    (accounts : sending.Accounts ok out entries) (history : server.History first entries last) :
    Answered server observed first last c ok out := by
  have connected (accounts : ∃ selects own, entries = selects ++ own ∧ Selected selects ∧
      Executed c.command (requestOf c) ok out own) :
      Answered server observed first last c ok out := by
    obtain ⟨selects, own, rfl, selected, executed⟩ := accounts
    obtain ⟨middle, before, behind⟩ := history.split
    have answered := keeps.executed executed behind
    unfold Answered at answered
    rw [keeps.selected selected before] at answered
    exact answered
  cases sending with
  | exec c' =>
    cases named
    exact connected accounts
  | blocking c' =>
    cases named
    exact connected accounts
  | checked c' =>
    cases named
    exact keeps.executed accounts history
  | _ => cases named

/-- A piece of a history for a call that makes, ends or selects. -/
theorem Keeps.quiet (keeps : Keeps server observed) {sending : Sending} {ok : Bool}
    {out : RedisOutput} {entries : List Entry} (accounts : sending.Accounts ok out entries)
    (quiet : sending = .connect ∨ sending = .close ∨ ∃ index, sending = .select index)
    (history : server.History first entries last) : observed last = observed first := by
  rcases quiet with rfl | rfl | ⟨index, rfl⟩
  · cases accounts
    exact keeps.idle history
  · cases accounts
    exact keeps.idle history
  · refine keeps.selected ?_ history
    rcases accounts with ⟨nothing, -⟩ | ⟨reply, once, -⟩
    · exact Or.inl nothing
    · exact Or.inr ⟨index, reply, once⟩

end Observed

/-- Calls one after the other, until the first that does not return. -/
def sendAll {π : Type} [Peer π] : List Sending → Redis2 π → Except Abort (List Sent × Redis2 π)
  | [], r => return ([], r)
  | sending :: rest, r => do
    let (ok, out, r) ← r.send sending
    let (calls, r) ← sendAll rest r
    return ((sending, ok, out) :: calls, r)

/-- They are a run. -/
theorem run_of_sendAll {π : Type} [Peer π] {sendings : List Sending} {r r' : Redis2 π}
    {calls : List Sent} (small : ∀ sending ∈ sendings, sending.Small)
    (returns : sendAll sendings r = .ok (calls, r')) :
    Simulation.Run Sends r calls r' ∧ calls.map Prod.fst = sendings := by
  induction sendings generalizing r calls with
  | nil =>
    cases returns
    exact ⟨.done _, rfl⟩
  | cons sending rest ih =>
    obtain ⟨⟨ok, out, r₁⟩, sends, returns⟩ := bind_returns returns
    obtain ⟨⟨calls₁, r₂⟩, behind, same⟩ := bind_returns returns
    cases same
    obtain ⟨run, names⟩ := ih (fun later member => small later (List.mem_cons_of_mem _ member)) behind
    exact ⟨.step ⟨small sending List.mem_cons_self, sends⟩ run, congrArg (sending :: ·) names⟩

end Redis2

end LibRedis
