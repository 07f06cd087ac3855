import LibRedis.Connection
import LibRedis.Request

/-!
# Commands against a server

A server reads requests off its end of the connection and answers each with a reply. `Exchanges`
says what sending a request and reading the reply to it does on a connection where nothing is under
way: all the outcomes of the client's functions, with what the server has done in each.
-/

namespace LibRedis

open Resp (Reply encode encodeAll)

/-- A server: what it does when a connection is made and with each request. -/
structure Server (σ : Type) where
  /-- A new connection is accepted. -/
  fresh : σ → σ
  /-- A request is executed; the reply to it. -/
  handle : σ → List Bytes → Reply × σ

/-- The server's end of a connection. -/
structure Endpoint {σ : Type} (server : Server σ) where
  /-- The bytes of a request that has not arrived whole. -/
  pending : Bytes
  /-- The state of the server. -/
  state : σ

namespace Endpoint

variable {σ : Type} {server : Server σ}

/-- Every request that has arrived whole is executed, in order. -/
def serve (server : Server σ) : Nat → σ → Bytes → Bytes × Endpoint server
  | 0, state, bytes => ([], ⟨bytes, state⟩)
  | fuel + 1, state, bytes =>
    match Resp.parseRequest bytes with
    | none => ([], ⟨bytes, state⟩)
    | some (args, rest) =>
      let (reply, state) := server.handle state args
      let (answer, e) := serve server fuel state rest
      (encode reply ++ answer, e)

instance : Peer (Endpoint server) where
  accept e := ([], ⟨[], server.fresh e.state⟩)
  receive e bytes := serve server (e.pending ++ bytes).length e.state (e.pending ++ bytes)

/-- A whole request is executed and answered. -/
theorem receive_request {e : Endpoint server} (nothing : e.pending = []) (args : List Bytes) :
    Peer.receive e (Resp.request args) =
      (encode (server.handle e.state args).1, ⟨[], (server.handle e.state args).2⟩) := by
  change serve server (e.pending ++ Resp.request args).length e.state
    (e.pending ++ Resp.request args) = _
  have parsed := Resp.parseRequest_request args []
  have none : Resp.parseRequest [] = none := rfl
  rw [List.append_nil] at parsed
  obtain ⟨fuel, length⟩ : ∃ fuel, (Resp.request args).length = fuel + 2 := by
    refine ⟨(Resp.request args).length - 2, ?_⟩
    have ends : Resp.crlf.length = 2 := rfl
    simp only [Resp.request, List.length_cons, List.length_append]
    omega
  rw [nothing, List.nil_append, length, serve, parsed]
  simp only [serve, none, List.append_nil]

/-- A part of a request is not answered, and waits for the rest of it. -/
theorem receive_part {e : Endpoint server} (nothing : e.pending = []) {args : List Bytes}
    {part more : Bytes} (whole : Resp.request args = part ++ more) (missing : more ≠ []) :
    Peer.receive e part = ([], ⟨part, e.state⟩) := by
  change serve server (e.pending ++ part).length e.state (e.pending ++ part) = _
  rw [nothing, List.nil_append]
  cases part.length with
  | zero => rfl
  | succ fuel => rw [serve, Resp.parseRequest_part whole.symm missing]

/-- So the server is as it was. -/
theorem peerAfter_part {e : Endpoint server} (nothing : e.pending = []) {args : List Bytes}
    {part more : Bytes} (whole : Resp.request args = part ++ more) (missing : more ≠ []) :
    (TcpClient.peerAfter e part).state = e.state := by
  rw [TcpClient.peerAfter]
  split
  · rfl
  · rw [receive_part nothing whole missing]

end Endpoint

/-- Behind a request that was written whole the reply to it is on its way. -/
theorem TcpClient.Writes.answered {σ : Type} {server : Server σ}
    {c client : TcpClient (Endpoint server)}
    {args : List Bytes} (writes : c.Writes (Resp.request args) client)
    (nothing : c.os.peer.pending = []) {r : Reply} {next : σ}
    (handles : server.handle c.os.peer.state args = (r, next)) :
    client.stream = c.stream ++ encode r ∧ client.os.peer = ⟨[], next⟩ := by
  have received := Endpoint.receive_request nothing args
  rw [handles] at received
  constructor
  · rw [TcpClient.stream, writes.frame, TcpClient.stream]
    change c.buffer.unread ++ (c.os.incoming ++ _) = _
    rw [congrArg Prod.fst received, ← List.append_assoc]
  · rw [writes.frame]
    exact congrArg Prod.snd received

namespace RedisProtocol

section
variable {π : Type} [Peer π]

/-- A request was not sent whole, and the connection is closed. -/
structure Lost (p : RedisProtocol π) (request : Bytes) (p' : RedisProtocol π) : Prop where
  /-- The client is valid. -/
  valid : p'.Valid
  /-- There is no connection. -/
  fd : p'.tcpClient.fd = -1
  /-- The peer has received a part that is not the whole. -/
  part : ∃ part more, request = part ++ more ∧ more ≠ [] ∧
    p'.tcpClient.os.peer = TcpClient.peerAfter p.tcpClient.os.peer part ∧
    (p.tcpClient.fd = -1 → part = [])

/-- A request can be sent: there is a connection, and every `send` accepts something. -/
def CanSend (p : RedisProtocol π) : Prop := 0 ≤ p.tcpClient.fd ∧ p.tcpClient.os.Accepts

/-- What sending a request does. -/
theorem sendRequest_cases {p : RedisProtocol π} (valid : p.Valid) (c : RedisCommand)
    {request : Bytes} (some : request ≠ []) (small : request.length < 2 ^ 31) :
    (p.sendRequest c request = .error .diverges ∧ ¬ p.CanSend) ∨
    (∃ ok c' p', p.sendRequest c request = .ok (ok, c', p') ∧ p.Lost request p' ∧
      (ok = true ∨ p'.transactionMode = false) ∧ ¬ p.CanSend) ∨
    (∃ client, p.sendRequest c request = .ok (true, c, { p with tcpClient := client }) ∧
      p.tcpClient.Writes request client ∧
      (p.tcpClient.os.Accepts → client.os.errno = p.tcpClient.os.errno)) := by
  rcases TcpClient.write_cases valid some small p.timeout with
    ⟨hangs, reason⟩ | ⟨ec, client, fails, loses, reason⟩ | ⟨client, sent, writes, quiet⟩
  · refine Or.inl ⟨?_, reason⟩
    rw [sendRequest, hangs]
    rfl
  · obtain ⟨part, more, whole, missing, peer, nothing⟩ := loses.part
    have closed : client.fd = -1 := by rw [loses.frame]
    by_cases silent : ec = 0
    · refine Or.inr (Or.inl ⟨true, c, { p with tcpClient := client }, ?_,
        ⟨loses.valid, closed, part, more, whole, missing, peer, nothing⟩, Or.inl rfl, reason⟩)
      rw [sendRequest, fails]
      change (if ec ≠ 0 then _ else _) = _
      rw [if_neg (not_not.mpr silent)]
      rfl
    · let p₁ : RedisProtocol π := { p with tcpClient := client }
      have ends : p₁.Ends (p₁.abandon (Decimal.ascii "write") (p₁.ecToString ec)) :=
        Valid.abandon_ends loses.valid _ _
      refine Or.inr (Or.inl ⟨false,
        { c with out := .error (p₁.abandon (Decimal.ascii "write") (p₁.ecToString ec)).error },
        p₁.abandon (Decimal.ascii "write") (p₁.ecToString ec), ?_,
        ⟨ends.reads.valid, ends.fd, part, more, whole, missing, ?_, nothing⟩,
        Or.inr ends.transactionMode, reason⟩)
      · rw [sendRequest, fails]
        change (if ec ≠ 0 then _ else _) = _
        rw [if_pos silent]
        rfl
      · rw [ends.reads.client.frame]
        exact peer
  · refine Or.inr (Or.inr ⟨client, ?_, writes, quiet⟩)
    rw [sendRequest, sent]
    rfl

end

/-- Where nothing is to be read, no reply is. -/
theorem readReply_nothing {π : Type} {p : RedisProtocol π} (valid : p.Valid)
    (nothing : p.stream = []) (c : RedisCommand) :
    (∃ abort, p.readReply c = .error abort) ∨
      ∃ c' p', p.readReply c = .ok (false, c', p') ∧ p.Ends p' := by
  have inner (fuel : Nat) :
      (∃ abort, readReplyInner c.command (fuel + 1) true c.out p = .error abort) ∨
        ∃ out p', readReplyInner c.command (fuel + 1) true c.out p = .ok (false, out, p') ∧
          p.Ends p' := by
    rcases TcpClient.readLine_cases valid redisLineEnd (by decide) p.readTimeout with
      ⟨abort, aborts, -⟩ | ⟨returned, same, loses, -⟩ | ⟨returned, -, -, splits⟩
    · refine Or.inl ⟨abort, ?_⟩
      rw [readReplyInner, readLine, aborts]
      rfl
    · obtain ⟨l, p', result, ends⟩ := received_cases.1 loses
      have line : p.readLine = .ok (false, l, p') := by
        rw [readLine, same]
        exact congrArg Except.ok result
      refine Or.inr ⟨.error p'.error, p', ?_, ends⟩
      rw [readReplyInner, line]
      rfl
    · have whole := splits.eq
      have none : p.tcpClient.stream = [] := nothing
      rw [none] at whole
      simp [Resp.crlf] at whole
  rw [readReply]
  rcases inner (p.tcpClient.buffer.readSize + p.tcpClient.os.incoming.length) with
    ⟨abort, aborts⟩ | ⟨out, p', fails, ends⟩
  · refine Or.inl ⟨abort, ?_⟩
    rw [aborts]
    rfl
  · refine Or.inr ⟨{ c with out := out }, p', ?_, ends⟩
    rw [fails]
    rfl

variable {σ : Type} {server : Server σ}

/-- Nothing is under way on the connection, if there is one. -/
structure Synced (p : RedisProtocol (Endpoint server)) : Prop where
  /-- The client is valid. -/
  valid : p.Valid
  /-- No reply is on its way or unread. -/
  stream : p.tcpClient.fd ≠ -1 → p.stream = []
  /-- No part of a request has arrived. -/
  pending : p.tcpClient.fd ≠ -1 → p.tcpClient.os.peer.pending = []

/-- Where nothing is under way, nothing is unread. -/
theorem Synced.stream_nil {p : RedisProtocol (Endpoint server)} (synced : p.Synced) :
    p.stream = [] := by
  by_cases closed : p.tcpClient.fd = -1
  · exact synced.valid.closed closed
  · exact synced.stream closed

/-- A client that has just connected to a server in this state. -/
def connected (server : Server σ) (state : σ) : RedisProtocol (Endpoint server) :=
  ((new (Decimal.ascii "localhost") (Decimal.ascii "6379") 1000 (.start ⟨[], state⟩ [])).connect).2

/-- On a connection just made nothing is under way. -/
theorem connected_synced (server : Server σ) (state : σ) :
    (connected server state).Synced ∧ (connected server state).tcpClient.fd = 3 := by
  have start : (TcpClient.new (Os.start (⟨[], state⟩ : Endpoint server) [])).Valid :=
    TcpClient.closed_valid rfl TcpClientBuffer.new_valid TcpClientBuffer.new_unread rfl
  exact ⟨⟨TcpClient.connect_valid start, fun _ => rfl, fun _ => rfl⟩, rfl⟩

/-- Nothing stands in the way of a request and its reply. -/
structure Healthy (p : RedisProtocol (Endpoint server)) (r : Reply) : Prop where
  /-- The request can be sent. -/
  send : p.CanSend
  /-- The reply can be read. -/
  reply : p.Smooth r

/-- How a request and its reply can turn out, when the server gives this reply and is then in this
state. -/
inductive Exchanges (p : RedisProtocol (Endpoint server)) (c : RedisCommand) (r : Reply) (next : σ) :
    Except Abort (Bool × RedisCommand × RedisProtocol (Endpoint server)) → Prop
  /-- It waits for ever, or there is no room for the reply. -/
  | aborts {abort : Abort} (reason : ¬ p.Healthy r) : Exchanges p c r next (.error abort)
  /-- The connection is closed; the server may have executed the request. -/
  | lost {c' : RedisCommand} {p' : RedisProtocol (Endpoint server)} (valid : p'.Valid)
      (fd : p'.tcpClient.fd = -1) (mode : p'.transactionMode = false)
      (state : p'.tcpClient.os.peer.state = p.tcpClient.os.peer.state ∨
        (p.tcpClient.fd ≠ -1 ∧ p'.tcpClient.os.peer.state = next))
      (reason : p.Healthy r → ¬ Accepts (p.replyType c) r ∧
        ∀ left, ¬ Refuses (p.replyType c) r left) :
      Exchanges p c r next (.ok (false, c', p'))
  /-- The reply is accepted, and nothing is under way. -/
  | accepted {p' : RedisProtocol (Endpoint server)} (synced : p'.Synced)
      (alive : 0 ≤ p.tcpClient.fd) (fd : p'.tcpClient.fd = p.tcpClient.fd)
      (mode : p'.transactionMode = modeAfter true p.transactionMode c.command r)
      (state : p'.tcpClient.os.peer.state = next) (accepts : Accepts (p.replyType c) r) :
      Exchanges p c r next (.ok (true, { c with out := denoteAs (p.replyType c) r }, p'))
  /-- The reader stops at an error in the reply. -/
  | refused {out : RedisOutput} {p' : RedisProtocol (Endpoint server)} {left : List Reply}
      (valid : p'.Valid) (alive : 0 ≤ p.tcpClient.fd) (fd : p'.tcpClient.fd = p.tcpClient.fd)
      (mode : p'.transactionMode = p.transactionMode)
      (state : p'.tcpClient.os.peer = ⟨[], next⟩) (unread : p'.stream = encodeAll left)
      (refuses : Refuses (p.replyType c) r left) :
      Exchanges p c r next (.ok (false, { c with out := out }, p'))

/-- A command that is answered keeps its name and its arguments. -/
theorem Exchanges.command {p p' : RedisProtocol (Endpoint server)} {c c' : RedisCommand} {r : Reply}
    {next : σ} (exchanges : Exchanges p c r next (.ok (true, c', p'))) :
    ∃ out, c' = { c with out := out } := by
  cases exchanges with
  | accepted => exact ⟨_, rfl⟩

/-- Sending a request where nothing is under way and reading its reply. -/
theorem exchange {p : RedisProtocol (Endpoint server)} (synced : p.Synced) (c : RedisCommand)
    {args : List Bytes} (small : (Resp.request args).length < 2 ^ 31)
    {r : Reply} {next : σ} (handles : server.handle p.tcpClient.os.peer.state args = (r, next))
    (wellFormed : r.WellFormed) :
    Exchanges p c r next
      (p.sendRequest c (Resp.request args) >>= fun (ok, c, p) =>
        if !ok then pure (false, c, p) else p.readReply c) := by
  have some : Resp.request args ≠ [] := by
    rw [Resp.request]
    simp
  rcases sendRequest_cases synced.valid c some small with
    ⟨hangs, reason⟩ | ⟨ok, c₁, p₁, same, lost, mode, reason⟩ | ⟨client, same, writes, quiet⟩
  · rw [hangs]
    exact .aborts fun healthy => reason healthy.send
  · obtain ⟨part, more, whole, missing, peer, nothing⟩ := lost.part
    have state : p₁.tcpClient.os.peer.state = p.tcpClient.os.peer.state := by
      rw [peer]
      by_cases gone : p.tcpClient.fd = -1
      · rw [nothing gone, TcpClient.peerAfter, if_pos rfl]
      · exact Endpoint.peerAfter_part (synced.pending gone) whole missing
    have reason' : p.Healthy r → ¬ Accepts (p.replyType c) r ∧
        ∀ left, ¬ Refuses (p.replyType c) r left := fun healthy => absurd healthy.send reason
    rw [same]
    cases ok with
    | false => exact .lost lost.valid lost.fd (by simpa using mode) (Or.inl state) reason'
    | true =>
      change Exchanges p c r next (p₁.readReply c₁)
      rcases readReply_nothing lost.valid (lost.valid.closed lost.fd) c₁ with
        ⟨abort, aborts⟩ | ⟨c₂, p₂, fails, ends⟩
      · rw [aborts]
        exact .aborts fun healthy => reason healthy.send
      · rw [fails]
        refine .lost ends.reads.valid ends.fd ends.transactionMode (Or.inl ?_) reason'
        rw [ends.reads.client.frame]
        exact state
  · have alive : p.tcpClient.fd ≠ -1 := by
      have := writes.alive
      omega
    let p₁ : RedisProtocol (Endpoint server) := { p with tcpClient := client }
    obtain ⟨stream, peer⟩ := writes.answered (synced.pending alive) handles
    have shape : p₁.stream = encode r ++ [] := by
      rw [List.append_nil]
      exact stream.trans (congrArg (· ++ encode r) (synced.stream alive))
    have smooth : p.Healthy r → p₁.Smooth r := by
      rintro ⟨⟨-, accepts⟩, delivers, clean, bounded⟩
      refine ⟨?_, ?_, bounded⟩
      · change client.os.Delivers
        rw [writes.frame]
        exact delivers
      · change client.os.errno ≠ einval ∧ client.os.errno ≠ erange
        rw [quiet accepts]
        exact clean
    have fd : client.fd = p.tcpClient.fd := by rw [writes.frame]
    obtain ⟨result, turns, reads⟩ := readReply_turns (p := p₁) writes.valid c wellFormed shape
    rw [same]
    change Exchanges p c r next (p₁.readReply c)
    rw [reads]
    cases turns with
    | aborts reason => exact .aborts fun healthy => reason (smooth healthy)
    | ends ends reason =>
      refine .lost ends.reads.valid ends.fd ends.transactionMode (Or.inr ⟨alive, ?_⟩)
        fun healthy => reason (smooth healthy)
      rw [ends.reads.client.frame]
      exact congrArg Endpoint.state peer
    | @accepts p₂ goes changes left accepts =>
      have kept : p₂.tcpClient.os.peer = ⟨[], next⟩ := by
        rw [goes.reads.client.frame]
        exact peer
      refine .accepted ⟨goes.reads.valid, fun _ => left, fun _ => by rw [kept]⟩ writes.alive
        (goes.fd.trans fd) changes (by rw [kept]) accepts
    | @refuses out p₂ left goes keeps unread clean refuses =>
      refine .refused goes.reads.valid writes.alive (goes.fd.trans fd) keeps ?_
        (by simpa using unread) refuses
      rw [goes.reads.client.frame]
      exact peer

/-- `exec_command` refuses the command for its argument count, or makes an exchange. -/
theorem execCommand_cases {p : RedisProtocol (Endpoint server)} (synced : p.Synced)
    {c : RedisCommand} (small : (commandText c).length < 2 ^ 31) {r : Reply} {next : σ}
    (handles : server.handle p.tcpClient.os.peer.state (requestOf c) = (r, next))
    (wellFormed : r.WellFormed) :
    (¬ Passes c ∧ ∃ text, p.execCommand c =
      .ok (false, { c with out := .error text }, { p with error := text })) ∨
    (Passes c ∧ Exchanges p c r next (p.execCommand c)) := by
  by_cases passes : Passes c
  · have text := commandText_small small
    have exchanges := exchange synced c (text ▸ small) handles wellFormed
    rw [← text, ← passes.writeCommand] at exchanges
    exact Or.inr ⟨passes, exchanges⟩
  · obtain ⟨text, refused⟩ := writeCommand_refused passes p
    refine Or.inl ⟨passes, text, ?_⟩
    rw [execCommand, refused]
    rfl

/-- Nothing comes back for a request that is too long for an `int`: a part of it waits for the
rest. -/
theorem sendRequest_large {p p' : RedisProtocol (Endpoint server)} (synced : p.Synced)
    {c c' : RedisCommand} {args : List Bytes} (large : 2 ^ 31 ≤ (Resp.request args).length)
    (returns : p.sendRequest c (Resp.request args) = .ok (true, c', p')) : p'.stream = [] := by
  obtain ⟨⟨ec, tcpClient⟩, writes, same⟩ := bind_returns returns
  by_cases failed : ec ≠ 0
  · simp only [if_pos failed] at same
    cases same
  · simp only [if_neg failed] at same
    cases same
    have none : p.tcpClient.stream = [] := synced.stream_nil
    obtain ⟨unread, incoming⟩ := List.append_eq_nil_iff.mp none
    rcases TcpClient.write_large synced.valid large writes with
      nothing | ⟨alive, part, more, whole, missing, stream⟩
    · exact nothing
    · change tcpClient.stream = []
      rw [stream, unread, List.nil_append, Os.deliver]
      split_ifs with empty
      · exact incoming
      · rw [Endpoint.receive_part (synced.pending alive) whole missing]
        rw [incoming]
        rfl

/-- If `exec_command` returns true its request was not too long for an `int`. -/
theorem execCommand_small {p p' : RedisProtocol (Endpoint server)} (synced : p.Synced)
    {c c' : RedisCommand} (few : c.args.length + 1 < 2 ^ 31)
    (returns : p.execCommand c = .ok (true, c', p')) : (commandText c).length < 2 ^ 31 := by
  by_contra large
  obtain ⟨sent, writes, reads⟩ := execCommand_sent synced.valid returns
  have valid := (writeCommand_sent synced.valid writes).2.1
  have passes : Passes c := by
    by_contra fails
    obtain ⟨text, refused⟩ := writeCommand_refused fails p
    cases refused.symm.trans writes
  rw [passes.writeCommand] at writes
  rw [commandText_eq few] at writes large
  have nothing := sendRequest_large synced (not_lt.mp large) writes
  rcases readReply_nothing valid nothing c with ⟨abort, aborts⟩ | ⟨c₁, p₁, fails, -⟩
  · cases aborts.symm.trans reads
  · cases fails.symm.trans reads

/-- `exec_commandv` refuses the text, or makes an exchange with its words. -/
theorem execCommandv_cases {p : RedisProtocol (Endpoint server)} (synced : p.Synced)
    (c : RedisCommand) {buf : Bytes} (small : (commandvText (splitWords buf)).length < 2 ^ 31)
    {r : Reply} {next : σ}
    (handles : server.handle p.tcpClient.os.peer.state (splitWords buf) = (r, next))
    (wellFormed : r.WellFormed) :
    (∃ text c', p.execCommandv c buf = .ok (false, c', { p with error := text })) ∨
    Exchanges p (commandvOf c buf) r next (p.execCommandv c buf) := by
  rcases writeCommandv_cases p c buf with ⟨text, c', refused⟩ | sends
  · refine Or.inl ⟨text, c', ?_⟩
    rw [execCommandv, refused]
    rfl
  · have text := commandvText_small small
    have exchanges := exchange synced (commandvOf c buf) (text ▸ small) handles wellFormed
    rw [← text, ← sends] at exchanges
    exact Or.inr exchanges

/-- A server sends no greeting: nothing is under way on a new connection. -/
theorem Opens.synced {p p' : RedisProtocol (Endpoint server)} (opens : p.Opens p') : p'.Synced where
  valid := opens.valid
  stream _ := opens.stream
  pending _ := by rw [opens.peer]; rfl

/-- Nothing is under way without a connection. -/
theorem Valid.synced {p : RedisProtocol (Endpoint server)} (valid : p.Valid)
    (closed : p.tcpClient.fd = -1) : p.Synced where
  valid := valid
  stream alive := absurd closed alive
  pending alive := absurd closed alive

/-- A look at a connection leaves it as it was. -/
theorem Looks.synced {p p' : RedisProtocol (Endpoint server)} (looks : p.Looks p')
    (synced : p.Synced) : p'.Synced where
  valid := looks.valid
  stream _ := looks.stream.trans synced.stream_nil
  pending alive := by
    rw [looks.peer]
    apply synced.pending
    rw [← looks.fd]
    exact alive

end RedisProtocol

end LibRedis
