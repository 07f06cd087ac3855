import LibRedis.ReadReply

/-!
# Opening and checking a connection

What `is_open`, `connect` and `assure_connect` do to the protocol object. None of them touches the
transaction mode, unless it fails.
-/

namespace LibRedis

namespace RedisProtocol

variable {π : Type}

/-- The connection goes on; some outcomes are used up. -/
structure Proceeds (p p' : RedisProtocol π) : Prop where
  /-- The client is valid. -/
  valid : p'.Valid
  /-- The descriptor stays. -/
  fd : p'.tcpClient.fd = p.tcpClient.fd
  /-- Outcomes of sends are used up from the front. -/
  sends : p'.tcpClient.os.sends <:+ p.tcpClient.os.sends
  /-- Outcomes of receives are used up from the front. -/
  recvs : p'.tcpClient.os.recvs <:+ p.tcpClient.os.recvs
  /-- Outcomes of peeks are used up from the front. -/
  probes : p'.tcpClient.os.probes <:+ p.tcpClient.os.probes
  /-- `errno` stays clean. -/
  clean : p.CleanErrno → p'.CleanErrno

/-- Going on twice is going on. -/
theorem Proceeds.trans {p p' p'' : RedisProtocol π} (left : p.Proceeds p')
    (right : p'.Proceeds p'') : p.Proceeds p'' where
  valid := right.valid
  fd := right.fd.trans left.fd
  sends := right.sends.trans left.sends
  recvs := right.recvs.trans left.recvs
  probes := right.probes.trans left.probes
  clean := right.clean ∘ left.clean

/-- Reading that keeps the connection goes on. -/
theorem Goes.proceeds {p p' : RedisProtocol π} (goes : p.Goes p') : p.Proceeds p' where
  valid := goes.reads.valid
  fd := goes.fd
  sends := by rw [goes.reads.client.frame]
  recvs := goes.reads.client.script
  probes := by rw [goes.reads.client.frame]
  clean := goes.clean

/-- A look at the connection, whatever it finds: nothing is read, and the descriptor stays. -/
structure Looks (p p' : RedisProtocol π) : Prop where
  /-- The client is valid. -/
  valid : p'.Valid
  /-- The descriptor stays. -/
  fd : p'.tcpClient.fd = p.tcpClient.fd
  /-- Nothing is read. -/
  stream : p'.stream = p.stream
  /-- Nothing reaches the peer. -/
  peer : p'.tcpClient.os.peer = p.tcpClient.os.peer
  /-- The transaction mode stays. -/
  mode : p'.transactionMode = p.transactionMode

/-- `is_open` looks at the connection. One that it finds open goes on, and it finds an open one if
every peek does. -/
theorem isOpen_cases {p : RedisProtocol π} (valid : p.Valid) :
    ∃ found p', p.isOpen = (found, p') ∧ p.Looks p' ∧
      (found = true → p.Proceeds p' ∧ p.tcpClient.fd ≠ -1) ∧
      (p.tcpClient.fd ≠ -1 → (∀ peek ∈ p.tcpClient.os.probes, peek.isOpen = true) →
        found = true) := by
  obtain ⟨found, last, clock, ticks, probes, errno, looks, suffix, alive, calm⟩ :=
    p.tcpClient.isOpen_cases
  let p' : RedisProtocol π := { p with tcpClient := { p.tcpClient with
    lastCheckOpenTime := last
    os := { p.tcpClient.os with clock := clock, ticks := ticks, probes := probes, errno := errno } } }
  have shows : p.isOpen = (found, p') := by rw [isOpen, looks]
  have valid' : p'.Valid := ⟨valid.buffer, valid.fd, valid.closed⟩
  refine ⟨found, p', shows, ⟨valid', rfl, rfl, rfl, rfl⟩, fun opens => ⟨?_, (alive opens).1⟩, calm⟩
  refine ⟨valid', rfl, List.suffix_rfl, List.suffix_rfl, suffix, fun clean => ?_⟩
  -- neither `EINTR` nor `EAGAIN` is an error of a conversion
  rcases (alive opens).2 with same | interrupted | again
  · exact ⟨same.trans_ne clean.1, same.trans_ne clean.2⟩
  · exact ⟨interrupted.trans_ne (by decide), interrupted.trans_ne (by decide)⟩
  · exact ⟨again.trans_ne (by decide), again.trans_ne (by decide)⟩

/-- A new connection: the peer has accepted it and may have sent a greeting. -/
structure Opens [Peer π] (p p' : RedisProtocol π) : Prop where
  /-- The client is valid. -/
  valid : p'.Valid
  /-- There is a connection. -/
  alive : 0 ≤ p'.tcpClient.fd
  /-- The greeting is on its way. -/
  stream : p'.stream = (Peer.accept p.tcpClient.os.peer).1
  /-- The peer has accepted. -/
  peer : p'.tcpClient.os.peer = (Peer.accept p.tcpClient.os.peer).2
  /-- The transaction mode stays. -/
  mode : p'.transactionMode = p.transactionMode

/-- A connection that was not made. -/
structure Shuts (p p' : RedisProtocol π) : Prop where
  /-- The client is valid. -/
  valid : p'.Valid
  /-- There is no connection. -/
  fd : p'.tcpClient.fd = -1
  /-- Nothing reaches the peer. -/
  peer : p'.tcpClient.os.peer = p.tcpClient.os.peer
  /-- The transaction mode stays, or it is off. -/
  mode : p'.transactionMode = p.transactionMode ∨ p'.transactionMode = false

/-- `connect` makes a new connection or leaves none. -/
theorem connect_cases [Peer π] {p : RedisProtocol π} (valid : p.Valid) :
    (∃ ok p', p.connect = (ok, p') ∧ p.Shuts p') ∨ ∃ p', p.connect = (true, p') ∧ p.Opens p' := by
  rcases TcpClient.connect_cases valid with ⟨ec, fails⟩ | ⟨fd, errno, now, ticks, opens⟩
  · let p₁ : RedisProtocol π := { p with tcpClient := { p.tcpClient with
      fd := -1
      buffer := p.tcpClient.buffer.clear
      os := { p.tcpClient.os with
        incoming := [], connects := p.tcpClient.os.connects.tail, errno := ec } } }
    have valid₁ : p₁.Valid :=
      TcpClient.closed_valid rfl p.tcpClient.buffer.clear_valid p.tcpClient.buffer.clear_unread rfl
    apply Or.inl
    by_cases silent : ec = 0
    · refine ⟨true, p₁, ?_, valid₁, rfl, rfl, Or.inl rfl⟩
      rw [connect, fails]
      exact if_neg (not_not.mpr silent)
    · have ends := Valid.abandon_ends valid₁ (Decimal.ascii "connect") (p₁.ecToString ec)
      refine ⟨false, p₁.abandon (Decimal.ascii "connect") (p₁.ecToString ec), ?_,
        ends.reads.valid, ends.fd, ?_, Or.inr ends.transactionMode⟩
      · rw [connect, fails]
        exact if_pos silent
      · rw [ends.reads.client.frame]
  · apply Or.inr
    have shows : p.connect = (true, { p with tcpClient := p.tcpClient.connect.2 }) := by
      rw [connect, opens]
      rfl
    refine ⟨_, shows, TcpClient.connect_valid valid, ?_, ?_, ?_, rfl⟩
    · rw [opens]
      exact Int.natCast_nonneg fd
    · rw [opens]
      change p.tcpClient.buffer.clear.unread ++ _ = _
      rw [p.tcpClient.buffer.clear_unread]
      rfl
    · rw [opens]

/-- `assure_connect` finds the connection open, makes a new one, or leaves none. -/
theorem assureConnect_cases [Peer π] {p : RedisProtocol π} (valid : p.Valid) :
    (∃ p', p.assureConnect = (true, 0, p') ∧ p.isOpen.1 = true ∧ p.tcpClient.fd ≠ -1 ∧
      p.Looks p' ∧ p.Proceeds p') ∨
    (∃ ok status p', p.assureConnect = (ok, status, p') ∧ (ok = true → status = 1) ∧
      p.isOpen.1 = false ∧ p.Shuts p') ∨
    (∃ p', p.assureConnect = (true, 1, p') ∧ p.isOpen.1 = false ∧ p.Opens p') := by
  obtain ⟨found, p₁, shows, looks, alive, -⟩ := isOpen_cases valid
  rw [assureConnect, shows]
  cases found with
  | true => exact Or.inl ⟨p₁, rfl, rfl, (alive rfl).2, looks, (alive rfl).1⟩
  | false =>
    apply Or.inr
    rcases connect_cases looks.valid with
      ⟨ok, p₂, fails, shuts⟩ | ⟨p₂, connects, opens⟩
    · have shuts' : p.Shuts p₂ :=
        ⟨shuts.valid, shuts.fd, shuts.peer.trans looks.peer, by rw [← looks.mode]; exact shuts.mode⟩
      apply Or.inl
      cases ok with
      | true =>
        refine ⟨true, 1, p₂, ?_, fun _ => rfl, rfl, shuts'⟩
        simp [fails]
      | false =>
        refine ⟨false, -1, p₂, ?_, by simp, rfl, shuts'⟩
        simp [fails]
    · have opens' : p.Opens p₂ := by
        refine ⟨opens.valid, opens.alive, ?_, ?_, opens.mode.trans looks.mode⟩
        · rw [← looks.peer]
          exact opens.stream
        · rw [← looks.peer]
          exact opens.peer
      apply Or.inr
      refine ⟨p₂, ?_, rfl, opens'⟩
      simp [connects]

end RedisProtocol

end LibRedis
