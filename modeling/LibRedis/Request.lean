import LibRedis.ReadReply

/-!
# Requests on the wire

`write` hands the whole of a text to the peer, or closes the connection after a part of it. The
text of a command is a RESP request of its name and its arguments, so a server reads back exactly
what was sent.
-/

namespace LibRedis

open Resp (crlf)

namespace Os

variable {π : Type}

/-- A system on which every `send` accepts something. -/
def Accepts (os : Os π) : Prop := ∀ outcome ∈ os.sends, ∃ most, outcome = .sent most

/-- A system that has used up some outcomes accepts as before. -/
theorem Accepts.suffix {os os' : Os π} (accepts : os.Accepts) (script : os'.sends <:+ os.sends) :
    os'.Accepts :=
  fun outcome member => accepts outcome (script.subset member)

/-- How the loop of `timed_writen` ends when it does. -/
structure WriteEnds (script : List SendOutcome) (left errno : Int) (ending : WriteEnd) : Prop where
  /-- Some of the bytes are sent. -/
  range : 0 ≤ ending.left ∧ ending.left ≤ left
  /-- After a failure some of them are left. -/
  failed : ending.failed = true → 0 < ending.left
  /-- When none is left, `errno` has changed at most to that of an interrupted call. -/
  clean : ending.left = 0 → ending.errno = errno ∨ ending.errno = eintr
  /-- Outcomes are used up from the front. -/
  suffix : ending.sends <:+ script
  /-- If every `send` accepts something, none is left. -/
  accepts : (∀ outcome ∈ script, ∃ most, outcome = .sent most) →
    ending.left = 0 ∧ ending.errno = errno

/-- The loop of `timed_writen`, by induction over the outcomes of its rounds. -/
theorem timedWritenLoop_ends (timeout : Int) (script : List SendOutcome) (left : Int)
    (some : 0 ≤ left) (errno : Int) :
    (timedWritenLoop timeout script left errno = .error .diverges ∧
      ¬ ∀ outcome ∈ script, ∃ most, outcome = .sent most) ∨
    ∃ ending, timedWritenLoop timeout script left errno = .ok ending ∧
      WriteEnds script left errno ending := by
  induction script generalizing left errno with
  | nil =>
    refine Or.inr ⟨_, rfl, ⟨?_, ?_, fun _ => Or.inl rfl, List.suffix_rfl, fun _ => ?_⟩⟩
    · simp only
      omega
    · simp
    · simp only [and_true]
      omega
  | cons outcome rest ih =>
    have stops (ending : WriteEnd) (failed : ending.failed = true → 0 < ending.left)
        (same : ending.left = left) (more : 0 < left) (sends : ending.sends = rest)
        (other : ∀ most, outcome ≠ .sent most) :
        WriteEnds (outcome :: rest) left errno ending := by
      refine ⟨by omega, failed, by omega, sends ▸ List.suffix_cons outcome rest, fun accepts => ?_⟩
      obtain ⟨most, sent⟩ := accepts outcome List.mem_cons_self
      exact absurd sent (other most)
    simp only [timedWritenLoop.eq_def timeout (outcome :: rest)]
    split
    · rename_i nothing
      refine Or.inr ⟨_, rfl, ⟨⟨some, le_rfl⟩, by simp, fun _ => Or.inl rfl, List.suffix_rfl,
        fun _ => ⟨?_, rfl⟩⟩⟩
      simp only
      omega
    · rename_i more
      rw [not_le] at more
      cases outcome with
      | sent most =>
        have later : (∀ o ∈ SendOutcome.sent most :: rest, ∃ most, o = .sent most) →
            ∀ o ∈ rest, ∃ most, o = .sent most :=
          fun all o member => all o (List.mem_cons_of_mem _ member)
        rcases ih (left - min (min left.toNat maxTransfer) (most + 1))
            (by omega) errno with ⟨hangs, reason⟩ | ⟨ending, ends, range, failed, errno, script, all⟩
        · exact Or.inl ⟨hangs, fun accepts => reason (later accepts)⟩
        · exact Or.inr ⟨ending, ends, ⟨by omega, failed, errno,
            script.trans (List.suffix_cons _ rest), fun accepts => all (later accepts)⟩⟩
      | zero => exact Or.inr ⟨_, rfl, stops _ (by simp) rfl more rfl (by simp)⟩
      | timeout =>
        by_cases forever : timeout < 0
        · refine Or.inl ⟨if_pos forever, fun accepts => ?_⟩
          obtain ⟨most, sent⟩ := accepts _ List.mem_cons_self
          simp at sent
        · exact Or.inr ⟨_, if_neg forever, stops _ (by simp) rfl more rfl (by simp)⟩
      | pollFailed ec => exact Or.inr ⟨_, rfl, stops _ (by simp) rfl more rfl (by simp)⟩
      | failed ec =>
        by_cases interrupted : ec = eintr
        · simp only [if_pos interrupted]
          have notAll : ¬ ∀ o ∈ SendOutcome.failed ec :: rest, ∃ most, o = .sent most := by
            intro accepts
            obtain ⟨most, sent⟩ := accepts _ List.mem_cons_self
            simp at sent
          rcases ih left some eintr with ⟨hangs, -⟩ | ⟨ending, ends, range, failed, errno, script, -⟩
          · exact Or.inl ⟨hangs, notAll⟩
          · exact Or.inr ⟨ending, ends, ⟨range, failed, fun none => Or.inr ((errno none).elim id id),
              script.trans (List.suffix_cons _ rest), fun accepts => absurd accepts notAll⟩⟩
        · simp only [if_neg interrupted]
          exact Or.inr ⟨_, rfl, stops _ (fun _ => more) rfl more rfl (by simp)⟩

/-- The loop of `timed_writen` sends nothing if nothing is left. -/
theorem timedWritenLoop_nothing {timeout : Int} {script : List SendOutcome} {left errno : Int}
    (none : left ≤ 0) {ending : WriteEnd}
    (ends : timedWritenLoop timeout script left errno = .ok ending) : ending.left = left := by
  rw [timedWritenLoop.eq_def] at ends
  split at ends
  · rw [← Except.ok.inj ends]
    exact min_eq_left none
  · rw [if_pos none] at ends
    rw [← Except.ok.inj ends]

/-- What is received where nothing happens. -/
theorem wait_incoming {os os' : Os π} {timeout : Int} (waits : os.wait timeout = .ok os') :
    os'.incoming = os.incoming := by
  rw [wait] at waits
  split at waits
  · cases waits
  · rw [← Except.ok.inj waits]

end Os

namespace TcpClient

variable {π : Type}

/-- The peer once these bytes have arrived. -/
def peerAfter [Peer π] (peer : π) (bytes : Bytes) : π :=
  if bytes = [] then peer else (Peer.receive peer bytes).2

/-- Bytes delivered change the peer and what is on its way back. -/
theorem deliver_eq [Peer π] (os : Os π) (bytes : Bytes) :
    os.deliver bytes = { os with
      incoming := (os.deliver bytes).incoming, peer := peerAfter os.peer bytes } := by
  by_cases nothing : bytes = []
  · simp [Os.deliver, peerAfter, nothing]
  · simp [Os.deliver, peerAfter, nothing]

/-- A write that loses the connection: a part of the text has reached the peer. -/
structure LosesWrite [Peer π] (c : TcpClient π) (line : Bytes) (c' : TcpClient π) : Prop where
  /-- Everything else stays. -/
  frame : c' = { c with
    fd := -1
    buffer := c'.buffer
    os := { c.os with
      errno := c'.os.errno
      sends := c'.os.sends
      incoming := []
      peer := c'.os.peer } }
  /-- The client is valid. -/
  valid : c'.Valid
  /-- The peer has received a part that is not the whole. -/
  part : ∃ part more, line = part ++ more ∧ more ≠ [] ∧ c'.os.peer = peerAfter c.os.peer part ∧
    (c.fd = -1 → part = [])

/-- A write that has handed the whole text to the peer. -/
structure Writes [Peer π] (c : TcpClient π) (line : Bytes) (c' : TcpClient π) : Prop where
  /-- The clock is read once, and everything else stays. -/
  frame : c' = { c with
    lastCheckOpenTime := c.os.clock + c.os.ticks.headD 0
    os := { c.os with
      errno := c'.os.errno
      sends := c'.os.sends
      clock := c.os.clock + c.os.ticks.headD 0
      ticks := c.os.ticks.tail
      incoming := c.os.incoming ++ (Peer.receive c.os.peer line).1
      peer := (Peer.receive c.os.peer line).2 } }
  /-- The client is valid. -/
  valid : c'.Valid
  /-- There is a connection. -/
  alive : 0 ≤ c.fd
  /-- `errno` has changed at most to that of an interrupted call. -/
  clean : c'.os.errno = c.os.errno ∨ c'.os.errno = eintr
  /-- Outcomes are used up from the front. -/
  suffix : c'.os.sends <:+ c.os.sends

/-- A connection that is closed behind a part of a text is lost. -/
theorem losesWrite_close [Peer π] {c : TcpClient π} {line : Bytes} {os : Os π}
    (incoming : c.fd = -1 → os.incoming = []) {part more : Bytes} (whole : line = part ++ more)
    (missing : more ≠ []) (silent : c.fd = -1 → part = [])
    (frame : os = { c.os with
      errno := os.errno
      sends := os.sends
      incoming := os.incoming
      peer := peerAfter c.os.peer part }) :
    c.LosesWrite line ({ c with os := os } : TcpClient π).close := by
  rw [close_eq (c := { c with os := os }) incoming]
  refine ⟨?_, closed_valid rfl c.buffer.clear_valid c.buffer.clear_unread rfl,
    part, more, whole, missing, ?_, silent⟩
  · rw [frame]
  · rw [frame]

/-- What `write` does without a connection: it waits, and nothing is sent. -/
theorem write_disconnected [Peer π] {c : TcpClient π} (valid : c.Valid) (gone : c.fd = -1)
    {line : Bytes} (some : line ≠ []) (small : line.length < 2 ^ 31) (timeout : Int) :
    c.write line timeout = .error .diverges ∨
      ∃ ec c', c.write line timeout = .ok (ec, c') ∧ c.LosesWrite line c' := by
  have len : toInt32 line.length = line.length := Os.toInt32_small small
  have positive : 0 < line.length := List.length_pos_iff.mpr some
  have waits : c.os.timedWriten c.fd line timeout =
      (c.os.wait timeout >>= fun os => pure (0, os)) := by
    rw [Os.timedWriten, len]
    simp only [gone]
    rw [if_pos (by omega)]
  by_cases forever : timeout < 0
  · apply Or.inl
    rw [write, waits, Os.wait, if_pos forever]
    rfl
  · refine Or.inr ⟨etimedout, ({ c with os := { c.os with errno := etimedout } } :
      TcpClient π).close, ?_, losesWrite_close valid.no_incoming rfl some (fun _ => rfl) rfl⟩
    rw [write, waits, Os.wait, if_neg forever, len]
    change (if (0 : Int) ≠ line.length then _ else _) = _
    rw [if_pos (by omega), close_eq (c := { c with os := { c.os with errno := etimedout } })
      valid.no_incoming]
    rfl

/-- The `write` of a connected client from the end of its loop. -/
theorem write_connected [Peer π] {c : TcpClient π} (alive : 0 ≤ c.fd) {line : Bytes}
    (small : line.length < 2 ^ 31) {timeout : Int} {ending : Os.WriteEnd}
    (ends : Os.timedWritenLoop timeout c.os.sends line.length c.os.errno = .ok ending) :
    c.write line timeout =
      (let os := ({ c.os with sends := ending.sends, errno := ending.errno } : Os π).deliver
        (line.take (line.length - ending.left).toNat)
      if (if ending.failed then (-1 : Int) else line.length - ending.left) ≠ line.length then
        .ok (({ c with os := os } : TcpClient π).close.os.errno,
          ({ c with os := os } : TcpClient π).close)
      else .ok (0, { c with lastCheckOpenTime := os.time.1, os := os.time.2 })) := by
  have len : toInt32 line.length = line.length := Os.toInt32_small small
  have script : c.os.timedWriten c.fd line timeout =
      (Os.timedWritenLoop timeout c.os.sends line.length c.os.errno >>= fun ending =>
        pure (if ending.failed then -1 else line.length - ending.left,
          ({ c.os with sends := ending.sends, errno := ending.errno } : Os π).deliver
            (line.take (line.length - ending.left).toNat))) := by
    rw [Os.timedWriten, len]
    simp only
    rw [if_neg (by omega)]
  rw [write, script, ends, len]
  rfl

/-- What `write` does with a text whose length fits into an `int`: it waits for ever, closes the
connection after a part of the text, or hands all of it to the peer. The code it returns is zero in
the last case; it may be so in the second. -/
theorem write_cases [Peer π] {c : TcpClient π} (valid : c.Valid) {line : Bytes} (some : line ≠ [])
    (small : line.length < 2 ^ 31) (timeout : Int) :
    (c.write line timeout = .error .diverges ∧ ¬ (0 ≤ c.fd ∧ c.os.Accepts)) ∨
    (∃ ec c', c.write line timeout = .ok (ec, c') ∧ c.LosesWrite line c' ∧
      ¬ (0 ≤ c.fd ∧ c.os.Accepts)) ∨
    (∃ c', c.write line timeout = .ok (0, c') ∧ c.Writes line c' ∧
      (c.os.Accepts → c'.os.errno = c.os.errno)) := by
  rcases valid.fd with gone | alive
  · have none : ¬ (0 ≤ c.fd ∧ c.os.Accepts) := by
      rintro ⟨alive, -⟩
      omega
    rcases write_disconnected valid gone some small timeout with hangs | ⟨ec, c', fails, loses⟩
    · exact Or.inl ⟨hangs, none⟩
    · exact Or.inr (Or.inl ⟨ec, c', fails, loses, none⟩)
  · rcases Os.timedWritenLoop_ends timeout c.os.sends line.length (by omega)
        c.os.errno with ⟨hangs, reason⟩ | ⟨ending, ends, range, failed, clean, suffix, accepts⟩
    · have len : toInt32 line.length = line.length := Os.toInt32_small small
      refine Or.inl ⟨?_, fun healthy => reason healthy.2⟩
      rw [write, Os.timedWriten, len]
      simp only
      rw [if_neg (by omega), hangs]
      rfl
    · have connected := write_connected alive small ends
      by_cases done : ending.left = 0
      · have whole : line.take ((line.length : Int) - ending.left).toNat = line := by
          rw [done, Int.sub_zero, Int.toNat_natCast, List.take_length]
        have notFailed : ending.failed = false := by
          cases failure : ending.failed with
          | false => rfl
          | true => exact absurd (failed failure) (by omega)
        refine Or.inr (Or.inr ⟨{ c with
          lastCheckOpenTime := c.os.clock + c.os.ticks.headD 0
          os := { c.os with
            errno := ending.errno
            sends := ending.sends
            clock := c.os.clock + c.os.ticks.headD 0
            ticks := c.os.ticks.tail
            incoming := c.os.incoming ++ (Peer.receive c.os.peer line).1
            peer := (Peer.receive c.os.peer line).2 } }, ?_,
          ⟨rfl, ⟨valid.buffer, valid.fd, fun gone => ?_⟩, alive, clean done, suffix⟩,
          fun all => (accepts all).2⟩)
        · rw [connected, notFailed, whole, Os.deliver, if_neg some]
          simp only
          rw [if_neg (by simp [done])]
          rfl
        · have none : c.fd = -1 := gone
          omega
      · have left : 0 < ending.left := by omega
        have cut : line = line.take (line.length - ending.left).toNat ++
            line.drop (line.length - ending.left).toNat := (List.take_append_drop _ _).symm
        have missing : line.drop (line.length - ending.left).toNat ≠ [] := by
          rw [← List.length_pos_iff, List.length_drop]
          omega
        let sent : Os π := ({ c.os with sends := ending.sends, errno := ending.errno } : Os π).deliver
          (line.take (line.length - ending.left).toNat)
        have frame : sent = { c.os with
            errno := sent.errno
            sends := sent.sends
            incoming := sent.incoming
            peer := peerAfter c.os.peer (line.take (line.length - ending.left).toNat) } := by
          simp only [sent]
          rw [deliver_eq]
        have other : (if ending.failed then (-1 : Int) else line.length - ending.left) ≠
            (line.length : Int) := by
          split <;> omega
        refine Or.inr (Or.inl ⟨({ c with os := sent } : TcpClient π).close.os.errno, _, ?_,
          losesWrite_close (fun gone => by omega) cut missing (fun gone => by omega) frame,
          fun healthy => done (accepts healthy.2).1⟩)
        rw [connected]
        exact if_pos other

/-- Nothing is sent without a connection, whatever `timed_writen` makes of the length. -/
theorem timedWriten_closed [Peer π] {os os' : Os π} {fd : Int} (gone : fd < 0) {bytes : Bytes}
    {timeout count : Int} (returns : os.timedWriten fd bytes timeout = .ok (count, os')) :
    os'.incoming = os.incoming := by
  unfold Os.timedWriten at returns
  by_cases positive : 0 < toInt32 bytes.length
  · rw [if_pos ⟨gone, positive⟩] at returns
    obtain ⟨waited, waits, same⟩ := bind_returns returns
    obtain ⟨-, rfl⟩ := Prod.mk.inj (Except.ok.inj same)
    exact Os.wait_incoming waits
  · rw [if_neg (not_and_of_not_right _ positive)] at returns
    obtain ⟨ending, ends, same⟩ := bind_returns returns
    have left := Os.timedWritenLoop_nothing (not_lt.mp positive) ends
    obtain ⟨-, rfl⟩ := Prod.mk.inj (Except.ok.inj same)
    rw [left, Int.sub_self]
    rfl

/-- A client is valid after a write, whatever the length of the text is. -/
theorem write_valid [Peer π] {c c' : TcpClient π} (valid : c.Valid) {line : Bytes}
    {timeout ec : Int} (returns : c.write line timeout = .ok (ec, c')) : c'.Valid := by
  obtain ⟨⟨count, os⟩, sends, same⟩ := bind_returns returns
  have silent : c.fd = -1 → os.incoming = [] := by
    intro gone
    rw [timedWriten_closed (by omega) sends]
    exact valid.no_incoming gone
  by_cases short : count ≠ toInt32 line.length
  · simp only [if_pos short] at same
    obtain ⟨-, rfl⟩ := Prod.mk.inj (Except.ok.inj same)
    rw [close_eq (c := { c with os := os }) silent]
    exact closed_valid rfl c.buffer.clear_valid c.buffer.clear_unread rfl
  · simp only [if_neg short] at same
    obtain ⟨-, rfl⟩ := Prod.mk.inj (Except.ok.inj same)
    refine ⟨valid.buffer, valid.fd, fun gone => ?_⟩
    change c.buffer.unread ++ os.incoming = []
    rw [silent gone, (List.append_eq_nil_iff.mp (valid.closed gone)).1]
    rfl

/-- Of a text that is too long for an `int` only a part is sent. -/
theorem timedWriten_part [Peer π] {os os' : Os π} {fd : Int} {bytes : Bytes}
    (large : 2 ^ 31 ≤ bytes.length) {timeout count : Int}
    (returns : os.timedWriten fd bytes timeout = .ok (count, os')) :
    ∃ part more, bytes = part ++ more ∧ more ≠ [] ∧
      os'.incoming = (os.deliver part).incoming := by
  have narrow : toInt32 bytes.length < 2 ^ 31 := Int.bmod_lt (by decide)
  have some : bytes ≠ [] := by
    rintro rfl
    exact absurd large (by decide)
  unfold Os.timedWriten at returns
  by_cases gone : fd < 0 ∧ 0 < toInt32 bytes.length
  · rw [if_pos gone] at returns
    obtain ⟨waited, waits, same⟩ := bind_returns returns
    obtain ⟨-, rfl⟩ := Prod.mk.inj (Except.ok.inj same)
    exact ⟨[], bytes, rfl, some, Os.wait_incoming waits⟩
  · rw [if_neg gone] at returns
    obtain ⟨ending, ends, same⟩ := bind_returns returns
    obtain ⟨-, rfl⟩ := Prod.mk.inj (Except.ok.inj same)
    have sent : toInt32 bytes.length - ending.left < 2 ^ 31 := by
      by_cases positive : 0 ≤ toInt32 bytes.length
      · rcases Os.timedWritenLoop_ends timeout os.sends _ positive os.errno with
          ⟨hangs, -⟩ | ⟨_, ends', spec⟩
        · cases hangs.symm.trans ends
        · obtain rfl := Except.ok.inj (ends'.symm.trans ends)
          have range := spec.range
          omega
      · have left := Os.timedWritenLoop_nothing (by omega) ends
        omega
    let count := (toInt32 bytes.length - ending.left).toNat
    refine ⟨bytes.take count, bytes.drop count, (List.take_append_drop count bytes).symm, ?_, ?_⟩
    · rw [← List.length_pos_iff, List.length_drop]
      omega
    · by_cases nothing : bytes.take count = []
      · simp [Os.deliver, nothing, count] 
      · simp [Os.deliver, nothing, count]

/-- A text that is too long for an `int` is not written whole, whatever `write` returns. -/
theorem write_large [Peer π] {c c' : TcpClient π} (valid : c.Valid) {line : Bytes}
    (large : 2 ^ 31 ≤ line.length) {timeout ec : Int}
    (returns : c.write line timeout = .ok (ec, c')) :
    c'.stream = [] ∨ c.fd ≠ -1 ∧ ∃ part more, line = part ++ more ∧ more ≠ [] ∧
      c'.stream = c.buffer.unread ++ (c.os.deliver part).incoming := by
  have closed := write_valid valid returns
  obtain ⟨⟨count, os⟩, sends, same⟩ := bind_returns returns
  by_cases short : count ≠ toInt32 line.length
  · simp only [if_pos short] at same
    obtain ⟨-, rfl⟩ := Prod.mk.inj (Except.ok.inj same)
    exact Or.inl (closed.closed (close_fd { c with os := os }))
  · simp only [if_neg short] at same
    obtain ⟨-, rfl⟩ := Prod.mk.inj (Except.ok.inj same)
    by_cases gone : c.fd = -1
    · exact Or.inl (closed.closed gone)
    · obtain ⟨part, more, whole, missing, incoming⟩ := timedWriten_part large sends
      exact Or.inr ⟨gone, part, more, whole, missing, congrArg (c.buffer.unread ++ ·) incoming⟩

end TcpClient

namespace RedisProtocol

variable {π : Type}

/-- After a request that was sent the client is valid, and it is in the mode as before. -/
theorem sendRequest_sent [Peer π] {p p' : RedisProtocol π} (valid : p.Valid) {c c' : RedisCommand}
    {request : Bytes} (returns : p.sendRequest c request = .ok (true, c', p')) :
    c' = c ∧ p'.Valid ∧ p'.transactionMode = p.transactionMode := by
  obtain ⟨⟨ec, tcpClient⟩, writes, same⟩ := bind_returns returns
  by_cases failed : ec ≠ 0
  · simp only [if_pos failed] at same
    cases same
  · simp only [if_neg failed] at same
    obtain ⟨-, rest⟩ := Prod.mk.inj (Except.ok.inj same)
    obtain ⟨rfl, rfl⟩ := Prod.mk.inj rest
    exact ⟨rfl, TcpClient.write_valid valid writes, rfl⟩

/-- The write functions print a bulk string as RESP has it. -/
theorem bulkText_eq (arg : Bytes) : bulkText arg = Resp.bulk arg := by
  have marker : Decimal.ascii "$" = [36] := by decide
  simp [bulkText, marker, Resp.bulk]

/-- What a command asks of the server: its name and its arguments. -/
def requestOf (c : RedisCommand) : List Bytes := c.commandInfo.commandStr :: c.args

/-- With fewer arguments than an `int` can count, the text of a command is a request. -/
theorem commandText_eq {c : RedisCommand} (fits : c.args.length + 1 < 2 ^ 31) :
    commandText c = Resp.request (requestOf c) := by
  have marker : Decimal.ascii "*" = [42] := by decide
  have count : toInt32 c.args.length + 1 = ((requestOf c).length : Int) := by
    rw [Os.toInt32_small (by omega), requestOf, List.length_cons]
    omega
  have bulks : c.args.flatMap bulkText = c.args.flatMap Resp.bulk :=
    List.flatMap_congr fun arg _ => bulkText_eq arg
  rw [commandText, marker, count, Decimal.intText_natCast, bulkText_eq, bulks, Resp.request]
  simp [requestOf]

/-- A list of byte strings has fewer elements than their bulks have bytes. -/
theorem length_le_bulks (args : List Bytes) : args.length ≤ (args.flatMap bulkText).length := by
  induction args with
  | nil => exact le_rfl
  | cons arg rest ih =>
    have some : 0 < (bulkText arg).length := by
      rw [bulkText_eq, Resp.bulk, List.length_cons]
      omega
    rw [List.flatMap_cons, List.length_append, List.length_cons]
    omega

/-- A command has fewer arguments than its text has bytes. -/
theorem args_length_lt (c : RedisCommand) : c.args.length + 2 < (commandText c).length := by
  have args := length_le_bulks c.args
  have marker : (Decimal.ascii "*").length = 1 := by decide
  have ends : redisLineEnd.length = 2 := rfl
  simp only [commandText, List.length_append]
  omega

/-- A command whose text fits into an `int` is sent as a request. -/
theorem commandText_small {c : RedisCommand} (small : (commandText c).length < 2 ^ 31) :
    commandText c = Resp.request (requestOf c) := by
  have fewer := args_length_lt c
  exact commandText_eq (by omega)

/-- The argument count of a command is acceptable. -/
def Passes (c : RedisCommand) : Prop :=
  argcMatches c.commandInfo.argc (toInt32 c.args.length) = true

/-- A command with an acceptable argument count is sent. -/
theorem Passes.writeCommand [Peer π] {c : RedisCommand} (passes : Passes c) (p : RedisProtocol π) :
    p.writeCommand c = p.sendRequest c (commandText c) := by
  rw [RedisProtocol.writeCommand, checkArgc, if_pos (show argcMatches _ _ = true from passes)]
  rfl

/-- A count of arguments that is not acceptable is refused. -/
theorem checkArgc_refused {c : RedisCommand} {given : Int}
    (refused : ¬ argcMatches c.commandInfo.argc given = true) (p : RedisProtocol π) :
    ∃ text, p.checkArgc c given =
      (false, { c with out := .error text }, { p with error := text }) := by
  rw [checkArgc, if_neg refused]
  exact ⟨_, rfl⟩

/-- Any other command is refused, and nothing is sent. -/
theorem writeCommand_refused [Peer π] {c : RedisCommand} (refused : ¬ Passes c)
    (p : RedisProtocol π) :
    ∃ text, p.writeCommand c =
      .ok (false, { c with out := .error text }, { p with error := text }) := by
  obtain ⟨text, check⟩ := checkArgc_refused refused p
  refine ⟨text, ?_⟩
  rw [RedisProtocol.writeCommand, check]
  rfl

/-- A command that was sent is kept, and the client is as after any request. -/
theorem writeCommand_sent [Peer π] {p p' : RedisProtocol π} (valid : p.Valid) {c c' : RedisCommand}
    (returns : p.writeCommand c = .ok (true, c', p')) :
    c' = c ∧ p'.Valid ∧ p'.transactionMode = p.transactionMode := by
  by_cases passes : Passes c
  · rw [passes.writeCommand] at returns
    exact sendRequest_sent valid returns
  · obtain ⟨text, refused⟩ := writeCommand_refused passes p
    rw [refused] at returns
    cases returns

/-- `exec_command` that returns true has sent the command and read a reply. -/
theorem execCommand_sent [Peer π] {p : RedisProtocol π} (valid : p.Valid) {c c' : RedisCommand}
    {p' : RedisProtocol π} (returns : p.execCommand c = .ok (true, c', p')) :
    ∃ sent, p.writeCommand c = .ok (true, c, sent) ∧ sent.readReply c = .ok (true, c', p') := by
  obtain ⟨⟨ok, c₁, sent⟩, writes, reads⟩ := bind_returns returns
  cases ok with
  | false => cases reads
  | true =>
    obtain ⟨rfl, -, -⟩ := writeCommand_sent valid writes
    exact ⟨sent, writes, reads⟩

/-- The text that `write_commandv` sends. -/
def commandvText (args : List Bytes) : Bytes :=
  Decimal.ascii "*" ++ Decimal.intText (toInt32 args.length) ++ redisLineEnd ++
    args.flatMap bulkText

/-- A text of `write_commandv` is a request of its words, if their count is an `int`. -/
theorem commandvText_eq {args : List Bytes} (few : args.length < 2 ^ 31) :
    commandvText args = Resp.request args := by
  have marker : Decimal.ascii "*" = [42] := by decide
  have count : toInt32 args.length = args.length := Os.toInt32_small few
  have bulks : args.flatMap bulkText = args.flatMap Resp.bulk :=
    List.flatMap_congr fun arg _ => bulkText_eq arg
  rw [commandvText, marker, count, Decimal.intText_natCast, bulks, Resp.request]
  rfl

/-- It is, if the text is not too long. -/
theorem commandvText_small {args : List Bytes} (small : (commandvText args).length < 2 ^ 31) :
    commandvText args = Resp.request args := by
  have fewer := length_le_bulks args
  have whole : (commandvText args).length ≥ (args.flatMap bulkText).length := by
    simp only [commandvText, List.length_append]
    omega
  exact commandvText_eq (by omega)

/-- The command that `write_commandv` makes of a text. -/
def commandvOf (c : RedisCommand) (buf : Bytes) : RedisCommand :=
  { c with args := splitWords buf, command := Command.ofName ((splitWords buf).headD []) }

/-- `write_commandv` refuses a text, and nothing is sent, or it sends the words of the text. -/
theorem writeCommandv_cases [Peer π] (p : RedisProtocol π) (c : RedisCommand) (buf : Bytes) :
    (∃ text c', p.writeCommandv c buf = .ok (false, c', { p with error := text })) ∨
    p.writeCommandv c buf = p.sendRequest (commandvOf c buf) (commandvText (splitWords buf)) := by
  rw [writeCommandv]
  by_cases none : toInt32 (splitWords buf).length = 0
  · exact Or.inl ⟨_, _, if_pos none⟩
  · simp only [if_neg none]
    by_cases invalid : Command.ofName ((splitWords buf).headD []) = .noop
    · exact Or.inl ⟨_, _, if_pos invalid⟩
    · simp only [if_neg invalid]
      rw [checkArgc]
      split
      · exact Or.inr rfl
      · exact Or.inl ⟨_, _, rfl⟩

/-- A request parser reads back what `write_command` sends for commands with acceptable argument
counts, one after the other, and stops at whatever follows. -/
theorem writeCommand_parses (commands : List RedisCommand)
    (passes : ∀ c ∈ commands, argcMatches c.commandInfo.argc (toInt32 c.args.length) = true)
    (fits : ∀ c ∈ commands, c.args.length < 2 ^ 31 - 1) (rest : Bytes) :
    (∀ c ∈ commands, ∀ (π : Type) [Peer π] (p : RedisProtocol π),
      p.writeCommand c = p.sendRequest c (commandText c)) ∧
    Resp.parseRequests commands.length (commands.flatMap commandText ++ rest) =
      some (commands.map fun c => c.commandInfo.commandStr :: c.args, rest) := by
  constructor
  · intro c member π _ p
    exact Passes.writeCommand (passes c member) p
  · have texts : commands.flatMap commandText =
        (commands.map requestOf).flatMap Resp.request := by
      rw [List.flatMap_map]
      refine List.flatMap_congr fun c member => commandText_eq ?_
      have below := fits c member
      omega
    have each : commands.length = (commands.map requestOf).length := by rw [List.length_map]
    rw [texts, each]
    exact Resp.parseRequests_requests _ rest

/-- Two requests, the second with arguments that look like protocol text. -/
theorem writeCommand_parses_pair :
    Resp.parseRequests 2 (commandText ⟨.ping, [], .none⟩ ++
      commandText ⟨.set, [[], Decimal.ascii "$1\r\n*"], .none⟩ ++ Decimal.ascii "*1") =
      some ([[Decimal.ascii "PING"], [Decimal.ascii "SET", [], Decimal.ascii "$1\r\n*"]],
        Decimal.ascii "*1") := by
  have parsed := (writeCommand_parses
    [⟨.ping, [], .none⟩, ⟨.set, [[], Decimal.ascii "$1\r\n*"], .none⟩]
    (by decide +kernel) (by simp) (Decimal.ascii "*1")).2
  simpa [RedisCommand.commandInfo, Command.commandInfo] using parsed

end RedisProtocol

end LibRedis
