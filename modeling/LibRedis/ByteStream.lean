import LibRedis.Lib.Resp
import LibRedis.TcpStream

/-!
# The client refines a plain byte stream

`ByteStream` is what the reader is for, with nothing of the buffer, the chunks or the search
offset left: whether there is a connection, and the bytes of it not yet taken. Runs of the client
are labelled with what its caller sees, and every such run is a run of the byte stream.
-/

namespace LibRedis

open Resp (crlf)

/-- A call of the client with what it returned, or bytes arriving between two calls. -/
inductive ReaderEvent where
  /-- The peer sends bytes on the current connection. -/
  | arrives (bytes : Bytes)
  /-- `connect` succeeds; the bytes the peer sends at once. -/
  | connected (sent : Bytes)
  /-- `connect` fails. -/
  | connectFailed (ec : Int)
  /-- `close`. -/
  | closed
  /-- `read_line`. -/
  | readLine (line : Bytes) (ec : Int)
  /-- `read`. -/
  | read (size : Nat) (bytes : Bytes) (ec : Int)

/-- A connection as a plain byte stream. -/
structure ByteStream where
  /-- Whether there is a connection. -/
  isOpen : Bool
  /-- The bytes of the connection not yet taken. -/
  unread : Bytes

namespace ByteStream

/-- The steps of the byte stream. A reading call fails only when the stream holds too little. -/
inductive Step : ByteStream → ReaderEvent → ByteStream → Prop
  /-- Bytes arrive behind those that are there. -/
  | arrives (unread bytes : Bytes) : Step ⟨true, unread⟩ (.arrives bytes) ⟨true, unread ++ bytes⟩
  /-- A new connection has its own bytes only. -/
  | connected (s : ByteStream) (sent : Bytes) : Step s (.connected sent) ⟨true, sent⟩
  /-- Without a new connection there is none. -/
  | connectFailed (s : ByteStream) (ec : Int) : Step s (.connectFailed ec) ⟨false, []⟩
  /-- Closing drops every byte. -/
  | closed (s : ByteStream) : Step s .closed ⟨false, []⟩
  /-- The bytes before the first CRLF are returned, and the CRLF is dropped. -/
  | readLine (s : ByteStream) {line rest : Bytes}
      (splits : Delimited.Splits crlf s.unread line rest) :
      Step s (.readLine line 0) ⟨s.isOpen, rest⟩
  /-- Without a CRLF the connection is given up. -/
  | noLine (s : ByteStream) (none : ∀ line rest, ¬ Delimited.Splits crlf s.unread line rest) :
      Step s (.readLine [] etimedout) ⟨false, []⟩
  /-- So many bytes are returned, and the two after them are dropped. -/
  | read (s : ByteStream) {size : Nat} {bytes rest : Bytes}
      (counted : TcpClient.Counted size 2 s.unread bytes rest) :
      Step s (.read size bytes 0) ⟨s.isOpen, rest⟩
  /-- Without so many bytes the connection is given up. -/
  | tooShort (s : ByteStream) {size : Nat} (short : s.unread.length < size + 2) :
      Step s (.read size [] etimedout) ⟨false, []⟩

end ByteStream

namespace TcpClient

variable {π : Type}

/-- The steps of the client: each call that returns, with any timeout. -/
inductive Step [Peer π] : TcpClient π → ReaderEvent → TcpClient π → Prop
  /-- Bytes arrive in the socket. -/
  | arrives {c : TcpClient π} (alive : c.fd ≠ -1) (bytes : Bytes) :
      Step c (.arrives bytes) { c with os := { c.os with incoming := c.os.incoming ++ bytes } }
  /-- A call of `connect` that leaves a descriptor. -/
  | connected {c c' : TcpClient π} {ec : Int} (returns : c.connect = (ec, c'))
      (alive : c'.fd ≠ -1) : Step c (.connected c'.os.incoming) c'
  /-- A call of `connect` that leaves none. -/
  | connectFailed {c c' : TcpClient π} {ec : Int} (returns : c.connect = (ec, c'))
      (none : c'.fd = -1) : Step c (.connectFailed ec) c'
  /-- A call of `close`. -/
  | closed (c : TcpClient π) : Step c .closed c.close
  /-- A call of `read_line`. -/
  | readLine {c c' : TcpClient π} {timeout ec : Int} {line : Bytes}
      (returns : c.readLine crlf timeout = .ok (line, ec, c')) : Step c (.readLine line ec) c'
  /-- A call of `read`. -/
  | read {c c' : TcpClient π} {timeout ec : Int} {bytes : Bytes} {size : Nat} (some : 0 < size)
      (small : size < 2 ^ 62) (returns : c.read size crlf timeout = .ok (bytes, ec, c')) :
      Step c (.read size bytes ec) c'

/-- What a client keeps on a system that hands over bytes as they arrive. -/
structure Reading (c : TcpClient π) : Prop where
  /-- The client is valid. -/
  valid : c.Valid
  /-- Its system delivers. -/
  delivers : c.os.Delivers
  /-- Every `recv` so far asked for at least one byte. -/
  asked : ∀ len ∈ c.os.recvLens, 0 < len

/-- A client and a byte stream with the same connection and the same bytes. -/
structure Refines (c : TcpClient π) (s : ByteStream) : Prop where
  /-- The client keeps its invariant. -/
  reading : c.Reading
  /-- Both have a connection or none. -/
  isOpen : s.isOpen = decide (c.fd ≠ -1)
  /-- Both have the same bytes left. -/
  unread : s.unread = c.stream

/-- Receiving keeps the invariant. -/
theorem Reading.receives {c c' : TcpClient π} (reading : c.Reading) (receives : c.Receives c') :
    c'.Reading where
  valid := receives.valid
  delivers := reading.delivers.suffix receives.script
  asked := receives.asked reading.asked

/-- Closing keeps the invariant and leaves nothing. -/
theorem Reading.close {c : TcpClient π} (reading : c.Reading) : c.close.Refines ⟨false, []⟩ := by
  obtain ⟨receives, closed⟩ := reading.valid.close_receives
  exact ⟨reading.receives receives, by simp [closed], (receives.valid.closed closed).symm⟩

/-- A connection that was lost in a reading call has nothing left. -/
theorem Reading.loses {c : TcpClient π} (reading : c.Reading)
    {returned : Bytes × Int × TcpClient π} (loses : c.Loses returned) :
    returned.2.2.Refines ⟨false, []⟩ where
  reading := reading.receives loses.receives
  isOpen := by simp [loses.closed]
  unread := loses.stream_nil.symm

/-- What `connect` does: a connection with the bytes the peer sends at once, or none. -/
theorem Reading.connect [Peer π] {c : TcpClient π} (reading : c.Reading) :
    c.connect.2.Refines ⟨decide (c.connect.2.fd ≠ -1), c.connect.2.os.incoming⟩ ∧
      (c.connect.2.fd = -1 → c.connect.2.os.incoming = []) := by
  have valid := connect_valid reading.valid
  rcases connect_cases reading.valid with ⟨ec, fails⟩ | ⟨fd, errno, now, ticks, opens⟩
  · rw [fails] at valid ⊢
    refine ⟨⟨⟨valid, reading.delivers, reading.asked⟩, rfl, ?_⟩, fun _ => rfl⟩
    rw [stream, TcpClientBuffer.clear_unread, List.nil_append]
  · rw [opens] at valid ⊢
    have alive : (fd : Int) ≠ -1 := by omega
    refine ⟨⟨⟨valid, reading.delivers, reading.asked⟩, rfl, ?_⟩, fun gone => absurd gone alive⟩
    rw [stream, TcpClientBuffer.clear_unread, List.nil_append]

/-- Every step of the client is a step of the byte stream. -/
theorem forward [Peer π] :
    Simulation.Forward (Step (π := π)) ByteStream.Step TcpClient.Refines := by
  intro c s event c' refines step
  obtain ⟨reading, open_, unread⟩ := refines
  obtain ⟨isOpen, bytes⟩ := s
  simp only at open_ unread
  subst unread
  cases step with
  | arrives alive bytes =>
    obtain rfl : isOpen = true := by simpa [alive] using open_
    refine ⟨_, .arrives _ bytes, ⟨⟨reading.valid.buffer, reading.valid.fd, fun gone => ?_⟩,
      reading.delivers, reading.asked⟩, open_, ?_⟩
    · exact absurd gone alive
    · rw [stream, stream, List.append_assoc]
  | connected returns alive =>
    have after := reading.connect
    rw [returns] at after
    exact ⟨_, .connected _ _, by simpa [alive] using after.1⟩
  | connectFailed returns none =>
    have after := reading.connect
    rw [returns] at after
    have refines := after.1
    rw [after.2 none] at refines
    exact ⟨_, .connectFailed _ _, by simpa [none] using refines⟩
  | closed => exact ⟨_, .closed _, reading.close⟩
  | @readLine _ timeout ec line returns =>
    rcases readLine_cases reading.valid crlf (by decide) timeout with
      ⟨abort, aborts, -⟩ | ⟨returned, same, loses, none⟩ | ⟨returned, same, takes, splits⟩
    · exact absurd (returns.symm.trans aborts) (by simp)
    · obtain rfl := Except.ok.inj (returns.symm.trans same)
      obtain rfl : line = [] := loses.empty
      obtain rfl : ec = etimedout := loses.quiet reading.delivers
      exact ⟨_, .noLine _ (none reading.delivers), reading.loses loses⟩
    · obtain rfl := Except.ok.inj (returns.symm.trans same)
      obtain rfl : ec = 0 := takes.code
      exact ⟨_, .readLine _ splits, reading.receives takes.receives,
        open_.trans (by rw [show c'.fd = c.fd from takes.fd]), rfl⟩
  | @read _ timeout ec bytes size some small returns =>
    rcases read_cases reading.valid crlf some
        (by simp only [crlf, List.length_cons, List.length_nil]; omega) timeout with
      ⟨abort, aborts, -⟩ | ⟨returned, same, loses, short⟩ | ⟨returned, same, takes, counted⟩
    · exact absurd (returns.symm.trans aborts) (by simp)
    · obtain rfl := Except.ok.inj (returns.symm.trans same)
      obtain rfl : bytes = [] := loses.empty
      obtain rfl : ec = etimedout := loses.quiet reading.delivers
      exact ⟨_, .tooShort _ (short reading.delivers), reading.loses loses⟩
    · obtain rfl := Except.ok.inj (returns.symm.trans same)
      obtain rfl : ec = 0 := takes.code
      exact ⟨_, .read _ counted, reading.receives takes.receives,
        open_.trans (by rw [show c'.fd = c.fd from takes.fd]), rfl⟩

/-- A reading call of a valid client returns, or it waits for ever or asks for more than a vector
can hold; no assertion fails and no access is out of bounds. -/
theorem Valid.reads_safely {c : TcpClient π} (valid : c.Valid) (timeout : Int) :
    (∀ abort, c.readLine crlf timeout = .error abort → abort.Unfinished) ∧
    (∀ size abort, 0 < size → size < 2 ^ 62 → c.read size crlf timeout = .error abort →
      abort.Unfinished) := by
  constructor
  · intro abort fails
    rcases readLine_cases valid crlf (by decide) timeout with
      ⟨abort', aborts, unfinished, -⟩ | ⟨returned, same, -⟩ | ⟨returned, same, -⟩
    · exact Except.error.inj (fails.symm.trans aborts) ▸ unfinished
    · exact absurd (fails.symm.trans same) (by simp)
    · exact absurd (fails.symm.trans same) (by simp)
  · intro size abort some small fails
    have fits : size + crlf.length < 2 ^ 64 := by
      simp only [crlf, List.length_cons, List.length_nil]
      omega
    rcases read_cases valid crlf some fits timeout with
      ⟨abort', aborts, unfinished, -⟩ | ⟨returned, same, -⟩ | ⟨returned, same, -⟩
    · exact Except.error.inj (fails.symm.trans aborts) ▸ unfinished
    · exact absurd (fails.symm.trans same) (by simp)
    · exact absurd (fails.symm.trans same) (by simp)

/-- A system on which the client has not made a connection yet. -/
structure Unused (os : Os π) : Prop where
  /-- Nothing has arrived. -/
  incoming : os.incoming = []
  /-- Nothing was asked of `recv`. -/
  recvLens : os.recvLens = []

/-- A new client and the byte stream without a connection. -/
theorem new_refines {os : Os π} (unused : Unused os) (delivers : os.Delivers) :
    (new os).Refines ⟨false, []⟩ where
  reading := by
    refine ⟨⟨TcpClientBuffer.new_valid, Or.inl rfl, fun _ => ?_⟩, delivers, ?_⟩
    · rw [stream, new, TcpClientBuffer.new_unread, unused.incoming]
      rfl
    · rw [new, unused.recvLens]
      simp
  isOpen := rfl
  unread := by
    rw [stream, new, TcpClientBuffer.new_unread, unused.incoming]
    rfl

/-- Every run of a new client is a run of the byte stream, whatever the chunks; every `recv` of it
asks for at least one byte; and in every state reached, reading calls fail no assertion. -/
theorem reader_refines_byte_stream [Peer π] {os : Os π} (unused : Unused os)
    (delivers : os.Delivers) {events : List ReaderEvent} {c : TcpClient π}
    (run : Simulation.Run Step (new os) events c) :
    (∃ s, Simulation.Run ByteStream.Step ⟨false, []⟩ events s ∧ s.unread = c.stream ∧
      s.isOpen = decide (c.fd ≠ -1)) ∧
    (∀ len ∈ c.os.recvLens, 0 < len) ∧
    (∀ timeout abort, c.readLine crlf timeout = .error abort → abort.Unfinished) ∧
    (∀ timeout size abort, 0 < size → size < 2 ^ 62 → c.read size crlf timeout = .error abort →
      abort.Unfinished) := by
  obtain ⟨s, abstract, refines⟩ := forward.run run (new_refines unused delivers)
  exact ⟨⟨s, abstract, refines.unread, refines.isOpen⟩, refines.reading.asked,
    fun timeout => (refines.reading.valid.reads_safely timeout).1,
    fun timeout => (refines.reading.valid.reads_safely timeout).2⟩

/-- A line whose CRLF arrives in two chunks, together with the beginning of the next line. -/
theorem reader_refines_byte_stream_two_chunks : ∃ c : TcpClient ScriptedPeer,
    ∃ s, Simulation.Run ByteStream.Step ⟨false, []⟩
      [.connected (Decimal.ascii "+OK\r\n:1"), .readLine (Decimal.ascii "+OK") 0] s ∧
      s.unread = c.stream ∧ s.isOpen = decide (c.fd ≠ -1) := by
  let os := Os.start (⟨[Decimal.ascii "+OK\r\n:1"]⟩ : ScriptedPeer) [.chunk 3, .chunk 9]
  have shows : ((new os).connect.2.readLine crlf 1000).toOption.map
      (fun returned => (returned.1, returned.2.1)) = some (Decimal.ascii "+OK", 0) := by
    decide +kernel
  obtain ⟨c, returns⟩ := returned_of shows
  have run : Simulation.Run Step (new os)
      [.connected (Decimal.ascii "+OK\r\n:1"), .readLine (Decimal.ascii "+OK") 0] c :=
    .step (.connected rfl (by decide)) (.step (.readLine returns) (.done c))
  exact ⟨c, (reader_refines_byte_stream ⟨rfl, rfl⟩ (by simp [Os.Delivers, os, Os.start]) run).1⟩

end TcpClient

end LibRedis
