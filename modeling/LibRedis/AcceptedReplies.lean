import LibRedis.BulkValues
import LibRedis.ReplyWords

/-!
# Only words are accepted

What a stream is on which `read_reply` returns true, for every stream: the part that was taken has
the shape of a reply, and where it is a word of the format the output is what that word denotes.
The reader is looser than the format in three places, about which nothing is promised: the text of
a number is given to `strtol` whatever it is, a negative count is no elements where an array is
read element by element, and the two bytes behind a byte string are not looked at.
-/

namespace LibRedis

open Decimal (ascii Numeral)
open Resp (Reply Rules Word Reaches crlf firstLine)

/-- What is promised of the parts of an accepted reply: a numeral is decoded as its number, two
bytes end a byte string, and an array has as many elements as its count says, unless the count is
negative and not checked. -/
def promised (counted : Bool) : Rules where
  number := fun text i => ∀ j, Numeral text j → i = j
  ends := fun last => last.length = 2
  counts := fun count elements => counted = true ∨ 0 ≤ count → count = elements

/-- The format does not contradict what is promised. -/
theorem strict_agree_promised (counted : Bool) : Rules.strict.Agree (promised counted) where
  number := fun numeral promise => (promise _ numeral).symm
  ends := by
    rintro last last' rfl two
    exact two.symm
  counts := by
    intro count elements elements' announced promise
    have natural : count = elements := announced
    have same := promise (Or.inr (by omega))
    omega

namespace RedisProtocol

variable {π : Type}

/-- The reader decodes as promised. -/
theorem rules_within (p : RedisProtocol π) (c : RedisCommand) :
    (p.rules c).Within (promised (p.counted c)) where
  number := by
    intro text i decoded j numeral
    exact ((p.decode_numeral numeral).mp decoded).2.symm
  ends := id
  counts := by
    rintro count elements ⟨rfl, checked⟩ known
    have natural := known.elim checked id
    omega

/-- `read_reply` that returns true on a stream that begins with a word of the format returns what
the word denotes, and leaves the rest. -/
theorem readReply_denotes {p p' : RedisProtocol π} (valid : p.Valid) {c c' : RedisCommand}
    (returns : p.readReply c = .ok (true, c', p')) {word rest : Bytes} {r : Reply}
    (shape : p.stream = word ++ rest) (strict : Word .strict r word) :
    c'.out = denoteAs (p.replyType c) r ∧ p'.stream = rest := by
  rcases readReply_finds valid c returns with
    ⟨-, -, word', r', shape', found, -, rfl⟩ | ⟨wrong, -⟩ | ⟨wrong, -⟩
  · have loose := found.within (p.rules_within c)
    obtain ⟨rfl, rfl⟩ := strict.agree (strict_agree_promised _) loose (shape.symm.trans shape')
    exact ⟨rfl, rfl⟩
  · cases wrong
  · cases wrong

/-- Whatever the stream is, `read_reply` returns true only behind a word, with its value; it
returns false with the connection closed, or behind an error line that it comes to; and it returns
if the network does not keep it waiting and there is room for what is announced. -/
theorem readReply_accepts_words {p : RedisProtocol π} (valid : p.Valid) (c : RedisCommand) :
    (∀ ok c' p', p.readReply c = .ok (ok, c', p') →
      (ok = true ∧ p.Takes c (promised (p.counted c)) c' p' ∧
        ∀ word rest r, p.stream = word ++ rest → Word .strict r word →
          c'.out = denoteAs (p.replyType c) r ∧ p'.stream = rest) ∨
      (ok = false ∧ p'.tcpClient.fd = -1) ∨
      (ok = false ∧ p'.tcpClient.fd = p.tcpClient.fd ∧
        p.StopsAtError (promised (p.counted c)) p')) ∧
    (p.Allocated → p.Prompt → p.stream.length < 2 ^ 60 → ¬ p.ReachesOversized c →
      ∃ result, p.readReply c = .ok result) := by
  have within := p.rules_within c
  constructor
  · intro ok c' p' returns
    rcases readReply_finds valid c returns with
      ⟨rfl, keeps, word, r, shape, found, accepts, rfl⟩ | ⟨rfl, ends⟩ |
      ⟨rfl, keeps, word, shape, error⟩
    · refine Or.inl ⟨rfl, ⟨word, r, shape, found.within within, accepts, rfl⟩, ?_⟩
      intro word' rest r' shape' strict
      exact readReply_denotes valid returns shape' strict
    · exact Or.inr (Or.inl ⟨rfl, ends.fd⟩)
    · have reaches := error.within within fun _ holds => holds
      exact Or.inr (Or.inr ⟨rfl, keeps.goes.fd, word, shape, reaches⟩)
  · intro allocated prompt short room
    exact (readReply_returns valid allocated prompt short c).resolve_right room

/-- The bytes of a GET that finds a value are a word, so that the output is the value. -/
theorem readReply_accepts_words_get :
    ∃ c' p', (greeted (ascii "$3\r\nfoo\r\n+") [.chunk 2, .chunk 20]).readReply (.new .get) =
      .ok (true, c', p') ∧ c'.out = .bulk (ascii "foo") ∧ p'.stream = ascii "+" := by
  obtain ⟨valid, shape⟩ := greeted_valid (ascii "$3\r\nfoo\r\n+") [.chunk 2, .chunk 20]
  have accepts : ((greeted (ascii "$3\r\nfoo\r\n+") [.chunk 2, .chunk 20]).readReply
      (.new .get)).toOption.map (fun returned => returned.1) = some true := by
    decide +kernel
  cases returns : (greeted (ascii "$3\r\nfoo\r\n+") [.chunk 2, .chunk 20]).readReply (.new .get) with
  | error abort =>
    rw [returns] at accepts
    cases accepts
  | ok returned =>
    obtain ⟨ok, c', p'⟩ := returned
    rw [returns] at accepts
    obtain rfl : ok = true := Option.some.inj accepts
    refine ⟨c', p', rfl, ?_⟩
    rcases (readReply_accepts_words valid (.new .get)).1 true c' p' returns with
      ⟨-, -, agrees⟩ | ⟨wrong, -⟩ | ⟨wrong, -⟩
    · have whole : ascii "$3\r\nfoo\r\n+" = Resp.encode (.bulk (ascii "foo")) ++ ascii "+" := by
        decide
      exact agrees _ _ (.bulk (ascii "foo")) (shape.trans whole) (Resp.word_encode (.bulk _))
    · cases wrong
    · cases wrong

/-- Either `read_reply` returns true behind a word of the format, with its value, or it returns
false with the connection closed. -/
def AcceptsOnlyWords (p : RedisProtocol π) (c : RedisCommand) : Prop :=
  (∃ c' p' word r, p.readReply c = .ok (true, c', p') ∧ p.stream = word ++ p'.stream ∧
    Word .strict r word ∧ c'.out = denoteAs (p.replyType c) r) ∨
  ∃ c' p', p.readReply c = .ok (false, c', p') ∧ p'.tcpClient.fd = -1

/-- GET answered by an error: the call returns false and keeps the connection. -/
theorem readReply_keeps_error : ∃ (p : RedisProtocol ScriptedPeer) (c : RedisCommand),
    p.Valid ∧ p.CleanErrno ∧ p.Allocated ∧ p.Prompt ∧ ¬ p.AcceptsOnlyWords c := by
  obtain ⟨valid, -⟩ := greeted_valid (ascii "-ERR\r\n") [.chunk 20]
  refine ⟨greeted (ascii "-ERR\r\n") [.chunk 20], .new .get, valid, ⟨by decide, by decide⟩,
    greeted_allocated _ _, Or.inl (by decide), ?_⟩
  have keeps : ((greeted (ascii "-ERR\r\n") [.chunk 20]).readReply (.new .get)).toOption.map
      (fun returned => (returned.1, returned.2.2.tcpClient.fd == -1)) = some (false, false) := by
    decide +kernel
  rintro (⟨c', p', word, r, returns, -⟩ | ⟨c', p', returns, closed⟩)
  · rw [returns] at keeps
    cases keeps
  · rw [returns] at keeps
    have kept : (p'.tcpClient.fd == -1) = false := (Prod.mk.inj (Option.some.inj keeps)).2
    rw [closed] at kept
    cases kept

end RedisProtocol

end LibRedis
