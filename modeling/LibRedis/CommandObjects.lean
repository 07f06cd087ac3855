import LibRedis.ReplyFraming
import LibRedis.Request

/-!
# Command objects on the two write paths

`write_command` takes the name of a command from its table entry and the arguments from the object.
`write_commandv` sends the words of a text, the name among them, and leaves all of them as arguments
in the object. So an object that it has filled never means on the first path what it has meant on
the second: there is one argument too many, or the name is sent twice.
-/

namespace LibRedis

open Decimal (ascii)

namespace RedisProtocol

variable {π : Type}

/-- `write_command` accepts the object and sends these words, the first up to letter case. -/
def SendsWords (c : RedisCommand) (words : List Bytes) : Prop :=
  Passes c ∧ ∃ name : Bytes, name.map toUpper = (words.headD []).map toUpper ∧
    commandText c = Resp.request (name :: words.tail)

/-- An object means the command that these words are: it holds the arguments only, and
`write_command` sends the words. -/
structure MeansWords (c : RedisCommand) (words : List Bytes) : Prop where
  /-- The name is no argument. -/
  args : c.args = words.tail
  /-- The words are sent. -/
  sends : SendsWords c words

/-- What `write_command` does with an object that it accepts and sends so. -/
theorem SendsWords.writeCommand [Peer π] {c : RedisCommand} {words : List Bytes}
    (sends : SendsWords c words) : ∃ name : Bytes,
      name.map toUpper = (words.headD []).map toUpper ∧
        ∀ p : RedisProtocol π,
          p.writeCommand c = p.sendRequest c (Resp.request (name :: words.tail)) := by
  obtain ⟨passes, name, same, text⟩ := sends
  refine ⟨name, same, fun p => ?_⟩
  rw [passes.writeCommand, text]

/-- An object that was filled by `push_arg` means its name and its arguments. -/
theorem meansWords_pushed {c : RedisCommand} (passes : Passes c) (few : c.args.length + 1 < 2 ^ 31)
    {name : Bytes} (named : name.map toUpper = c.commandInfo.commandStr.map toUpper) :
    MeansWords c (name :: c.args) where
  args := rfl
  sends := ⟨passes, c.commandInfo.commandStr, named.symm, commandText_eq few⟩

/-- A text that begins like a request has as many words as it says. -/
theorem count_of_request {count : Int} {rest : Bytes} {words : List Bytes}
    (request : ascii "*" ++ Decimal.intText count ++ redisLineEnd ++ rest = Resp.request words) :
    count = words.length := by
  have differ : (13 : UInt8) ≠ 10 := by decide
  have announced : Delimited.Splits [13, 10] (Decimal.intText count ++ [13, 10] ++ rest)
      (Decimal.intText count) rest :=
    Delimited.splits_pair differ (Resp.no_crlf_intText count) rest
  have counted : Delimited.Splits [13, 10]
      (Decimal.intText (words.length : Int) ++ [13, 10] ++ words.flatMap Resp.bulk)
      (Decimal.intText (words.length : Int)) (words.flatMap Resp.bulk) :=
    Delimited.splits_pair differ (Resp.no_crlf_intText _) _
  have same : Decimal.intText count ++ [13, 10] ++ rest =
      Decimal.intText (words.length : Int) ++ [13, 10] ++ words.flatMap Resp.bulk := by
    rw [Decimal.intText_natCast]
    have marked : 42 :: (Decimal.intText count ++ [13, 10] ++ rest) = Resp.request words := by
      rw [← request]
      rfl
    exact (List.cons.inj marked).2
  rw [same] at announced
  exact Decimal.intText_injective (announced.unique counted).1

/-- A request that was sent leaves the object. -/
theorem sendRequest_object [Peer π] {p p' : RedisProtocol π} {c c' : RedisCommand} {request : Bytes}
    (returns : p.sendRequest c request = .ok (true, c', p')) : c' = c := by
  obtain ⟨⟨ec, tcpClient⟩, writes, same⟩ := bind_returns returns
  by_cases failed : ec ≠ 0
  · simp only [if_pos failed] at same
    cases same
  · simp only [if_neg failed] at same
    cases same
    rfl

/-- What `write_commandv` leaves in an object when it returns true. -/
theorem writeCommandv_object [Peer π] {p p' : RedisProtocol π} {c c' : RedisCommand} {buf : Bytes}
    (returns : p.writeCommandv c buf = .ok (true, c', p')) :
    c' = commandvOf c buf ∧ splitWords buf ≠ [] ∧
      argcMatches c'.commandInfo.argc (toInt32 (splitWords buf).length - 1) = true := by
  rw [writeCommandv] at returns
  by_cases none : toInt32 (splitWords buf).length = 0
  · simp only [if_pos none] at returns
    cases returns
  · simp only [if_neg none] at returns
    by_cases invalid : Command.ofName ((splitWords buf).headD []) = .noop
    · simp only [if_pos invalid] at returns
      cases returns
    · simp only [if_neg invalid] at returns
      rw [checkArgc] at returns
      split at returns
      · rename_i accepted
        have object := sendRequest_object (p := p) returns
        refine ⟨object, ?_, ?_⟩
        · intro empty
          rw [empty] at none
          exact none (by decide)
        · rw [object]
          exact accepted
      · cases returns

/-- The count that is compared on the first path is one more than on the second, so it is accepted
again exactly where the count is not fixed. -/
theorem argcMatches_again {argc given : Int} (accepted : argcMatches argc (given - 1) = true) :
    argcMatches argc given = true ↔ argc < 0 := by
  have unchecked : argcNoChecking < 0 := by decide
  unfold argcMatches at accepted ⊢
  split_ifs at accepted ⊢ with free fixed
  · rw [free]
    exact iff_of_true rfl unchecked
  · have same : argc = given - 1 := by simpa using accepted
    constructor
    · intro again
      have wrong : argc = given := by simpa using again
      omega
    · intro negative
      omega
  · have enough : ¬ given - 1 < -argc := by simpa using accepted
    have more : ¬ given < -argc := by omega
    simp [more]
    omega

/-- No narrowing takes one off. -/
theorem toInt32_succ_ne (count : Nat) : toInt32 count + 1 ≠ count := by
  unfold toInt32
  rw [Int.bmod_def]
  split_ifs <;> omega

/-- In every run in which `write_commandv` has sent a text: the object holds the name with the
arguments, and `write_command` sends other words, if it accepts the object at all, which it does
exactly where the number of arguments is not fixed. -/
theorem writeCommandv_not_means [Peer π] {p p' : RedisProtocol π} {c c' : RedisCommand}
    {buf : Bytes} (returns : p.writeCommandv c buf = .ok (true, c', p')) :
    ¬ MeansWords c' (splitWords buf) ∧ c'.args = splitWords buf ∧
      c'.args ≠ (splitWords buf).tail ∧ ¬ SendsWords c' (splitWords buf) ∧
        (Passes c' ↔ c'.commandInfo.argc < 0) := by
  obtain ⟨object, some, accepted⟩ := writeCommandv_object returns
  have args : c'.args = splitWords buf := by
    rw [object]
    rfl
  have shorter : (splitWords buf).tail.length + 1 = (splitWords buf).length := by
    rw [List.length_tail]
    have := List.length_pos_of_ne_nil some
    omega
  have named : c'.args ≠ (splitWords buf).tail := by
    intro same
    have length := congrArg List.length same
    rw [args] at length
    omega
  have others : ¬ SendsWords c' (splitWords buf) := by
    rintro ⟨-, name, -, text⟩
    have request : ascii "*" ++ Decimal.intText (toInt32 c'.args.length + 1) ++ redisLineEnd ++
        (bulkText c'.commandInfo.commandStr ++ c'.args.flatMap bulkText) =
          Resp.request (name :: (splitWords buf).tail) := by
      rw [← text, commandText]
      simp only [List.append_assoc]
    have counts := count_of_request request
    rw [List.length_cons, shorter, args] at counts
    exact toInt32_succ_ne _ counts
  refine ⟨fun means => others means.sends, args, named, others, ?_⟩
  rw [Passes, args]
  exact argcMatches_again accepted

/-- A text that is sent, and what it leaves, from what is seen of it. -/
theorem writeCommandv_of_view {buf : Bytes} {args : List Bytes} {passes : Bool}
    (shows : ((greeted [] []).writeCommandv (.new .ping) buf).toOption.map
      (fun out => (out.1, out.2.1.args, argcMatches out.2.1.commandInfo.argc
        (toInt32 out.2.1.args.length))) = some (true, args, passes)) :
    ∃ c' p', (greeted [] []).writeCommandv (.new .ping) buf = .ok (true, c', p') ∧ c'.args = args ∧
      argcMatches c'.commandInfo.argc (toInt32 c'.args.length) = passes := by
  obtain ⟨⟨ok, c', p'⟩, performs, seen⟩ := Option.map_eq_some_iff.mp shows
  obtain ⟨rfl, seen⟩ := Prod.mk.inj seen
  obtain ⟨args, passes⟩ := Prod.mk.inj seen
  exact ⟨c', p', returned_of_toOption performs, args, passes⟩

/-- A text for a command with any number of keys. -/
theorem writeCommandv_not_means_del : ∃ c' : RedisCommand,
    ¬ MeansWords c' (splitWords (ascii "del k l")) ∧ c'.args = [ascii "del", ascii "k", ascii "l"] ∧
      ¬ SendsWords c' (splitWords (ascii "del k l")) := by
  have shows : ((greeted [] []).writeCommandv (.new .ping) (ascii "del k l")).toOption.map
      (fun out => (out.1, out.2.1.args, argcMatches out.2.1.commandInfo.argc
        (toInt32 out.2.1.args.length))) =
          some (true, [ascii "del", ascii "k", ascii "l"], true) := by decide +kernel
  obtain ⟨c', p', sent, args, -⟩ := writeCommandv_of_view shows
  have never := writeCommandv_not_means sent
  exact ⟨c', never.1, args, never.2.2.2.1⟩

/-- `GET k` is sent from a text, and `write_command` refuses what this leaves. -/
theorem writeCommandv_refused_again : ∃ (c' : RedisCommand) (p' : RedisProtocol ScriptedPeer),
    (greeted [] []).writeCommandv (.new .ping) (ascii "GET k") = .ok (true, c', p') ∧
      c'.args = [ascii "GET", ascii "k"] ∧ ¬ Passes c' ∧
        ¬ MeansWords c' [ascii "GET", ascii "k"] := by
  have shows : ((greeted [] []).writeCommandv (.new .ping) (ascii "GET k")).toOption.map
      (fun out => (out.1, out.2.1.args, argcMatches out.2.1.commandInfo.argc
        (toInt32 out.2.1.args.length))) = some (true, [ascii "GET", ascii "k"], false) := by
    decide +kernel
  obtain ⟨c', p', sent, args, refused⟩ := writeCommandv_of_view shows
  have fails : ¬ Passes c' := by
    rw [Passes, refused]
    decide
  exact ⟨c', p', sent, args, fails, fun means => fails means.sends.1⟩

end RedisProtocol

end LibRedis
