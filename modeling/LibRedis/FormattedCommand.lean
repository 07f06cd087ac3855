import LibRedis.Lib.Printf
import LibRedis.ReplyFraming
import LibRedis.Request

/-!
# Commands from a format

`write_commandv` from its format and its `va_list`. It prints into a buffer of 64 bytes and, as long
as the text does not fit, into one of twice the size, each time with the same list. So the text of a
format with arguments is found at the first try or not at all.
-/

namespace LibRedis

open Decimal (ascii)
open Printf (Piece Conversions VaList Starves expand converts vsnprintf)

/-- What comes of a loop that prints. -/
inductive Formatted (β : Type) where
  /-- The behaviour is undefined: a consumed list was read. -/
  | undefined
  /-- The loop does not end. -/
  | endless
  /-- The text is there, and this is done with it. -/
  | done (value : β)

namespace Formatted

/-- Going on with the text. -/
def map {β γ : Type} (f : β → γ) : Formatted β → Formatted γ
  | undefined => .undefined
  | endless => .endless
  | done value => .done (f value)

end Formatted

/-- Conversion of an `int` to a `size_t`. -/
def toSize (count : Int) : Nat := (count % 2 ^ 64).toNat

namespace RedisProtocol

variable {σ α : Type}

/-- The loop of `write_commandv`. -/
def formatLoop (print : Conversions σ α) (format : List (Piece σ)) :
    Nat → Nat → VaList α → Formatted Bytes
  | 0, _, _ => .endless
  | fuel + 1, bufLen, ap =>
    match vsnprintf print bufLen format ap with
    | none => .undefined
    | some printed =>
      let bytes := toSize printed.ret
      if bytes < bufLen then .done (printed.stored.take bytes)
      else formatLoop print format fuel (bufLen * 2) printed.ap

/-- The text that `write_commandv` prints. After 58 rounds the length of the buffer would be
`2 ^ 64`, which is zero, and stay so. -/
def formatBuf (print : Conversions σ α) (format : List (Piece σ)) (ap : VaList α) :
    Formatted Bytes :=
  formatLoop print format 58 64 ap

variable {π : Type}

/-- `write_commandv`, from the format. -/
def writeFormat [Peer π] (p : RedisProtocol π) (c : RedisCommand) (print : Conversions σ α)
    (format : List (Piece σ)) (ap : VaList α) :
    Formatted (Except Abort (Bool × RedisCommand × RedisProtocol π)) :=
  (formatBuf print format ap).map (p.writeCommandv c)

/-- `exec_commandv`, from the format. -/
def execFormat [Peer π] (p : RedisProtocol π) (c : RedisCommand) (print : Conversions σ α)
    (format : List (Piece σ)) (ap : VaList α) :
    Formatted (Except Abort (Bool × RedisCommand × RedisProtocol π)) :=
  (formatBuf print format ap).map (p.execCommandv c)

/-- The size of a count. -/
theorem toSize_natCast {count : Nat} (small : count < 2 ^ 64) : toSize count = count := by
  rw [toSize, Int.emod_eq_of_lt (by omega) (by exact_mod_cast small)]
  exact Int.toNat_natCast count

/-- A text that fits is printed in the first round. -/
theorem formatLoop_fits {print : Conversions σ α} {format : List (Piece σ)} {args : List α}
    {text : Bytes} (expands : expand print format args = some text) {bufLen : Nat}
    (fits : text.length < bufLen) (small : text.length < 2 ^ 31) (fuel : Nat) :
    formatLoop print format (fuel + 1) bufLen (.args args) = .done text := by
  have size : toSize text.length = text.length := toSize_natCast (by omega)
  have whole : (text.take (bufLen - 1)).take text.length = text := by
    rw [List.take_take, List.take_of_length_le (by omega)]
  simp only [formatLoop, vsnprintf, expands, Option.map_some, Printf.vsnprintf.returned,
    if_pos small, size, if_pos fits, whole]

/-- A text without arguments that does not fit is printed with the next buffer. -/
theorem formatLoop_grows {print : Conversions σ α} {format : List (Piece σ)}
    (plain : converts format = false) {args : List α} {text : Bytes}
    (expands : expand print format args = some text) {bufLen : Nat}
    (long : bufLen ≤ toSize (Printf.vsnprintf.returned text)) (fuel : Nat) :
    formatLoop print format (fuel + 1) bufLen (.args args) =
      formatLoop print format fuel (bufLen * 2) (.args args) := by
  simp only [formatLoop, vsnprintf, expands, Option.map_some, if_neg (not_lt.mpr long), plain,
    Bool.false_eq_true, if_false]

/-- With arguments the list is consumed then, and the next round is undefined. -/
theorem formatLoop_undefined {print : Conversions σ α} {format : List (Piece σ)}
    (takes : converts format = true) {args : List α} {text : Bytes}
    (expands : expand print format args = some text) {bufLen : Nat}
    (long : bufLen ≤ toSize (Printf.vsnprintf.returned text)) (fuel : Nat) :
    formatLoop print format (fuel + 2) bufLen (.args args) = .undefined := by
  simp only [formatLoop, vsnprintf, expands, Option.map_some, if_neg (not_lt.mpr long), takes,
    if_true]

/-- The size of what `vsnprintf` returns. -/
theorem toSize_returned (text : Bytes) : toSize (Printf.vsnprintf.returned text) =
    if text.length < 2 ^ 31 then text.length else 2 ^ 64 - 1 := by
  by_cases small : text.length < 2 ^ 31
  · rw [Printf.vsnprintf.returned, if_pos small, if_pos small]
    exact toSize_natCast (by omega)
  · rw [Printf.vsnprintf.returned, if_neg small, if_neg small]
    decide

/-- A text without arguments is found in the end, if it is not too long. The induction is on the
rounds that are left. -/
theorem formatLoop_done {print : Conversions σ α} {format : List (Piece σ)}
    (plain : converts format = false) {args : List α} {text : Bytes}
    (expands : expand print format args = some text) (small : text.length < 2 ^ 31)
    {bufLen fuel : Nat} (fits : text.length < bufLen * 2 ^ fuel) :
    formatLoop print format (fuel + 1) bufLen (.args args) = .done text := by
  induction fuel generalizing bufLen with
  | zero =>
    rw [pow_zero, mul_one] at fits
    exact formatLoop_fits expands fits small 0
  | succ fuel ih =>
    by_cases now : text.length < bufLen
    · exact formatLoop_fits expands now small (fuel + 1)
    · have long : bufLen ≤ toSize (Printf.vsnprintf.returned text) := by
        rw [toSize_returned, if_pos small]
        exact not_lt.mp now
      rw [formatLoop_grows plain expands long]
      apply ih
      rw [mul_assoc, ← pow_succ']
      exact fits

/-- A text without arguments that is too long is never found: `vsnprintf` returns -1, and no buffer
is larger than that is as a size. -/
theorem formatLoop_endless {print : Conversions σ α} {format : List (Piece σ)}
    (plain : converts format = false) {args : List α} {text : Bytes}
    (expands : expand print format args = some text) (large : ¬ text.length < 2 ^ 31)
    {bufLen fuel : Nat} (room : bufLen * 2 ^ fuel ≤ 2 ^ 64) :
    formatLoop print format fuel bufLen (.args args) = .endless := by
  induction fuel generalizing bufLen with
  | zero => rfl
  | succ fuel ih =>
    have doubled : bufLen * 2 * 2 ^ fuel ≤ 2 ^ 64 := by
      rw [mul_assoc, ← pow_succ']
      exact room
    have positive : 0 < 2 ^ fuel := Nat.two_pow_pos fuel
    have half : bufLen * 2 ≤ 2 ^ 64 := (Nat.le_mul_of_pos_right _ positive).trans doubled
    have long : bufLen ≤ toSize (Printf.vsnprintf.returned text) := by
      rw [toSize_returned, if_neg large]
      omega
    rw [formatLoop_grows plain expands long]
    exact ih doubled

/-- The text is printed if it fits into the first buffer, or takes no argument and is not too
long. -/
def PrintsAtOnce (format : List (Piece σ)) (text : Bytes) : Prop :=
  text.length < 64 ∨ converts format = false ∧ text.length < 2 ^ 31

/-- Then this text is found. -/
theorem PrintsAtOnce.formatBuf {print : Conversions σ α} {format : List (Piece σ)} {args : List α}
    {text : Bytes} (expands : expand print format args = some text)
    (prints : PrintsAtOnce format text) : formatBuf print format (.args args) = .done text := by
  rcases prints with short | ⟨plain, small⟩
  · exact formatLoop_fits expands short (by omega) 57
  · exact formatLoop_done plain expands small (by omega)

/-- Then `write_commandv` and `exec_commandv` go on with it. -/
theorem PrintsAtOnce.goesOn [Peer π] {print : Conversions σ α} {format : List (Piece σ)}
    {args : List α} {text : Bytes} (expands : expand print format args = some text)
    (prints : PrintsAtOnce format text) (p : RedisProtocol π) (c : RedisCommand) :
    p.writeFormat c print format (.args args) = .done (p.writeCommandv c text) ∧
      p.execFormat c print format (.args args) = .done (p.execCommandv c text) := by
  rw [writeFormat, execFormat, PrintsAtOnce.formatBuf expands prints]
  exact ⟨rfl, rfl⟩

/-- Otherwise none is. -/
theorem formatBuf_fails {print : Conversions σ α} {format : List (Piece σ)} {args : List α}
    {text : Bytes} (expands : expand print format args = some text)
    (fails : ¬ PrintsAtOnce format text) :
    formatBuf print format (.args args) = .undefined ∨
      formatBuf print format (.args args) = .endless := by
  have long : ¬ text.length < 64 := fun short => fails (Or.inl short)
  cases takes : converts format with
  | true =>
    refine Or.inl (formatLoop_undefined takes expands ?_ 56)
    rw [toSize_returned]
    split
    · omega
    · omega
  | false =>
    have large : ¬ text.length < 2 ^ 31 := fun small => fails (Or.inr ⟨takes, small⟩)
    exact Or.inr (formatLoop_endless takes expands large (by decide))

/-- Without arguments a text is found exactly if there is one that is not too long. -/
theorem formatBuf_done_iff {print : Conversions σ α} (starves : Starves print)
    {format : List (Piece σ)} {text : Bytes} :
    formatBuf print format (.args []) = .done text ↔
      expand print format [] = some text ∧ text.length < 2 ^ 31 := by
  constructor
  · intro found
    cases expands : expand print format [] with
    | none =>
      have undefined : RedisProtocol.formatBuf print format (.args []) = .undefined := by
        simp only [RedisProtocol.formatBuf, formatLoop, vsnprintf, expands, Option.map_none]
      cases undefined.symm.trans found
    | some printed =>
      by_cases small : printed.length < 2 ^ 31
      · have prints : PrintsAtOnce format printed := Or.inr ⟨starves.converts expands, small⟩
        have same := (PrintsAtOnce.formatBuf expands prints).symm.trans found
        cases same
        exact ⟨rfl, small⟩
      · have fails : ¬ PrintsAtOnce format printed := by
          rintro (short | ⟨-, fits⟩)
          · omega
          · exact small fits
        rcases formatBuf_fails expands fails with undefined | endless
        · cases undefined.symm.trans found
        · cases endless.symm.trans found
  · rintro ⟨expands, small⟩
    exact PrintsAtOnce.formatBuf expands (Or.inr ⟨starves.converts expands, small⟩)

/-- A list has at most as many parts that are not empty as it has elements. -/
theorem splitOn_length (byte : UInt8) (text : Bytes) :
    ((text.splitOn byte).filter (· ≠ [])).length ≤ text.length := by
  induction text with
  | nil => simp
  | cons first rest ih =>
    rw [List.splitOn, List.splitOnP_cons_eq_if_modifyHead]
    rw [List.splitOn] at ih
    rw [List.length_cons]
    split
    · rw [List.filter_cons_of_neg (by simp)]
      exact ih.trans (Nat.le_succ _)
    · cases parts : rest.splitOnP (· == byte) with
      | nil => exact absurd parts (List.splitOnP_ne_nil _ _)
      | cons part parts' =>
        rw [parts] at ih
        have more := (List.sublist_cons_self part parts').filter (· ≠ [])
        rw [List.modifyHead_cons, List.filter_cons_of_pos (by simp), List.length_cons]
        exact Nat.succ_le_succ (more.length_le.trans ih)

/-- A text has at most as many words as it has bytes. -/
theorem splitWords_length (text : Bytes) : (splitWords text).length ≤ text.length := by
  have front := (List.dropWhile_suffix isSpace (l := text)).length_le
  have back := (List.dropWhile_suffix isSpace (l := (text.dropWhile isSpace).reverse)).length_le
  rw [List.length_reverse] at back
  refine (splitOn_length 32 _).trans ?_
  rw [List.length_reverse]
  exact back.trans front

/-- A text names a known command with an acceptable count of arguments. -/
structure Acceptable (text : Bytes) : Prop where
  /-- The first word is known. -/
  named : Command.ofName ((splitWords text).headD []) ≠ .noop
  /-- The other words are acceptable in number. -/
  argc : argcMatches (Command.ofName ((splitWords text).headD [])).commandInfo.argc
    ((splitWords text).length - 1) = true

/-- An acceptable text is sent as the request of its words. -/
theorem Acceptable.writeCommandv [Peer π] {text : Bytes} (acceptable : Acceptable text)
    (small : text.length < 2 ^ 31) (p : RedisProtocol π) (c : RedisCommand) :
    p.writeCommandv c text =
      p.sendRequest (commandvOf c text) (Resp.request (splitWords text)) := by
  have few : (splitWords text).length < 2 ^ 31 := (splitWords_length text).trans_lt small
  have count : toInt32 (splitWords text).length = (splitWords text).length := Os.toInt32_small few
  have some : toInt32 (splitWords text).length ≠ 0 := by
    intro none
    have empty : splitWords text = [] := List.eq_nil_of_length_eq_zero (by omega)
    apply acceptable.named
    rw [empty]
    exact Command.ofName_nil
  have passes : p.checkArgc ⟨Command.ofName ((splitWords text).headD []), splitWords text, c.out⟩
      (toInt32 (splitWords text).length - 1) = (true, commandvOf c text, p) := by
    rw [checkArgc, count]
    exact if_pos acceptable.argc
  rw [RedisProtocol.writeCommandv, ← commandvText_eq few]
  simp only [if_neg some, if_neg acceptable.named]
  rw [passes]
  rfl

/-- `write_commandv` sends the request of the words of this text, from any state. -/
def SendsText (print : Conversions σ α) (format : List (Piece σ)) (args : List α) (text : Bytes) :
    Prop :=
  ∀ (π : Type) [Peer π] (p : RedisProtocol π) (c : RedisCommand),
    p.writeFormat c print format (.args args) =
      .done (p.sendRequest (commandvOf c text) (Resp.request (splitWords text)))

/-- A format whose text is acceptable is sent as that text exactly if the text fits into the first
buffer, or the format takes no argument and the length is an `int`. -/
theorem sendsText_iff (print : Conversions σ α) (format : List (Piece σ)) (args : List α)
    {text : Bytes} (expands : expand print format args = some text)
    (acceptable : Acceptable text) :
    SendsText print format args text ↔
      text.length < 64 ∨ converts format = false ∧ text.length < 2 ^ 31 := by
  constructor
  · intro sends
    by_contra fails
    let p : RedisProtocol ScriptedPeer := greeted [] []
    have sent := sends ScriptedPeer p (.new .ping)
    rcases formatBuf_fails expands fails with undefined | endless
    · rw [writeFormat, undefined] at sent
      cases sent
    · rw [writeFormat, endless] at sent
      cases sent
  · intro prints π _ p c
    have small : text.length < 2 ^ 31 := by
      rcases prints with short | ⟨-, small⟩
      · omega
      · exact small
    rw [(PrintsAtOnce.goesOn expands prints p c).1, acceptable.writeCommandv small]

/-- The conversion `%s`, whose arguments are strings. -/
def stringConversion : Conversions Unit Bytes
  | (), arg :: args => some (arg, args)
  | (), [] => none

/-- `GET %s`. -/
def getFormat : List (Piece Unit) := [.text (ascii "GET "), .conversion ()]

/-- A short key. -/
theorem sendsText_iff_get : SendsText stringConversion getFormat [ascii "k"] (ascii "GET k") := by
  have expands : expand stringConversion getFormat [ascii "k"] = some (ascii "GET k") := by decide
  have acceptable : Acceptable (ascii "GET k") := ⟨by decide +kernel, by decide +kernel⟩
  exact (sendsText_iff stringConversion getFormat _ expands acceptable).mpr (Or.inl (by decide))

/-- A key of 60 bytes: the text is acceptable, and the second round reads a consumed list. -/
theorem format_undefined : ∃ text, expand stringConversion getFormat [List.replicate 60 107] =
      some text ∧ Acceptable text ∧
    (∀ (p : RedisProtocol ScriptedPeer) (c : RedisCommand), p.writeFormat c stringConversion
      getFormat (.args [List.replicate 60 107]) = .undefined) ∧
    ¬ SendsText stringConversion getFormat [List.replicate 60 107] text := by
  have fails : formatBuf stringConversion getFormat (.args [List.replicate 60 107]) =
      .undefined := rfl
  have undefined (p : RedisProtocol ScriptedPeer) (c : RedisCommand) :
      p.writeFormat c stringConversion getFormat (.args [List.replicate 60 107]) = .undefined := by
    rw [writeFormat, fails, Formatted.map]
  refine ⟨_, rfl, ⟨by decide +kernel, by decide +kernel⟩, undefined, ?_⟩
  intro sends
  have sent := sends ScriptedPeer (greeted [] []) (.new .get)
  rw [undefined] at sent
  cases sent

end RedisProtocol

end LibRedis
