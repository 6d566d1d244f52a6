import Exemplar.Numeral

/-!
# Integers as people write them

A setting that is an integer may be written loosely: with blanks around it, a plus
sign, zeros in front, single underscores between digits, and an empty fraction such
as `.0`.  `readWhole` reads such a text in two steps.  It strips what is loose, and
what is left must be a strict integer, as `strictInteger?` reads it: a minus sign at
most, and digits of which the first one is zero only when it is the only one.

Among leading zeros underscores may stand in any number, and a minus sign may follow
them.  A text that starts with more digits than a strict integer may have is told
apart from other texts that write no integer.

`strictInteger?_ofNat` says that the digits of a number are read as the number, if there
are not too many of them.
-/

namespace Exemplar

/-- What a text may be instead of an integer. -/
inductive WholeError where
  /-- It writes no integer. -/
  | unreadable
  /-- It starts with more digits than an integer may have. -/
  | oversized
deriving DecidableEq, Repr

namespace Whole

/-- The number of digits that an integer may have. -/
def digitLimit : Nat := 4300

/-- A minus sign at the front of a text, and the rest. -/
def splitMinus : Text → Bool × Text
  | '-' :: rest => (true, rest)
  | text => (false, text)

/-- The integer that a text writes without any looseness. -/
def strictInteger? (text : Text) : Option Int :=
  let (negative, digits) := splitMinus text
  if isDigits digits && (digits.head? != some '0' || digits.length == 1)
      && digits.length ≤ digitLimit then
    some (signed negative (natOfDigits digits))
  else none

/-- **Digits are read as their number.** -/
theorem strictInteger?_ofNat (n : Nat) (hshort : (Text.ofNat n).length ≤ digitLimit) :
    strictInteger? (Text.ofNat n) = some (n : Int) := by
  have hunsigned : splitMinus (Text.ofNat n) = (false, Text.ofNat n) := by
    unfold splitMinus
    split
    · rename_i text hsame
      have := isDigit_of_mem_ofNat (n := n) (c := '-') (by rw [hsame]; simp)
      contradiction
    · rfl
  have hhead : ((Text.ofNat n).head? != some '0' || (Text.ofNat n).length == 1) = true := by
    by_cases hpositive : 0 < n
    · simp [head_ofNat_ne_zero n hpositive]
    · obtain rfl : n = 0 := by omega
      decide
  simp [strictInteger?, hunsigned, isDigits_ofNat, hhead, hshort, natOfDigits_ofNat, signed]

/-- Whether a text starts with too many digits for an integer, zeros in front not counted as
such a start. -/
def isOversized (text : Text) : Bool :=
  let digits := (splitMinus text).2.takeWhile Char.isDigit
  digits.head? != some '0' && digitLimit < digits.length

/-! ## What is loose -/

/-- A text without a plus sign in front of an unsigned number. -/
def withoutPlus? : Text → Option Text
  | '+' :: '-' :: _ => none
  | '+' :: rest => some rest
  | text => some text

/-- What follows leading zeros, of which `last` is the one passed last; it stays when nothing or a
point follows. -/
def afterZeros? (last : Char) : Text → Option Text
  | [] => some [last]
  | c :: rest =>
      if c == '0' || c == '_' then afterZeros? c rest
      else if c == '.' then some (last :: c :: rest)
      else if c.isDigit || c == '-' then some (c :: rest)
      else none

/-- A text that starts with a digit, without leading zeros. -/
def withoutZeros? : Text → Option Text
  | [] => none
  | c :: rest =>
      if c == '0' then afterZeros? c rest
      else if c.isDigit then some (c :: rest)
      else none

/-- A text without a fraction of zeros at its end. -/
def withoutFraction (text : Text) : Text :=
  let whole := text.takeWhile (· != '.')
  let fraction := text.drop whole.length
  if 1 < fraction.length && fraction.tail.all (· == '0') then whole else text

/-- A text without its underscores, if each of them stands alone between other characters. -/
def withoutUnderscores (text : Text) : Text :=
  let groups := Text.parts '_' text
  if groups.all fun group => !group.isEmpty then groups.flatten else text

/-- A loosely written integer as a strict one would be written. -/
def tighten? (text : Text) : Option Text := do
  let (negative, body) := splitMinus (← withoutPlus? (Text.trim Text.isSpacing text))
  let body ← withoutZeros? body
  return signText negative ++ withoutUnderscores (withoutFraction body)

end Whole

/-- The integer that a text writes. -/
def readWhole (text : Text) : Except WholeError Int :=
  if Whole.isOversized text then .error .oversized
  else
    match (Whole.tighten? text).bind Whole.strictInteger? with
    | some n => .ok n
    | none => .error .unreadable

end Exemplar
