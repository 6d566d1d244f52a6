import Exemplar.Text.Basic

/-!
# Numerals

A `Numeral` is a decimal number as it is written down: a sign, digits and a power
of ten.  Several numerals have one value, such as `1.5` and `1.50`, and a numeral
keeps the zeros that it was written with.

`Numeral.ofText?` reads a numeral off a text and `Numeral.text` writes it in its
one standard form; `toInt?` is its value when that is an integer.  `natOfDigits` reads
bare digits, and gives back every number from its decimal text (`natOfDigits_ofNat`).
-/

namespace Exemplar

/-- The number with given decimal digits. -/
def natOfDigits (digits : Text) : Nat :=
  digits.foldl (fun n c => 10 * n + (c.toNat - '0'.toNat)) 0

/-- Whether a text consists of digits and is not empty. -/
def isDigits (text : Text) : Bool :=
  !text.isEmpty && text.all Char.isDigit

/-- The digits of a number give the number back. -/
theorem natOfDigits_ofNat (n : Nat) : natOfDigits (Text.ofNat n) = n :=
  Nat.ofDigitChars_toDigits (by decide) (by decide)

/-- A numeral consists of digits. -/
theorem isDigit_of_mem_ofNat {n : Nat} {c : Char} (hmem : c ∈ Text.ofNat n) :
    c.isDigit = true :=
  Nat.isDigit_of_mem_toDigits (by decide) (by decide) hmem

/-- A numeral has digits, and nothing else. -/
theorem isDigits_ofNat (n : Nat) : isDigits (Text.ofNat n) = true := by
  have hsome : 0 < (Text.ofNat n).length := Nat.length_toDigits_pos
  simp only [isDigits, Bool.and_eq_true, List.all_eq_true]
  exact ⟨by cases hdigits : Text.ofNat n <;> simp_all, fun c hmem => isDigit_of_mem_ofNat hmem⟩

/-- Only zero is written with a zero in front. -/
theorem head_ofNat_ne_zero (n : Nat) (hpositive : 0 < n) : (Text.ofNat n).head? ≠ some '0' := by
  induction n using Nat.strongRecOn with
  | _ n ih =>
      unfold Text.ofNat
      rw [Nat.toDigits_eq_if (by decide)]
      split
      · rename_i hsmall
        clear ih
        have hlisted : n ∈ List.range 10 := List.mem_range.mpr hsmall
        revert hpositive hsmall
        revert n
        decide
      · rename_i hlarge
        have hshorter := ih (n / 10) (by omega) (by omega)
        unfold Text.ofNat at hshorter
        cases hfront : Nat.toDigits 10 (n / 10) with
        | nil => simp at hfront
        | cons c rest => simpa [hfront] using hshorter

/-- The sign at the front of a text, and the rest. -/
def splitSign : Text → Bool × Text
  | '-' :: rest => (true, rest)
  | '+' :: rest => (false, rest)
  | text => (false, text)

/-- An integer with a given sign. -/
def signed (negative : Bool) (n : Nat) : Int :=
  if negative then -(n : Int) else n

/-- A minus sign where there is one. -/
def signText (negative : Bool) : Text :=
  if negative then ['-'] else []

/-- A finite number: its digits times a power of ten, with a sign. -/
structure Numeral where
  /-- Whether the number has a minus sign. -/
  negative : Bool
  /-- The digits as one number. -/
  digits : Nat
  /-- The power of ten. -/
  exponent : Int
deriving DecidableEq, Repr, Inhabited

namespace Numeral

/-- The exponent that a text writes after its digits; none at all stands for zero. -/
def exponentOf? : Text → Option Int
  | [] => some 0
  | _ :: text =>
      let (negative, digits) := splitSign text
      if isDigits digits then some (signed negative (natOfDigits digits)) else none

/-- The finite number that a text writes, if it does. -/
def ofText? (text : Text) : Option Numeral := do
  let (negative, body) := splitSign text
  let mantissa := body.takeWhile fun c => !(c == 'e' || c == 'E')
  let exponent ← exponentOf? (body.drop mantissa.length)
  let whole := mantissa.takeWhile (· != '.')
  let fraction := mantissa.drop (whole.length + 1)
  if isDigits (whole ++ fraction) then
    some ⟨negative, natOfDigits (whole ++ fraction), exponent - fraction.length⟩
  else none

/-- The value of a number that is an integer. -/
def toInt? (numeral : Numeral) : Option Int :=
  if 0 ≤ numeral.exponent then
    some (signed numeral.negative (numeral.digits * Nat.pow 10 numeral.exponent.toNat))
  else
    let unit := Nat.pow 10 (-numeral.exponent).toNat
    if numeral.digits % unit = 0 then some (signed numeral.negative (numeral.digits / unit))
    else none

/-- Digits with a point behind the first `count` of them; a point that nothing follows is left
out. -/
def pointed (count : Nat) (digits : Text) : Text :=
  if digits.length ≤ count then digits else digits.take count ++ '.' :: digits.drop count

/-- The number of digits in front of the point when a number is written without an exponent;
zero or less where zeros follow the point. -/
def magnitude (numeral : Numeral) : Int :=
  numeral.exponent + (Text.ofNat numeral.digits).length

/-- The standard form of a number.  An exponent is written when the digits do not reach the
point, and when more than five zeros would stand between them and the point. -/
def text (numeral : Numeral) : Text :=
  let digits := Text.ofNat numeral.digits
  let magnitude := numeral.magnitude
  signText numeral.negative ++
    if 0 < numeral.exponent || magnitude ≤ -6 then
      pointed 1 digits ++ "E" ++ (if 1 ≤ magnitude then ['+'] else [])
        ++ Text.ofInt (magnitude - 1)
    else if magnitude ≤ 0 then "0." ++ List.replicate (-magnitude).toNat '0' ++ digits
    else pointed magnitude.toNat digits

/-- An integer is written as its digits. -/
theorem text_of_exponent_zero (negative : Bool) (digits : Nat) :
    (Numeral.mk negative digits 0).text = signText negative ++ Text.ofNat digits := by
  have hsome : 0 < (Text.ofNat digits).length := by
    simp [Text.ofNat, Nat.length_toDigits_pos]
  simp [text, magnitude, pointed]
  grind

end Numeral

end Exemplar
