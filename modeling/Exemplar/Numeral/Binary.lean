import Exemplar.Numeral

/-!
# Binary floating-point numbers of 64 bits

The numbers that a binary floating-point format of 64 bits can hold are integers of
at most 53 bits times a power of two that is at least `2 ^ -1074` and at most
`2 ^ 971`.  `Binary64.nearest?` rounds a ratio of integers to such a number: to the
nearest one, and half-way between two of them to the one whose integer is even.  A
ratio that is too large for the format has none.

The integer is found by one division, and `roundQuotient_near` says that it is off by
at most half a unit.
-/

namespace Exemplar

/-- The quotient of two numbers, rounded to the nearest integer and from half-way to the even
one. -/
def roundQuotient (n d : Nat) : Nat :=
  let below := n / d
  let twice := 2 * (n % d)
  if d < twice || (d == twice && below % 2 == 1) then below + 1 else below

/-- **Rounding stays near.**  A rounded quotient is at most half a unit away from the quotient. -/
theorem roundQuotient_near (n d : Nat) (hpositive : 0 < d) :
    2 * n ≤ (2 * roundQuotient n d + 1) * d ∧ 2 * (roundQuotient n d * d) ≤ 2 * n + d := by
  have hsplit := Nat.div_add_mod n d
  have hsmall := Nat.mod_lt n hpositive
  have hshape : d * (n / d) = n / d * d := Nat.mul_comm _ _
  unfold roundQuotient
  simp only
  generalize n / d * d = product at *
  split
  · rename_i hup
    have hbound : d ≤ 2 * (n % d) := by grind
    constructor <;> grind
  · rename_i hdown
    have hbound : 2 * (n % d) ≤ d := by grind
    constructor <;> grind

/-- The quotient of multiples is exact. -/
theorem roundQuotient_mul (k d : Nat) (hpositive : 0 < d) : roundQuotient (k * d) d = k := by
  have hwhole : k * d / d = k := Nat.mul_div_cancel k hpositive
  simp [roundQuotient, hwhole]
  omega

/-- A number of the format. -/
structure Binary64 where
  /-- The integer. -/
  mantissa : Int
  /-- The power of two that it is multiplied by. -/
  exponent : Int
deriving DecidableEq, Repr, Inhabited

namespace Binary64

/-- The number of bits that the integer may have, without the first one. -/
def fractionBits : Int := 52

/-- The smallest power of two. -/
def leastExponent : Int := -1074

/-- The largest power of two. -/
def greatestExponent : Int := 971

/-- The first integer that has too many bits. -/
def mantissaLimit : Nat := 9007199254740992

/-- A ratio divided by a power of two. -/
def scaled (exponent : Int) (n d : Nat) : Nat × Nat :=
  if 0 ≤ exponent then (n, d * Nat.pow 2 exponent.toNat)
  else (n * Nat.pow 2 (-exponent).toNat, d)

/-- The exponent of the largest power of two that is not above a positive ratio. -/
def leadingExponent (n d : Nat) : Int :=
  let guess : Int := (Nat.log2 n : Int) - Nat.log2 d
  let (above, below) := scaled guess n d
  if above < below then guess - 1 else guess

/-- The number of the format that is nearest to a ratio. -/
def nearest? (numerator : Int) (denominator : Nat) : Option Binary64 :=
  let n := numerator.natAbs
  let exponent := max (leadingExponent n denominator - fractionBits) leastExponent
  let (above, below) := scaled exponent n denominator
  let mantissa := roundQuotient above below
  if greatestExponent < exponent || (exponent == greatestExponent && mantissaLimit ≤ mantissa)
  then none
  else some ⟨signed (numerator < 0) mantissa, exponent⟩

/-- The value of a number that is an integer. -/
def toInt? (number : Binary64) : Option Int :=
  if 0 ≤ number.exponent then some (number.mantissa * Nat.pow 2 number.exponent.toNat)
  else
    let unit : Int := Nat.pow 2 (-number.exponent).toNat
    if number.mantissa % unit = 0 then some (number.mantissa / unit) else none

/-- The number of the format that is nearest to a numeral.  Numerals far outside the range of the
format are told by their magnitude alone. -/
def ofNumeral? (numeral : Numeral) : Option Binary64 :=
  if numeral.digits = 0 || numeral.magnitude < -330 then some ⟨0, leastExponent⟩
  else if 310 < numeral.magnitude then none
  else
    let digits := signed numeral.negative numeral.digits
    if 0 ≤ numeral.exponent then nearest? (digits * Nat.pow 10 numeral.exponent.toNat) 1
    else nearest? digits (Nat.pow 10 (-numeral.exponent).toNat)

end Binary64

end Exemplar
