import Exemplar.Numeral

/-!
# Decimal numbers

A decimal number is a numeral, an infinity, or the outcome of an operation that has
none.  Its standard text is `Decimal.text`, and `Decimal.ofText?` reads that text and
others, in letters of either case.
-/

namespace Exemplar

/-- A decimal number. -/
inductive Decimal where
  /-- A number with digits. -/
  | finite (numeral : Numeral)
  /-- One of the two infinities. -/
  | infinite (negative : Bool)
  /-- No number; it may be one that no operation accepts, and it may carry a code. -/
  | notNumber (negative signalling : Bool) (code : Nat)
deriving DecidableEq, Repr, Inhabited

namespace Decimal

/-- The code that a text writes; none at all stands for zero. -/
def codeOf? (text : Text) : Option Nat :=
  if text.all Char.isDigit then some (natOfDigits text) else none

/-- The decimal number that a text writes, if it does. -/
def ofText? (text : Text) : Option Decimal :=
  let (negative, body) := splitSign text
  match body.map Char.toLower with
  | ['i', 'n', 'f'] | ['i', 'n', 'f', 'i', 'n', 'i', 't', 'y'] => some (.infinite negative)
  | 'n' :: 'a' :: 'n' :: code => (codeOf? code).map (.notNumber negative false)
  | 's' :: 'n' :: 'a' :: 'n' :: code => (codeOf? code).map (.notNumber negative true)
  | _ => (Numeral.ofText? text).map .finite

/-- The standard text of a decimal number; a code of zero is not written. -/
def text : Decimal → Text
  | finite numeral => numeral.text
  | infinite negative => signText negative ++ "Infinity"
  | notNumber negative signalling code =>
      signText negative ++ (if signalling then "sNaN" else "NaN")
        ++ (if code = 0 then [] else Text.ofNat code)

/-- Whether a decimal number is zero. -/
def isZero : Decimal → Bool
  | finite numeral => numeral.digits == 0
  | _ => false

end Decimal

end Exemplar
