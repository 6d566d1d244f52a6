import Exemplar.Layout.Style
import Exemplar.Numeral.Binary
import Exemplar.Numeral.Whole
import Exemplar.Validation.Issue
import Exemplar.Value

/-!
# What single values stand for

A value need not be of the type that an option has: texts and numbers can stand for
truth values, texts and whole numbers for integers, byte sequences for texts.

A number that is no integer by itself stands for a truth value by the floating-point
number nearest to it, so that a fraction very close to one stands for `true`.  For an
integer a number stands only by its exact value.
-/

namespace Exemplar

/-! ## Truth values -/

/-- Texts that stand for truth values, in lower case. -/
def booleanWords : List (Text × Bool) :=
  [("0", false), ("off", false), ("f", false), ("false", false), ("n", false), ("no", false),
    ("1", true), ("on", true), ("t", true), ("true", true), ("y", true), ("yes", true)]

/-- The truth value that a text stands for. -/
def readBooleanText (text : Text) : Except Cause Bool :=
  match booleanWords.lookup (text.map Char.toLower) with
  | some value => .ok value
  | none => .error .unreadableBoolean

/-- The first integer that a signed machine word cannot hold. -/
def wordLimit : Int := 9223372036854775808

/-- The truth value that an integer stands for; one that a machine word cannot hold is of no type
that stands for a truth value. -/
def readBooleanInteger (n : Int) : Except Cause Bool :=
  if n = 0 then .ok false
  else if n = 1 then .ok true
  else if -wordLimit ≤ n && n < wordLimit then .error .unreadableBoolean
  else .error .notBoolean

/-- The integer that a floating-point number is, if it lies between the limits of a machine word.
The lower limit itself is out, unlike among integers. -/
def wordOfBinary (number : Binary64) : Except Cause Int :=
  match number.toInt? with
  | none => .error .fractional
  | some n => if -wordLimit < n && n < wordLimit then .ok n else .error .hugeNumber

/-- The truth value that a number stands for, which is rounded to floating point first; a number
that is too large for that has none. -/
def readBooleanBinary (number : Option Binary64) : Except Cause Bool :=
  match number.map wordOfBinary with
  | some (.ok n) => readBooleanInteger n
  | _ => .error .notBoolean

/-- The truth value that a value stands for. -/
def readBoolean : Value → Except Cause Bool
  | .boolean value => .ok value
  | .string text => readBooleanText text
  | .bytes codes =>
      match Text.ofUtf8? codes with
      | some text => readBooleanText text
      | none => .error .unreadableBoolean
  | .integer n => readBooleanInteger n
  | .float text => readBooleanBinary ((Numeral.ofText? text).bind Binary64.ofNumeral?)
  | .decimal (.finite numeral) => readBooleanBinary (Binary64.ofNumeral? numeral)
  | .fraction n d => readBooleanBinary (Binary64.nearest? n d)
  | _ => .error .notBoolean

/-! ## Integers -/

/-- The integer that a text stands for. -/
def readIntegerText (text : Text) : Except Cause Int :=
  match readWhole text with
  | .ok n => .ok n
  | .error .unreadable => .error .unreadableInteger
  | .error .oversized => .error .hugeNumber

/-- The integer that a value stands for. -/
def readInteger : Value → Except Cause Int
  | .integer n => .ok n
  | .boolean value => .ok (if value then 1 else 0)
  | .string text => readIntegerText text
  | .bytes codes =>
      match Text.ofUtf8? codes with
      | some text => readIntegerText text
      | none => .error .unreadableInteger
  | .float text =>
      match (Numeral.ofText? text).bind Binary64.ofNumeral? with
      | some number => wordOfBinary number
      | none => .error .notFinite
  | .decimal (.finite numeral) =>
      match numeral.toInt? with
      | some n => .ok n
      | none => .error .fractional
  | .decimal _ => .error .notFinite
  | .fraction n 1 => .ok n
  | .fraction _ _ => .error .fractional
  | _ => .error .notInteger

/-- The number within limits that a value stands for. -/
def readBounded (limits : Nat × Nat) (value : Value) : Except Cause (Bounded limits) := do
  let n ← readInteger value
  if low : n < limits.1 then .error (.below limits.1)
  else if high : limits.2 < n then .error (.above limits.2)
  else .ok ⟨n.toNat, by omega⟩

/-! ## Texts -/

/-- The text that bytes stand for. -/
def readUtf8 (codes : List UInt8) : Except Cause Text :=
  match Text.ofUtf8? codes with
  | some text => .ok text
  | none => .error .undecodable

/-- The text that a value stands for. -/
def readText : Value → Except Cause Text
  | .string text => .ok text
  | .bytes codes => readUtf8 codes
  | .foreign form =>
      match form.bytes? with
      | some codes => readUtf8 codes
      | none => .error .notText
  | _ => .error .notText

/-- Read a value where there may be nothing. -/
def readOptional {α : Type} (read : Value → Except Cause α) : Value → Except Cause (Option α)
  | .null => .ok none
  | value => some <$> read value

end Exemplar
