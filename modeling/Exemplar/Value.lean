import Exemplar.Decimal
import Exemplar.Sample
import Exemplar.Text.Quoted

/-!
# Example values

A `Value` is an example as a caller hands it in.  Besides the values that a data
file can hold there are further numbers, byte sequences, sets, functions and
other objects, because examples may be live data.  Of an object that is no data only
what it answers is known, its `ForeignForm`.

Texts are sequences of characters.  Code points with a surrogate by itself among them
are no text and no value either: there would be no name for a member with such a key.

Three views of a value matter.  `sample` is what inference sees: member names
are spelled out as texts, and the elements of a set, which have no order of
their own, are taken in the order of their literals.  `literal` is the text by
which messages show a value inside others, and `display` the text that it has by
itself and as a member name; the two differ on texts, which `display` leaves without
quotes, and on some numbers, objects and read-only views.  `place` is the text of a key
on the way to a value.  `kind_sample` says that the sample has the kind of the value.
-/

namespace Exemplar

mutual

/-- An example value. -/
inductive Value where
  /-- The value that is explicitly nothing. -/
  | null
  /-- The marker for a member that is present but carries no value. -/
  | undefined
  /-- A truth value. -/
  | boolean (value : Bool)
  /-- An integer of any size. -/
  | integer (value : Int)
  /-- A binary floating-point number by a text that it is nearest to. -/
  | float (text : Text)
  /-- A decimal number. -/
  | decimal (number : Decimal)
  /-- A fraction in lowest terms. -/
  | fraction (numerator : Int) (denominator : Nat)
  /-- A complex number by its text. -/
  | complex (text : Text)
  /-- A text. -/
  | string (text : Text)
  /-- A sequence of bytes. -/
  | bytes (codes : List UInt8)
  /-- A list. -/
  | list (items : List Value)
  /-- A list of fixed length. -/
  | tuple (items : List Value)
  /-- A set, its elements in any order. -/
  | set (items : List Value)
  /-- A set that cannot be changed. -/
  | frozenSet (items : List Value)
  /-- Keys with values in order. -/
  | record (entries : List (Value × Value))
  /-- A read-only view of keys with values. -/
  | mapping (entries : List (Value × Value))
  /-- Something that can be called. -/
  | function (form : ForeignForm)
  /-- Anything else. -/
  | foreign (form : ForeignForm)

/-- What shows of an object that is no data: nothing of it is known but what it answers. -/
structure ForeignForm where
  /-- The name of its type. -/
  typeName : Text
  /-- Its text inside messages. -/
  literal : Text
  /-- Its text on its own. -/
  display : Text := literal
  /-- Whether it counts as given, rather than as nothing, zero or empty. -/
  isTruthy : Bool := true
  /-- The values met when going through it, if it has parts. -/
  elements? : Option (List Value) := none
  /-- The bytes that it holds, if it is a sequence of bytes. -/
  bytes? : Option (List UInt8) := none

end

deriving instance Repr, Inhabited for Value, ForeignForm

/-- What shows of an object that can be called. -/
abbrev FunctionForm := ForeignForm

/-! ## Objects -/

namespace ForeignForm

/-- An unnamed function. -/
def closure : FunctionForm where
  typeName := "function"
  literal := "<function <lambda>>"

/-- The function that measures a collection. -/
def builtin : FunctionForm where
  typeName := "builtin_function_or_method"
  literal := "<built-in function len>"

/-- The type of integers, which builds one when called. -/
def constructor : FunctionForm where
  typeName := "type"
  literal := "<class 'int'>"

/-- An object that can be called. -/
def callable : FunctionForm where
  typeName := "Callable"
  literal := "<callable>"

/-- An object without any known structure. -/
def object : ForeignForm where
  typeName := "Opaque"
  literal := "<opaque>"

/-- A calendar date, the second day of 2020. -/
def date : ForeignForm where
  typeName := "datetime.date"
  literal := "datetime.date(2020, 1, 2)"
  display := "2020-01-02"

/-- The integers below three. -/
def range : ForeignForm where
  typeName := "range"
  literal := "range(0, 3)"
  elements? := some [.integer 0, .integer 1, .integer 2]

/-- A byte sequence that can be changed; it holds the letter x. -/
def buffer : ForeignForm where
  typeName := "bytearray"
  literal := "bytearray(b'x')"
  elements? := some [.integer 120]
  bytes? := some [120]

/-- A double-ended queue of one number. -/
def queue : ForeignForm where
  typeName := "collections.deque"
  literal := "deque([1])"
  elements? := some [.integer 1]

/-- A view of the keys of a record. -/
def keyView : ForeignForm where
  typeName := "dict_keys"
  literal := "dict_keys(['a'])"
  elements? := some [.string "a"]

end ForeignForm

namespace Value

/-- The fraction of two integers, in lowest terms. -/
def ofRatio (numerator : Int) (denominator : Nat) : Value :=
  let common := Nat.gcd numerator.natAbs denominator
  .fraction (numerator / common) (denominator / common)

/-- The value of a numeral as a fraction. -/
def ofNumeral (numeral : Numeral) : Value :=
  let digits := signed numeral.negative numeral.digits
  if 0 ≤ numeral.exponent then ofRatio (digits * Nat.pow 10 numeral.exponent.toNat) 1
  else ofRatio digits (Nat.pow 10 (-numeral.exponent).toNat)

/-- The kind of a value. -/
def kind : Value → Kind
  | null => .scalar .null
  | undefined => .scalar .undefined
  | boolean _ => .scalar .boolean
  | integer _ | float _ | decimal _ | fraction _ _ | complex _ => .scalar .number
  | string _ | bytes _ => .scalar .string
  | list _ | tuple _ | set _ | frozenSet _ => .array
  | record _ | mapping _ => .object
  | function _ => .scalar .function
  | foreign _ => .scalar .unknown

/-! ## Literals -/

/-- The text up to the first sign that is not part of an exponent, and the text from there on.
`before` is the character in front of the text. -/
def splitAtSign (before : Char) : Text → Text × Text
  | [] => ([], [])
  | c :: rest =>
      if (c == '+' || c == '-') && !(before == 'e' || before == 'E') then ([], c :: rest)
      else
        let (left, right) := splitAtSign c rest
        (c :: left, right)

/-- The texts of the real and the imaginary part of a complex number; the real part is empty when
only the imaginary one is written. -/
def complexParts : Text → Text × Text
  | [] => ([], [])
  | c :: rest =>
      match splitAtSign c rest with
      | (_, []) => ([], c :: rest)
      | (left, right) => (c :: left, right)

/-- Whether the text of a number denotes zero: none of its digits before the exponent is another
digit. -/
def isZeroText (text : Text) : Bool :=
  let mantissa := text.takeWhile fun c => !(c == 'e' || c == 'E')
  mantissa.any Char.isDigit && mantissa.all fun c => !(c.isDigit && c != '0')

/-- A complex number as messages show it: a sum stands in parentheses, and a real part of zero is
left out unless it has a minus sign. -/
def complexLiteral (text : Text) : Text :=
  let (real, imaginary) := complexParts text
  if real.isEmpty then text
  else if isZeroText real && real.head? != some '-' then
    if imaginary.head? == some '+' then imaginary.tail else imaginary
  else '(' :: text ++ [')']

/-- Whether both parts of a complex number are zero. -/
def isZeroComplex (text : Text) : Bool :=
  let (real, imaginary) := complexParts text
  (real.isEmpty || isZeroText real) && isZeroText imaginary

/-- The written form of a tuple with given items; a single item is followed by a comma. -/
def tupleLiteral : List Text → Text
  | [item] => "(" ++ item ++ ",)"
  | items => "(" ++ Text.joined ", " items ++ ")"

mutual

/-- A value as messages show it. -/
def literal : Value → Text
  | null => "None"
  | undefined => "UNDEFINED"
  | boolean true => "True"
  | boolean false => "False"
  | integer i => Text.ofInt i
  | float text => text
  | decimal number => "Decimal('" ++ number.text ++ "')"
  | fraction n d => "Fraction(" ++ Text.ofInt n ++ ", " ++ Text.ofNat d ++ ")"
  | complex text => complexLiteral text
  | string text => Text.literal text
  | bytes codes => Text.byteLiteral codes
  | list items => "[" ++ Text.joined ", " (literals items) ++ "]"
  | tuple items => tupleLiteral (literals items)
  | set [] => "set()"
  | set items => "\x7b" ++ Text.joined ", " (literals items) ++ "\x7d"
  | frozenSet [] => "frozenset()"
  | frozenSet items => "frozenset(\x7b" ++ Text.joined ", " (literals items) ++ "\x7d)"
  | record entries => "\x7b" ++ Text.joined ", " (entryLiterals entries) ++ "\x7d"
  | mapping entries =>
      "mappingproxy(\x7b" ++ Text.joined ", " (entryLiterals entries) ++ "\x7d)"
  | function form | foreign form => form.literal

/-- Values as messages show them. -/
def literals : List Value → List Text
  | [] => []
  | item :: rest => item.literal :: literals rest

/-- Keys with their values as messages show them. -/
def entryLiterals : List (Value × Value) → List Text
  | [] => []
  | (key, value) :: rest => (key.literal ++ ": " ++ value.literal) :: entryLiterals rest

end

/-- The text of a value on its own, and its name when it is the key of a member. -/
def display : Value → Text
  | string text => text
  | decimal number => number.text
  | fraction n 1 => Text.ofInt n
  | fraction n d => Text.ofInt n ++ "/" ++ Text.ofNat d
  | mapping entries => (record entries).literal
  | function form | foreign form => form.display
  | value => value.literal

/-- The text of a key on the way to a value; a truth value counts as a number there. -/
def place : Value → Text
  | string text => text
  | boolean b => if b then ['1'] else ['0']
  | value => value.literal

/-! ## Samples -/

mutual

/-- What inference sees of a value. -/
def sample : Value → Sample
  | null => .scalar .null
  | undefined => .scalar .undefined
  | boolean _ => .scalar .boolean
  | integer _ | float _ | decimal _ | fraction _ _ | complex _ => .scalar .number
  | string _ | bytes _ => .scalar .string
  | list items | tuple items => .array ((labelledSamples items).map Prod.snd)
  | set items | frozenSet items =>
      .array ((Text.sortBy Prod.fst (labelledSamples items)).map Prod.snd)
  | record entries | mapping entries => .object (memberSamples entries)
  | function _ => .scalar .function
  | foreign _ => .scalar .unknown

/-- Samples of several values, each with the literal that places it in a set. -/
def labelledSamples : List Value → List (Text × Sample)
  | [] => []
  | item :: rest => (item.literal, item.sample) :: labelledSamples rest

/-- Samples of the members of an object. -/
def memberSamples : List (Value × Value) → List (Text × Sample)
  | [] => []
  | (key, value) :: rest => (key.display, value.sample) :: memberSamples rest

end

/-- A value and its sample are of one kind. -/
theorem kind_sample (value : Value) : value.sample.kind = value.kind := by
  cases value <;> rfl

/-! ## Going through a value -/

/-- The name of a value's type. -/
def typeName : Value → Text
  | null => "NoneType"
  | undefined => "_Undefined"
  | boolean _ => "bool"
  | integer _ => "int"
  | float _ => "float"
  | decimal _ => "decimal.Decimal"
  | fraction _ _ => "Fraction"
  | complex _ => "complex"
  | string _ => "str"
  | bytes _ => "bytes"
  | list _ => "list"
  | tuple _ => "tuple"
  | set _ => "set"
  | frozenSet _ => "frozenset"
  | record _ => "dict"
  | mapping _ => "mapping"
  | function form | foreign form => form.typeName

/-- The values met when going through a value, or nothing when it has no parts:
texts give their characters, bytes their codes, records their keys. -/
def elements? : Value → Option (List Value)
  | list items | tuple items | set items | frozenSet items => some items
  | record entries | mapping entries => some (entries.map Prod.fst)
  | string text => some (text.map fun c => .string [c])
  | bytes codes => some (codes.map fun b => .integer b.toNat)
  | function form | foreign form => form.elements?
  | _ => none

/-- The items of a queue are its parts, and a date has none. -/
example : (foreign .queue).elements? = some [.integer 1] ∧ (foreign .date).elements? = none :=
  ⟨rfl, rfl⟩

/-- Whether a value counts as given, rather than as nothing, zero or empty. -/
def isTruthy : Value → Bool
  | null | undefined => false
  | boolean b => b
  | integer i => i != 0
  | float text => !isZeroText text
  | decimal number => !number.isZero
  | complex text => !isZeroComplex text
  | fraction n _ => n != 0
  | string text => !text.isEmpty
  | bytes codes => !codes.isEmpty
  | list items | tuple items | set items | frozenSet items => !items.isEmpty
  | record entries | mapping entries => !entries.isEmpty
  | function form | foreign form => form.isTruthy

end Value

end Exemplar
