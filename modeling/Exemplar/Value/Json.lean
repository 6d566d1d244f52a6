import Exemplar.Numeral.Whole
import Exemplar.OrderedMap
import Exemplar.Value

/-!
# Values in JSON

`Json.document?` reads what a JSON text writes.  Objects become records, in
which the last of several members of one name counts; numbers with a fraction or an
exponent become floating-point numbers, and the words `NaN` and `Infinity` are read as
such numbers, too.  A text that is no JSON has no document, and neither has one with an
integer that is longer than `Whole.digitLimit`.

Strings are read as code points, because their escapes can write surrogates: a pair of
them stands for one character, and one by itself is kept as it is.  A document in which
that happens has no value; of all other documents `Value.ofJson?` gives the value.

Each reader takes what it reads off the front of a text and gives back the rest.
-/

namespace Exemplar

namespace Json

/-- The text without the blanks in front. -/
def skipBlanks (text : Text) : Text :=
  text.dropWhile fun c => c == ' ' || c == '\t' || c == '\n' || c == '\r'

/-- The text behind a word that it starts with. -/
def behind? (word text : Text) : Option Text :=
  if word.isPrefixOf text then some (text.drop word.length) else none

/-! ## Strings -/

/-- The value of a hexadecimal digit. -/
def hexDigit? (c : Char) : Option Nat :=
  if c.isDigit then some (c.toNat - 48)
  else if 'a' ≤ c && c ≤ 'f' then some (c.toNat - 87)
  else if 'A' ≤ c && c ≤ 'F' then some (c.toNat - 55)
  else none

/-- Read a code of four hexadecimal digits. -/
def readCode : Text → Option (Nat × Text)
  | a :: b :: c :: d :: rest => do
      let digits ← [a, b, c, d].mapM hexDigit?
      return (digits.foldl (fun n digit => 16 * n + digit) 0, rest)
  | _ => none

/-- Read the low surrogate that makes a pair with a high one, if it follows; the result is the
code point of the pair. -/
def readPair (high : Nat) (text : Text) : Option (Nat × Text) := do
  let (low, rest) ← readCode (← behind? ['\\', 'u'] text)
  if Text.isHighSurrogate high && Text.isLowSurrogate low then
    return (Text.pairCode high low, rest)
  else none

/-- Read a code point by its code, or by the codes of a pair of surrogates. -/
def readCodes (text : Text) : Option (Nat × Text) := do
  let (code, rest) ← readCode text
  return (readPair code rest).getD (code, rest)

/-- Characters that a letter behind a backslash stands for. -/
def escapes : List (Char × Char) :=
  [('"', '"'), ('\\', '\\'), ('/', '/'), ('b', '\x08'), ('f', '\x0c'), ('n', '\n'), ('r', '\r'),
    ('t', '\t')]

/-- Read one code point of a string. -/
def readPoint : Text → Option (Nat × Text)
  | '\\' :: 'u' :: rest => readCodes rest
  | '\\' :: c :: rest => (escapes.lookup c).map fun meant => (meant.toNat, rest)
  | c :: rest => if c.toNat < 0x20 then none else some (c.toNat, rest)
  | [] => none

/-- Read a string of at most `limit` code points behind its opening quote. -/
def readString : Nat → Text → Option (List Nat × Text)
  | _, '"' :: rest => some ([], rest)
  | 0, _ => none
  | limit + 1, text => do
      let (code, rest) ← readPoint text
      let (later, rest) ← readString limit rest
      return (code :: later, rest)

/-! ## Numbers -/

/-- Read the digits of a fraction, if there is one. -/
def readFraction : Text → Option (Text × Text)
  | '.' :: rest =>
      let digits := rest.takeWhile Char.isDigit
      if digits.isEmpty then none else some ('.' :: digits, rest.drop digits.length)
  | text => some ([], text)

/-- Read an exponent, if there is one. -/
def readExponent : Text → Option (Text × Text)
  | [] => some ([], [])
  | c :: rest =>
      if c == 'e' || c == 'E' then
        let (negative, body) := splitSign rest
        let digits := body.takeWhile Char.isDigit
        if digits.isEmpty then none
        else some ('e' :: signText negative ++ digits, body.drop digits.length)
      else some ([], c :: rest)

/-- Read a number. -/
def readNumber (text : Text) : Option (Value × Text) := do
  let (negative, body) := Whole.splitMinus text
  let whole := body.takeWhile Char.isDigit
  if whole.isEmpty || (whole.head? == some '0' && whole.length != 1) then none
  else
    let (fraction, rest) ← readFraction (body.drop whole.length)
    let (exponent, rest) ← readExponent rest
    if fraction.isEmpty && exponent.isEmpty then
      if Whole.digitLimit < whole.length then none
      else return (.integer (signed negative (natOfDigits whole)), rest)
    else return (.float (signText negative ++ whole ++ fraction ++ exponent), rest)

/-- Words that stand for values. -/
def words : List (Text × Value) :=
  [("null", .null), ("true", .boolean true), ("false", .boolean false), ("NaN", .float "nan"),
    ("Infinity", .float "inf"), ("-Infinity", .float "-inf")]

/-- Read a word or a number. -/
def readPlain (text : Text) : Option (Value × Text) :=
  match words.find? fun word => word.1.isPrefixOf text with
  | some (word, value) => some (value, text.drop word.length)
  | none => readNumber text

/-! ## Documents -/

/-- What a JSON text writes. -/
inductive Document where
  /-- A value that a word or a number stands for. -/
  | plain (value : Value)
  /-- A string by its code points. -/
  | string (codes : List Nat)
  /-- A list. -/
  | list (items : List Document)
  /-- An object, each name at most once. -/
  | record (members : List (List Nat × Document))
deriving Repr, Inhabited

/-- The object with given members. -/
def Document.ofMembers (members : List (List Nat × Document)) : Document :=
  .record (OrderedMap.ofList members).entries

mutual

/-- The value of a document, if all strings in it are texts. -/
def Document.value? : Document → Option Value
  | .plain value => some value
  | .string codes => (Text.ofCodes? codes).map .string
  | .list items => (itemValues? items).map .list
  | .record members => (memberValues? members).map .record

/-- The values of the items of a list. -/
def itemValues? : List Document → Option (List Value)
  | [] => some []
  | item :: rest => do
      let value ← item.value?
      let later ← itemValues? rest
      return value :: later

/-- The members of an object with their values. -/
def memberValues? : List (List Nat × Document) → Option (List (Value × Value))
  | [] => some []
  | (name, document) :: rest => do
      let key ← Text.ofCodes? name
      let value ← document.value?
      let later ← memberValues? rest
      return (.string key, value) :: later

end

mutual

/-- Read a document; `limit` bounds the number of readers at work in one another. -/
def readDocument : Nat → Text → Option (Document × Text)
  | 0, _ => none
  | limit + 1, text =>
      match skipBlanks text with
      | '"' :: rest => do
          let (content, rest) ← readString rest.length rest
          return (.string content, rest)
      | '[' :: rest => do
          let (items, rest) ← readList limit rest
          return (.list items, rest)
      | '\x7b' :: rest => do
          let (members, rest) ← readRecord limit rest
          return (.ofMembers members, rest)
      | text => do
          let (value, rest) ← readPlain text
          return (.plain value, rest)

/-- Read the items of a list behind its opening bracket. -/
def readList : Nat → Text → Option (List Document × Text)
  | 0, _ => none
  | limit + 1, text =>
      match skipBlanks text with
      | ']' :: rest => some ([], rest)
      | text => readItems limit text

/-- Read items up to the closing bracket, of which there is at least one. -/
def readItems : Nat → Text → Option (List Document × Text)
  | 0, _ => none
  | limit + 1, text => do
      let (item, rest) ← readDocument limit text
      match skipBlanks rest with
      | ',' :: rest => do
          let (later, rest) ← readItems limit rest
          return (item :: later, rest)
      | ']' :: rest => some ([item], rest)
      | _ => none

/-- Read the members of an object behind its opening brace. -/
def readRecord : Nat → Text → Option (List (List Nat × Document) × Text)
  | 0, _ => none
  | limit + 1, text =>
      match skipBlanks text with
      | '\x7d' :: rest => some ([], rest)
      | text => readMembers limit text

/-- Read members up to the closing brace, of which there is at least one. -/
def readMembers : Nat → Text → Option (List (List Nat × Document) × Text)
  | 0, _ => none
  | limit + 1, text => do
      let rest ← behind? ['"'] (skipBlanks text)
      let (name, rest) ← readString rest.length rest
      let rest ← behind? [':'] (skipBlanks rest)
      let (document, rest) ← readDocument limit rest
      match skipBlanks rest with
      | ',' :: rest => do
          let (later, rest) ← readMembers limit rest
          return ((name, document) :: later, rest)
      | '\x7d' :: rest => some ([(name, document)], rest)
      | _ => none

end

/-- The document that a JSON text writes.  Every third reader at work in another one has taken a
character, which bounds their number. -/
def document? (text : Text) : Option Document := do
  let (document, rest) ← readDocument (3 * text.length + 1) text
  if (skipBlanks rest).isEmpty then some document else none

end Json

/-- The value that a JSON text writes. -/
def Value.ofJson? (text : Text) : Option Value :=
  (Json.document? text).bind Json.Document.value?

end Exemplar
