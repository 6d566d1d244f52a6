import Exemplar.Text.Printable
import Exemplar.Text.Surrogate

/-!
# Quoted texts

Two written forms of a text inside quotes.  `quotedKey` is the double-quoted
form in which generated code writes a field key that is no plain name: it
escapes quotes, backslashes and controls and leaves all else alone.  `literal`
is the form in which messages show a text: in single quotes, or in double
quotes when the text holds a single one and no double one, with every character
escaped that is not printable.
-/

namespace Exemplar.Text

/-- A character inside a double-quoted key. -/
def keyChar (c : Char) : Text :=
  match c with
  | '"' => ['\\', '"']
  | '\\' => ['\\', '\\']
  | '\n' => ['\\', 'n']
  | '\r' => ['\\', 'r']
  | '\t' => ['\\', 't']
  | '\x08' => ['\\', 'b']
  | '\x0c' => ['\\', 'f']
  | c => if c.toNat < 0x20 then ['\\', 'u'] ++ hex 4 c.toNat else [c]

/-- A text as a double-quoted key. -/
def quotedKey (text : Text) : Text :=
  '"' :: text.flatMap keyChar ++ ['"']

/-- The quote that a message puts around a text: a single one, unless the text
holds a single quote and no double quote. -/
def quoteFor (text : Text) : Char :=
  if text.contains '\'' && !text.contains '"' then '"' else '\''

/-- A character that a message cannot show, by its code point in the shortest of three forms. -/
def codeEscape (c : Char) : Text :=
  if c.toNat < 0x100 then ['\\', 'x'] ++ hex 2 c.toNat
  else if c.toNat < 0x10000 then ['\\', 'u'] ++ hex 4 c.toNat
  else ['\\', 'U'] ++ hex 8 c.toNat

/-- A character between quotes of a given kind; `shown` are those written as they are. -/
def literalChar (shown : Char → Bool) (mark c : Char) : Text :=
  if c = mark || c = '\\' then ['\\', c]
  else if c = '\n' then ['\\', 'n']
  else if c = '\r' then ['\\', 'r']
  else if c = '\t' then ['\\', 't']
  else if shown c then [c]
  else codeEscape c

/-- A text between quotes, for a given class of characters that are shown. -/
def literalWith (shown : Char → Bool) (text : Text) : Text :=
  let mark := quoteFor text
  mark :: text.flatMap (literalChar shown mark) ++ [mark]

/-- A text as messages show it. -/
def literal (text : Text) : Text :=
  literalWith isPrintable text

/-- A sequence of bytes as messages show it: a `b`, then the bytes between
quotes, those outside of printable ASCII by their codes. -/
def byteLiteral (bytes : List UInt8) : Text :=
  'b' :: literalWith (fun c => 0x20 ≤ c.toNat && c.toNat < 0x7F)
    (bytes.map fun b => Char.ofNat b.toNat)

/-! ## Bytes as text -/

/-- The code point of a lead byte's bits followed by those of its continuation bytes. -/
def scalarOf (lead : Nat) (tail : List UInt8) : Nat :=
  tail.foldl (fun code b => code * 0x40 + (b.toNat - 0x80)) lead

/-- Whether a byte continues a character. -/
def isContinuation (b : UInt8) : Bool :=
  0x80 ≤ b.toNat && b.toNat < 0xC0

/-- Read bytes as UTF-8; surrogates, overlong forms and stray bytes make them unreadable. -/
def ofUtf8? : List UInt8 → Option Text
  | [] => some []
  | a :: rest =>
      if a.toNat < 0x80 then (ofUtf8? rest).map (Char.ofNat a.toNat :: ·)
      else match rest with
        | b :: rest =>
            if 0xC2 ≤ a.toNat && a.toNat < 0xE0 && isContinuation b then
              (ofUtf8? rest).map (Char.ofNat (scalarOf (a.toNat - 0xC0) [b]) :: ·)
            else match rest with
              | c :: rest =>
                  let code := scalarOf (a.toNat - 0xE0) [b, c]
                  if 0xE0 ≤ a.toNat && a.toNat < 0xF0 && isContinuation b && isContinuation c
                      && 0x800 ≤ code && !isSurrogate code then
                    (ofUtf8? rest).map (Char.ofNat code :: ·)
                  else match rest with
                    | d :: rest =>
                        let code := scalarOf (a.toNat - 0xF0) [b, c, d]
                        if 0xF0 ≤ a.toNat && a.toNat < 0xF5 && isContinuation b
                            && isContinuation c && isContinuation d
                            && 0x10000 ≤ code && code < 0x110000 then
                          (ofUtf8? rest).map (Char.ofNat code :: ·)
                        else none
                    | [] => none
              | [] => none
        | [] => none

end Exemplar.Text
