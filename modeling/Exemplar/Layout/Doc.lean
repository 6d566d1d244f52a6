import Exemplar.Text.Basic

/-!
# Layout documents

A document describes a text that can be laid out in several ways.  A `group` is
printed flat, in one line, when that fits, and broken otherwise; the lines
directly inside a broken group start new output lines, indented by the `indent`
nodes around them.  A hard line breaks in any case.  `ifBroken` chooses between
two documents by whether the group around it is broken.

A group around a hard line cannot be flat.  `propagate` marks such groups, so
that the printer does not have to look ahead for hard lines.  A hard line in the
flat alternative of an `ifBroken` marks nothing.
-/

namespace Exemplar

/-- A text that can be laid out in several ways. -/
inductive Doc where
  /-- A text printed as it stands. -/
  | text (content : Text)
  /-- Documents one after the other. -/
  | concat (parts : List Doc)
  /-- A document whose lines are indented one level more. -/
  | indent (body : Doc)
  /-- A document that is laid out flat or broken; a marked one is always broken. -/
  | group (body : Doc) (marked : Bool)
  /-- A new line where the layout is broken or the line is hard, and a given text otherwise. -/
  | line (flat : Text) (hard : Bool)
  /-- One document where the layout is broken and another one where it is flat. -/
  | ifBroken (broken flat : Doc)
deriving Repr, Inhabited

namespace Doc

/-- A string literal stands for a document that prints it. -/
instance : Coe String Doc := ⟨fun literal => .text literal.toList⟩

/-- A line that is a space when flat. -/
def spaceLine : Doc := line " " false

/-- A line that is nothing when flat. -/
def softLine : Doc := line [] false

/-- A line that always breaks. -/
def hardLine : Doc := line [] true

/-- A group of several documents. -/
def groupOf (parts : List Doc) : Doc :=
  group (concat parts) false

/-- Several documents, indented. -/
def indentOf (parts : List Doc) : Doc :=
  indent (concat parts)

/-- Documents with a separator between neighbours. -/
def joined (separator : Doc) (docs : List Doc) : Doc :=
  concat (docs.intersperse separator)

mutual

/-- Mark every group that contains a hard line; the second part of the result says whether the
whole document does. -/
def propagate : Doc → Doc × Bool
  | text content => (text content, false)
  | line flat hard => (line flat hard, hard)
  | concat parts =>
      let (parts, hard) := propagateAll parts
      (concat parts, hard)
  | indent body =>
      let (body, hard) := propagate body
      (indent body, hard)
  | group body marked =>
      let (body, hard) := propagate body
      (group body (marked || hard), hard)
  | ifBroken broken flat =>
      let (broken, hard) := propagate broken
      (ifBroken broken (propagate flat).1, hard)

/-- Mark the groups of several documents. -/
def propagateAll : List Doc → List Doc × Bool
  | [] => ([], false)
  | part :: rest =>
      let (part, hard) := propagate part
      let (rest, later) := propagateAll rest
      (part :: rest, hard || later)

end

mutual

/-- The number of nodes of a document. -/
def size : Doc → Nat
  | text _ => 1
  | line _ _ => 1
  | concat parts => sizeAll parts + 1
  | indent body => size body + 1
  | group body _ => size body + 1
  | ifBroken broken flat => size broken + size flat + 1

/-- The number of nodes of several documents. -/
def sizeAll : List Doc → Nat
  | [] => 0
  | part :: rest => size part + sizeAll rest

end

end Doc

end Exemplar
