import Exemplar.Layout.Doc
import Exemplar.Value

/-!
# Drafts of documents

A draft is a document as a caller puts it together, in which values may stand
that are no documents.  `Draft.doc` gives the document, or the first such value in
reading order; of an `ifBroken` the broken alternative is read first.
-/

namespace Exemplar

/-- A document that may contain values that are no documents. -/
inductive Draft where
  /-- A value that is no document. -/
  | stray (value : Value)
  /-- A text printed as it stands. -/
  | text (content : Text)
  /-- Drafts one after the other. -/
  | concat (parts : List Draft)
  /-- A draft whose lines are indented one level more. -/
  | indent (body : Draft)
  /-- A draft that is laid out flat or broken. -/
  | group (body : Draft) (marked : Bool)
  /-- A new line where the layout is broken or the line is hard. -/
  | line (flat : Text) (hard : Bool)
  /-- One draft where the layout is broken and another one where it is flat. -/
  | ifBroken (broken flat : Draft)
deriving Inhabited

namespace Draft

/-- Drafts with a separator between neighbours. -/
def joined (separator : Draft) (drafts : List Draft) : Draft :=
  concat (drafts.intersperse separator)

mutual

/-- The document of a draft, or the first value in it that is no document. -/
def doc : Draft → Except Value Doc
  | stray value => .error value
  | text content => .ok (.text content)
  | line flat hard => .ok (.line flat hard)
  | concat parts => do return .concat (← docs parts)
  | indent body => do return .indent (← body.doc)
  | group body marked => do return .group (← body.doc) marked
  | ifBroken broken flat => do
      let broken ← broken.doc
      let flat ← flat.doc
      return .ifBroken broken flat

/-- The documents of several drafts. -/
def docs : List Draft → Except Value (List Doc)
  | [] => .ok []
  | part :: rest => do
      let part ← part.doc
      let rest ← docs rest
      return part :: rest

end

end Draft

end Exemplar
