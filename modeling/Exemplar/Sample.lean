import Exemplar.Kind

/-!
# Samples

A sample is an example value as far as inference looks at it: scalars by their
kind alone, arrays by their items, objects by their members in order.  The same
member name may stand more than once; every occurrence is looked at, and the
last one says whether the member is present.
-/

namespace Exemplar

/-- An example value with all detail dropped that leaves no trace in a model. -/
inductive Sample where
  /-- A value without parts. -/
  | scalar (kind : Scalar)
  /-- A sequence of samples. -/
  | array (items : List Sample)
  /-- Named members in order. -/
  | object (members : List (Text × Sample))
deriving Repr, Inhabited

namespace Sample

/-- The kind of a sample. -/
def kind : Sample → Kind
  | scalar s => .scalar s
  | array _ => .array
  | object _ => .object

/-- Whether a member with this value carries one at all. -/
def isPresent : Sample → Bool
  | scalar .undefined => false
  | _ => true

end Sample

end Exemplar
