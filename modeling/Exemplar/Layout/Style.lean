import Exemplar.Text.Basic

/-!
# Layout styles

How generated code is laid out: whether statements end in a semicolon, the
number of columns a line may take, and the number of spaces of one indentation
level, each of the numbers within its limits.
-/

namespace Exemplar

/-- The smallest and the largest number of columns of a line. -/
def widthLimits : Nat × Nat := (20, 400)

/-- The smallest and the largest number of spaces of an indentation level. -/
def tabLimits : Nat × Nat := (1, 8)

/-- A number within limits. -/
abbrev Bounded (limits : Nat × Nat) := { n : Nat // limits.1 ≤ n ∧ n ≤ limits.2 }

/-- The number of columns of a line unless another one is given. -/
def standardWidth : Bounded widthLimits := ⟨80, by decide⟩

/-- The number of spaces of an indentation level unless another one is given. -/
def standardTab : Bounded tabLimits := ⟨2, by decide⟩

/-- How generated code is laid out. -/
structure Style where
  /-- Whether statements end in a semicolon. -/
  semicolons : Bool := false
  /-- The number of columns of a line. -/
  width : Bounded widthLimits := standardWidth
  /-- The number of spaces of an indentation level. -/
  tab : Bounded tabLimits := standardTab
deriving DecidableEq, Repr

instance : Inhabited Style := ⟨{}⟩

/-- What a statement ends in. -/
def Style.terminator (style : Style) : Text :=
  if style.semicolons then ";" else ""

end Exemplar
