import Exemplar.Text.Casing
import Exemplar.Text.Identifier
import Exemplar.Text.Quoted

/-!
# Dialects

The two languages that types are written in, with the names by which they are
asked for.  Both write the fields of an object type under keys, and `fieldKey`
quotes a key that is no plain name.
-/

namespace Exemplar

/-- A language in which types are written. -/
inductive Dialect where
  /-- TypeScript type aliases. -/
  | typeScript
  /-- Validators of the `prop-types` package. -/
  | propTypes
deriving DecidableEq, Repr, Inhabited

namespace Dialect

/-- The name of a dialect. -/
def name : Dialect → Text
  | typeScript => "typescript"
  | propTypes => "prop_types"

/-- All dialects. -/
def all : List Dialect :=
  [typeScript, propTypes]

/-- The dialect with exactly this name. -/
def ofName? (name : Text) : Option Dialect :=
  all.find? fun dialect => dialect.name == name

/-- The names and short forms by which a dialect can be asked for, in lower case. -/
def aliases : List (Text × Dialect) :=
  [("typescript", typeScript), ("ts", typeScript), ("prop_types", propTypes),
    ("proptypes", propTypes), ("prop-types", propTypes)]

/-- The dialect that is asked for by a name or a short form, in any mixture of cases. -/
def ofAlias? (text : Text) : Option Dialect :=
  aliases.lookup (Text.lowered text)

/-- A dialect is found under its own name. -/
theorem ofName?_name (dialect : Dialect) : ofName? dialect.name = some dialect := by
  cases dialect <;> decide

/-- Every name of a dialect is also one of its aliases. -/
theorem ofAlias?_name (dialect : Dialect) : ofAlias? dialect.name = some dialect := by
  cases dialect <;> decide

end Dialect

/-- The key of a field in generated code. -/
def fieldKey (name : Text) : Text :=
  if Text.isPlainKey name then name else Text.quotedKey name

end Exemplar
