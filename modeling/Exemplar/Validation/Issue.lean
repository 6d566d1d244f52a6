import Exemplar.Text.Quoted

/-!
# What is wrong with given values

Values for options and settings arrive under names, grouped into forms.  A value that
stands for nothing suitable has a `Cause`; an `Issue` is a cause with the place where
it arose.  A reading is `Checked`: it has a result, or all the issues of its fields in
the order of the fields.  A `Report` holds issues under the title of their form.
-/

namespace Exemplar

/-! ## Forms -/

/-- A group of named values that are read together. -/
inductive Form where
  /-- Options of a batch. -/
  | addOptions
  /-- Options of the layout. -/
  | formatOptions
  /-- Options of generated code. -/
  | renderOptions
  /-- Settings of inference. -/
  | inferenceSettings
  /-- Settings of rendering. -/
  | renderingSettings
  /-- All settings. -/
  | settings
deriving DecidableEq, Repr, Inhabited

/-- The title under which the issues of a form are reported. -/
def Form.title : Form → Text
  | addOptions => "AddOptions"
  | formatOptions => "FormatOptions"
  | renderOptions => "RenderOptions"
  | inferenceSettings => "InferenceSettings"
  | renderingSettings => "RenderingSettings"
  | settings => "Settings"

/-! ## Causes -/

/-- Why a value is not accepted for a field. -/
inductive Cause where
  /-- The form has no such field. -/
  | unknownField
  /-- The key of the value is no text, so that it names no field. -/
  | notName
  /-- The value is of no type that can stand for a truth value. -/
  | notBoolean
  /-- The value is of such a type but stands for no truth value. -/
  | unreadableBoolean
  /-- The value is of no type that can stand for an integer. -/
  | notInteger
  /-- The text writes no integer. -/
  | unreadableInteger
  /-- The floating-point number is too large, or the text too long, to be taken as an integer. -/
  | hugeNumber
  /-- The number is not whole. -/
  | fractional
  /-- The number is not finite. -/
  | notFinite
  /-- The number is smaller than the least one allowed. -/
  | below (least : Nat)
  /-- The number is larger than the greatest one allowed. -/
  | above (greatest : Nat)
  /-- The value is of no type that can stand for a text. -/
  | notText
  /-- The bytes are no UTF-8, or the code points are no characters. -/
  | undecodable
  /-- The text is empty. -/
  | tooShort
  /-- The text is no identifier. -/
  | notIdentifier (text : Text)
  /-- The text is not the name of a dialect. -/
  | notDialect
  /-- The value cannot be called. -/
  | notCallable
  /-- The value does not hold keys with values. -/
  | notMapping
  /-- The value does not hold the fields of a form. -/
  | notForm (form : Form)
deriving DecidableEq, Repr, Inhabited

namespace Cause

/-- The short name of a cause. -/
def code : Cause → Text
  | unknownField => "extra_forbidden"
  | notName => "invalid_key"
  | notBoolean => "bool_type"
  | unreadableBoolean => "bool_parsing"
  | notInteger => "int_type"
  | unreadableInteger => "int_parsing"
  | hugeNumber => "int_parsing_size"
  | fractional => "int_from_float"
  | notFinite => "finite_number"
  | below _ => "greater_than_equal"
  | above _ => "less_than_equal"
  | notText => "string_type"
  | undecodable => "string_unicode"
  | tooShort => "string_too_short"
  | notIdentifier _ => "value_error"
  | notDialect => "enum"
  | notCallable => "callable_type"
  | notMapping => "dict_type"
  | notForm _ => "model_type"

/-- What a cause tells the caller. -/
def message : Cause → Text
  | unknownField => "Extra inputs are not permitted"
  | notName => "Keys should be strings"
  | notBoolean => "Input should be a valid boolean"
  | unreadableBoolean => "Input should be a valid boolean, unable to interpret input"
  | notInteger => "Input should be a valid integer"
  | unreadableInteger => "Input should be a valid integer, unable to parse string as an integer"
  | hugeNumber => "Unable to parse input string as an integer, exceeded maximum size"
  | fractional => "Input should be a valid integer, got a number with a fractional part"
  | notFinite => "Input should be a finite number"
  | below least => "Input should be greater than or equal to " ++ Text.ofNat least
  | above greatest => "Input should be less than or equal to " ++ Text.ofNat greatest
  | notText => "Input should be a valid string"
  | undecodable => "Input should be a valid string, unable to parse raw data as a unicode string"
  | tooShort => "String should have at least 1 character"
  | notIdentifier text =>
      "Value error, root_type_name must be a valid identifier: " ++ Text.literal text
  | notDialect => "Input should be 'typescript' or 'prop_types'"
  | notCallable => "Input should be callable"
  | notMapping => "Input should be a valid dictionary"
  | notForm form => "Input should be a valid dictionary or instance of " ++ form.title

end Cause

/-- A cause with the place where it arose. -/
structure Issue where
  /-- The names that lead to the value, from the outside in. -/
  path : List Text
  /-- What is wrong with the value. -/
  cause : Cause
deriving DecidableEq, Repr

/-- What a reader makes of named values: a result, or everything that is wrong with them. -/
abbrev Checked (α : Type) := Except (List Issue) α

namespace Checked

/-- The issues of a reading. -/
def issues {α : Type} : Checked α → List Issue
  | .ok _ => []
  | .error issues => issues

/-- A reading with its result changed. -/
def map {α β : Type} (change : α → β) (checked : Checked α) : Checked β :=
  Except.map change checked

/-- Two readings in one, with the issues of both. -/
def both {α β : Type} (left : Checked α) (right : Checked β) : Checked (α × β) :=
  match left, right with
  | .ok a, .ok b => .ok (a, b)
  | left, right => .error (left.issues ++ right.issues)

/-- A reading with one more name in front of every path. -/
def within {α : Type} (name : Text) (checked : Checked α) : Checked α :=
  checked.mapError (·.map fun issue => { issue with path := name :: issue.path })

/-- The reading of a single field. -/
def field {α : Type} (name : Text) (result : Except Cause α) : Checked α :=
  result.mapError fun cause => [⟨[name], cause⟩]

/-- A reading with further issues behind its own. -/
def withIssues {α : Type} (further : List Issue) (checked : Checked α) : Checked α :=
  (checked.both (if further.isEmpty then .ok () else .error further)).map Prod.fst

end Checked

/-! ## Reports -/

/-- Everything that is wrong with the values of a form. -/
structure Report where
  /-- The form. -/
  form : Form
  /-- What is wrong, field by field. -/
  issues : List Issue
deriving DecidableEq, Repr

/-- Take the result of a reading, or report what is wrong. -/
def Checked.orReport {α : Type} (form : Form) (checked : Checked α) : Except Report α :=
  checked.mapError fun issues => ⟨form, issues⟩

end Exemplar
