import Exemplar.Text.Basic

/-!
# Kinds of values

A kind is what a model remembers of a single value: one of seven scalar kinds,
an array or an object.  Two scalar kinds, `null` and `undefined`, stand for the
absence of a value and are called nullish.  `ofName?_name` says that the names
of the kinds tell them apart.
-/

namespace Exemplar

/-- The kinds of values that hold no further values. -/
inductive Scalar where
  /-- The value that is explicitly nothing. -/
  | null
  /-- A truth value. -/
  | boolean
  /-- A number of any sort. -/
  | number
  /-- A text or a sequence of bytes. -/
  | string
  /-- Something that can be called. -/
  | function
  /-- A member that is present but carries no value. -/
  | undefined
  /-- A value of which nothing is known. -/
  | unknown
deriving DecidableEq, Repr, Inhabited

/-- The kind of a value. -/
inductive Kind where
  /-- A value without parts. -/
  | scalar (scalar : Scalar)
  /-- A sequence of values. -/
  | array
  /-- A value made of named members. -/
  | object
deriving DecidableEq, Repr, Inhabited

namespace Scalar

/-- The name of a scalar kind. -/
def name : Scalar → Text
  | null => "null"
  | boolean => "boolean"
  | number => "number"
  | string => "string"
  | function => "function"
  | undefined => "undefined"
  | unknown => "unknown"

/-- Whether a value of this kind stands for the absence of a value. -/
def isNullish : Scalar → Bool
  | null | undefined => true
  | _ => false

/-- All scalar kinds. -/
def all : List Scalar :=
  [null, boolean, number, string, function, undefined, unknown]

end Scalar

namespace Kind

/-- The name of a kind. -/
def name : Kind → Text
  | scalar s => s.name
  | array => "array"
  | object => "object"

/-- Whether a value of this kind stands for the absence of a value. -/
def isNullish : Kind → Bool
  | scalar s => s.isNullish
  | _ => false

/-- Whether a value of this kind holds further values. -/
def isContainer : Kind → Bool
  | scalar _ => false
  | _ => true

/-- All kinds. -/
def all : List Kind :=
  Scalar.all.map scalar ++ [array, object]

/-- The kind with a given name. -/
def ofName? (name : Text) : Option Kind :=
  all.find? fun kind => kind.name == name

/-- A kind is found under its name. -/
theorem ofName?_name (kind : Kind) : ofName? kind.name = some kind := by
  rcases kind with s | _ | _
  · cases s <;> decide
  · decide
  · decide

end Kind

end Exemplar
