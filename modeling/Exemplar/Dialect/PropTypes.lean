import Exemplar.Dialect
import Exemplar.Layout.Doc
import Exemplar.Model.References
import Exemplar.TypeExpr

/-!
# Validators of prop-types

Types as validators that check values when a program runs.  A validator lets the
absence of a value pass unless `.isRequired` follows it, so `null` and `undefined`
are no alternatives of their own: beside other types they only take the
`.isRequired` away from the fields that lead to them.  Where nothing else is left
the validator lists the allowed values.

A validator is a constant, and a constant cannot be read before its declaration
has run; `declarationOrder` therefore puts every type behind the types that its
validator mentions.  Types that mention each other keep the order in which the
search meets them.
-/

namespace Exemplar.PropTypes

/-- The validator of values without parts. -/
def scalarText : Scalar → Text
  | .null => "PropTypes.oneOf([null])"
  | .boolean => "PropTypes.bool"
  | .number => "PropTypes.number"
  | .string => "PropTypes.string"
  | .function => "PropTypes.func"
  | .undefined => "PropTypes.oneOf([undefined])"
  | .unknown => "PropTypes.any"

/-- The validator that admits exactly the values with given names. -/
def valuesDoc (names : List Text) : Doc :=
  .concat ["PropTypes.oneOf([", .text (Text.joined ", " names), "])"]

/-- The validator of several types. -/
def choiceDoc (alternatives : List Doc) : Doc :=
  .groupOf
    ["PropTypes.oneOfType([",
      .indentOf [.softLine, .joined (.concat [",", .spaceLine]) alternatives],
      .ifBroken "," "", .softLine, "])"]

/-- The validator of a union: of its alternatives that are types of values, or of the values
themselves when there is none. -/
def unionDoc (nullish : List Text) (alternatives : List Doc) : Doc :=
  match alternatives with
  | [] => valuesDoc nullish
  | [alternative] => alternative
  | alternatives => choiceDoc alternatives

/-- The validator of arrays of a type. -/
def arrayDoc (element : Doc) : Doc :=
  .groupOf ["PropTypes.arrayOf(", .indentOf [.softLine, element], .softLine, ")"]

/-- A field of an object with its validator. -/
def fieldDoc (field : Field) (value : Doc) : Doc :=
  .concat [.text (fieldKey field.name), ": ", value,
    .text (if field.required && !field.nullable then ".isRequired" else "")]

/-- The validator of objects with given fields. -/
def objectDoc (fields : List Doc) : Doc :=
  if fields.isEmpty then "PropTypes.shape(\x7b\x7d)"
  else .concat
    ["PropTypes.shape(",
      .groupOf
        ["\x7b", .indentOf [.spaceLine, .joined (.concat [",", .spaceLine]) fields],
          .ifBroken "," "", .spaceLine, "\x7d"],
      ")"]

/-- The names of the values that the nullish alternatives of a union admit. -/
def nullishNames : List TypeExpr → List Text
  | [] => []
  | .scalar kind :: rest =>
      if kind.isNullish then kind.name :: nullishNames rest else nullishNames rest
  | _ :: rest => nullishNames rest

mutual

/-- A type expression as a document. -/
def doc : TypeExpr → Doc
  | .reference name => .text name
  | .scalar kind => .text (scalarText kind)
  | .anyArray => "PropTypes.array"
  | .array element => arrayDoc (doc element)
  | .object fields => objectDoc (fieldDocs fields)
  | .union alternatives => unionDoc (nullishNames alternatives) (choiceDocs alternatives)

/-- The alternatives of a union that are types of values, as documents. -/
def choiceDocs : List TypeExpr → List Doc
  | [] => []
  | expr :: rest => if expr.isNullish then choiceDocs rest else doc expr :: choiceDocs rest

/-- The fields of an object type as documents. -/
def fieldDocs : List (Field × TypeExpr) → List Doc
  | [] => []
  | (field, value) :: rest => fieldDoc field (doc value) :: fieldDocs rest

end

/-- Each field is written by itself. -/
theorem fieldDocs_eq_map (fields : List (Field × TypeExpr)) :
    fieldDocs fields = fields.map fun field => fieldDoc field.1 (doc field.2) := by
  induction fields with
  | nil => rfl
  | cons field rest ih => rw [fieldDocs, ih, List.map_cons]

/-- Of the alternatives those that are types of values are written. -/
theorem choiceDocs_eq_map (exprs : List TypeExpr) :
    choiceDocs exprs = (exprs.filter fun expr => !expr.isNullish).map doc := by
  induction exprs with
  | nil => rfl
  | cons expr rest ih =>
      rw [choiceDocs, List.filter_cons]
      cases expr.isNullish <;> simp [ih]

/-- The declaration of a validator. -/
def declaration (name : Name) (body : Doc) : Doc :=
  .concat ["const ", .text name, " = ", body]

/-- What stands before the declarations. -/
def preamble : List Doc :=
  ["import PropTypes from \"prop-types\""]

/-! ## The order of declarations -/

/-- The state of a walk along references: the names entered and the names left, in order. -/
structure Walk where
  /-- The names entered so far. -/
  entered : List Name := []
  /-- The names left so far; a name is left after all names that it mentions. -/
  left : List Name := []

/-- Enter a name, go on to the names it mentions, and leave it. -/
def visit (model : Model) (declared : List Name) : Nat → Walk → Name → Walk
  | 0, walk, _ => walk
  | fuel + 1, walk, name =>
      if walk.entered.contains name then walk
      else
        let mentions := (model.references name).filter declared.contains
        let inner := mentions.foldl (visit model declared fuel)
          { walk with entered := name :: walk.entered }
        { inner with left := inner.left ++ [name] }

/-- Names in such an order that each stands behind the names that it mentions. -/
def dependenciesFirst (model : Model) (declared : List Name) : List Name :=
  (declared.foldl (visit model declared (declared.length + 1)) {}).left

end Exemplar.PropTypes
