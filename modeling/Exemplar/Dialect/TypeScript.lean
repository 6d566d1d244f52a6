import Exemplar.Dialect
import Exemplar.Layout.Doc
import Exemplar.TypeExpr

/-!
# TypeScript

Types as TypeScript writes them: unions with bars, object types in braces with a
question mark after the key of an optional field, arrays as `Array<…>`.  A broken
union has a bar before every alternative and a flat one only between them.  In a
flat object type semicolons separate the fields; in a broken one the fields end
in the terminator of the style, which may be empty.
-/

namespace Exemplar.TypeScript

/-- The type of values without parts. -/
def scalarText : Scalar → Text
  | .null => "null"
  | .boolean => "boolean"
  | .number => "number"
  | .string => "string"
  | .function => "\x7b (): any \x7d"
  | .undefined => "undefined"
  | .unknown => "any"

/-- A union of types. -/
def unionDoc (alternatives : List Doc) : Doc :=
  .groupOf [.indentOf
    [.softLine, .ifBroken "| " "", .joined (.concat [.spaceLine, "| "]) alternatives]]

/-- An array of a type. -/
def arrayDoc (element : Doc) : Doc :=
  .groupOf ["Array<", .indentOf [.softLine, element], .softLine, ">"]

/-- A field of an object type. -/
def fieldDoc (field : Field) (value : Doc) : Doc :=
  .concat [.text (fieldKey field.name), .text (if field.required then "" else "?"), ": ", value]

/-- An object type with given fields; `terminator` ends the fields of a broken one. -/
def objectDoc (terminator : Text) (fields : List Doc) : Doc :=
  if fields.isEmpty then "\x7b\x7d"
  else .groupOf
    ["\x7b",
      .indentOf [.spaceLine,
        .joined (.concat [.ifBroken (.text terminator) ";", .spaceLine]) fields],
      .ifBroken (.text terminator) "", .spaceLine, "\x7d"]

mutual

/-- A type expression as a document. -/
def doc (terminator : Text) : TypeExpr → Doc
  | .reference name => .text name
  | .scalar kind => .text (scalarText kind)
  | .anyArray => "Array<any>"
  | .array element => arrayDoc (doc terminator element)
  | .object fields => objectDoc terminator (fieldDocs terminator fields)
  | .union alternatives => unionDoc (docs terminator alternatives)

/-- Several type expressions as documents. -/
def docs (terminator : Text) : List TypeExpr → List Doc
  | [] => []
  | expr :: rest => doc terminator expr :: docs terminator rest

/-- The fields of an object type as documents. -/
def fieldDocs (terminator : Text) : List (Field × TypeExpr) → List Doc
  | [] => []
  | (field, value) :: rest => fieldDoc field (doc terminator value) :: fieldDocs terminator rest

end

/-- Each expression is written by itself. -/
theorem docs_eq_map (terminator : Text) (exprs : List TypeExpr) :
    docs terminator exprs = exprs.map (doc terminator) := by
  induction exprs with
  | nil => rfl
  | cons expr rest ih => rw [docs, ih, List.map_cons]

/-- Each field is written by itself. -/
theorem fieldDocs_eq_map (terminator : Text) (fields : List (Field × TypeExpr)) :
    fieldDocs terminator fields =
      fields.map fun field => fieldDoc field.1 (doc terminator field.2) := by
  induction fields with
  | nil => rfl
  | cons field rest ih => rw [fieldDocs, ih, List.map_cons]

/-- The declaration of a type. -/
def declaration (name : Name) (body : Doc) : Doc :=
  .concat ["type ", .text name, " = ", body]

end Exemplar.TypeScript
