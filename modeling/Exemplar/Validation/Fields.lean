import Exemplar.Validation.Scalar

/-!
# Reading the fields of a form

The values of a form come with names, or as the entries of a record whose keys may be
any values.  A field that is not given has a default; names that the form does not
know, and keys that are no names, are issues in the order in which they stand.
-/

namespace Exemplar

/-! ## Named values -/

/-- Named values, each name at most once. -/
abbrev Fields := List (Text × Value)

/-- The value of a field, if there is one. -/
def Fields.value? (fields : Fields) (name : Text) : Option Value :=
  fields.lookup name

/-- Read the value of a field, or take a default where there is none. -/
def readOr {α β : Type} (name : Text) (value : Option β) (default : α)
    (read : β → Except Cause α) : Checked α :=
  match value with
  | none => .ok default
  | some value => Checked.field name (read value)

/-- The issues of named things of which a form does not know the names. -/
def unknownFields {α : Type} (known : List Text) (fields : List (Text × α)) : List Issue :=
  ((fields.map Prod.fst).filter fun name => !known.contains name).map fun name =>
    ⟨[name], .unknownField⟩

/-! ## Keys with values -/

/-- The values that keys which are texts give to fields. -/
def Fields.ofEntries (entries : List (Value × Value)) : Fields :=
  entries.filterMap fun
    | (.string name, value) => some (name, value)
    | _ => none

/-- The issues of keys that are no texts or that a form does not know. -/
def strayKeys (known : List Text) (entries : List (Value × Value)) : List Issue :=
  entries.filterMap fun
    | (.string name, _) => if known.contains name then none else some ⟨[name], .unknownField⟩
    | (key, _) => some ⟨[key.place], .notName⟩

end Exemplar
