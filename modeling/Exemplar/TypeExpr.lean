import Exemplar.Model

/-!
# Type expressions

A type expression is what a declaration or an expanded type spells out: the types
at a key, with other named types left as references or expanded in turn.
`Model.expand?` reads it off a model.  In named mode every named type that is
mentioned stays a reference.  In inlined mode a named type is expanded where it
is mentioned, unless its expansion is still open around that place: there its name
has to stand, or the expression would never end.

Positions without a name are expanded in both modes, so a cycle of positions
without a name has no expression at all.  The search for an expression is given
fuel for every path that does not go round such a cycle: between two named types
on a path no key comes twice, and in inlined mode no named type comes twice.
-/

namespace Exemplar

/-- The outside of a field of an object type. -/
structure Field where
  /-- The name of the field. -/
  name : Text
  /-- Whether every object carries the field. -/
  required : Bool
  /-- Whether the field may hold the absence of a value. -/
  nullable : Bool
deriving DecidableEq, Repr, Inhabited

/-- A type as it is spelled out. -/
inductive TypeExpr where
  /-- The name of a declared type. -/
  | reference (name : Name)
  /-- A type of values without parts. -/
  | scalar (kind : Scalar)
  /-- Arrays of whose elements nothing is known. -/
  | anyArray
  /-- Arrays of a type. -/
  | array (element : TypeExpr)
  /-- Objects with fields. -/
  | object (fields : List (Field × TypeExpr))
  /-- Any of several types. -/
  | union (alternatives : List TypeExpr)
deriving Repr, Inhabited

namespace TypeExpr

/-- The type of which nothing is known. -/
def any : TypeExpr := scalar .unknown

/-- Whether values of the type stand for the absence of a value. -/
def isNullish : TypeExpr → Bool
  | scalar kind => kind.isNullish
  | _ => false

/-- The type of values of any of several types: a single one stands for itself, and none at
all leaves the type unknown. -/
def ofAlternatives : List TypeExpr → TypeExpr
  | [] => any
  | [alternative] => alternative
  | alternatives => union alternatives

end TypeExpr

namespace Model

/-- The type of the values at a key to which a field or an array leads. -/
def refer? (model : Model) (inlined : Bool) (opened : List Keypath)
    (expand : Keypath → Option TypeExpr) (key : Keypath) : Option TypeExpr :=
  if model.isNamed key && (!inlined || opened.contains key) then some (.reference key)
  else expand key

/-- The type expression of the values of one kind, given how the parts are spelled out. -/
def kindExpr? (model : Model) (refer : Keypath → Option TypeExpr) (kind : Kind) (shape : Shape) :
    Option TypeExpr :=
  match kind with
  | .scalar s => some (.scalar s)
  | .array =>
      match shape.element? with
      | some element =>
          if model.has element.key then TypeExpr.array <$> refer element.key else some .anyArray
      | none => some .anyArray
  | .object => do
      let fields ← shape.entries.mapM fun (name, ref) => do
        let value ← refer ref.key
        return ({ name, required := ref.required, nullable := model.isNullable ref.key }, value)
      return .object fields

/-- The type expression at a key, while the keys in `opened` are being expanded around it. -/
def expandWithin (model : Model) (inlined : Bool) : Nat → List Keypath → Keypath → Option TypeExpr
  | 0, _, _ => none
  | fuel + 1, opened, key => do
      let refer := model.refer? inlined (key :: opened)
        (model.expandWithin inlined fuel (key :: opened))
      let alternatives ← (model.kinds key).entries.mapM fun (kind, shape) =>
        model.kindExpr? refer kind shape
      return .ofAlternatives alternatives

/-- A number that no path of expansions exceeds. -/
def expansionDepth (model : Model) : Nat :=
  (model.named.size + 1) * (model.shapes.size + 1) + 1

/-- The type expression at a key, if it has one. -/
def expand? (model : Model) (inlined : Bool) (key : Keypath) : Option TypeExpr :=
  model.expandWithin inlined model.expansionDepth [] key

end Model

end Exemplar
