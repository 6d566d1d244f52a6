import Exemplar.Kind
import Exemplar.Shape

/-!
# Models

A model is what has been learnt from examples.  For every key it holds the kinds
of the values seen there, and for every kind a shape.  Beside the shapes it knows
which keys are names of types and in which batch each of them was defined, and the
names of its roots, the latest one last.

All of this keeps the order in which it was learnt, because generated code shows
that order.  `Model.same` compares models without regard to it.  What the three
ways to change a model do to what can be asked of it is stated in
`shape?_setShape`, `definingBatch?_register` and `getLast?_roots_addRoot`.
-/

namespace Exemplar

/-- The number of a batch.  Batches of examples count from one on; a type can also be registered
by hand, under any number. -/
abbrev BatchNumber := Int

/-- What has been learnt from examples. -/
structure Model where
  /-- The shapes at each key by kind. -/
  shapes : OrderedMap Keypath (OrderedMap Kind Shape) := .empty
  /-- The named types with the numbers of their defining batches. -/
  named : OrderedMap Name BatchNumber := .empty
  /-- The names of the roots, the latest one last. -/
  roots : List Name := []
deriving DecidableEq, Repr, Inhabited

namespace Model

/-- The shapes at a key by kind. -/
def kinds (model : Model) (key : Keypath) : OrderedMap Kind Shape :=
  (model.shapes.get? key).getD .empty

/-- Whether anything is known about the values at a key. -/
def has (model : Model) (key : Keypath) : Bool :=
  !(model.kinds key).isEmpty

/-- The shape of the values of one kind at a key. -/
def shape? (model : Model) (key : Keypath) (kind : Kind) : Option Shape :=
  (model.kinds key).get? kind

/-- Whether a key is the name of a type. -/
def isNamed (model : Model) (key : Keypath) : Bool :=
  model.named.contains key

/-- The batch in which a type was defined. -/
def definingBatch? (model : Model) (name : Name) : Option BatchNumber :=
  model.named.get? name

/-- Whether a value that stands for the absence of a value was seen at a key. -/
def isNullable (model : Model) (key : Keypath) : Bool :=
  (model.kinds key).keys.any Kind.isNullish

/-- The names under which types are declared: the named types, the latest first, then
the roots that are no named types. -/
def typeNames (model : Model) : List Name :=
  model.roots.foldl
    (fun names root => if !names.contains root && model.has root then names ++ [root] else names)
    model.named.keys.reverse

/-- The model with another shape at a key. -/
def setShape (model : Model) (key : Keypath) (kind : Kind) (shape : Shape) : Model :=
  { model with shapes := model.shapes.insert key ((model.kinds key).insert kind shape) }

/-- The model with a named type, which stays with the batch that defined it first. -/
def register (model : Model) (name : Name) (batch : BatchNumber) : Model :=
  if model.isNamed name then model else { model with named := model.named.insert name batch }

/-- The model with a name as its latest root. -/
def addRoot (model : Model) (name : Name) : Model :=
  { model with roots := model.roots.erase name ++ [name] }

/-- Whether two models say the same, whatever the order in which they learnt it; only the
order of the roots counts. -/
def same (left right : Model) : Bool :=
  left.shapes.sameBy (OrderedMap.sameBy (OrderedMap.sameBy fun a b => a == b)) right.shapes
    && left.named.sameBy (fun a b => a == b) right.named
    && left.roots == right.roots

/-! ## What a change does to what can be asked -/

/-- A shape is set at one key, next to those of other kinds there. -/
theorem kinds_setShape (model : Model) (key other : Keypath) (kind : Kind) (shape : Shape) :
    (model.setShape key kind shape).kinds other =
      if key = other then (model.kinds key).insert kind shape else model.kinds other := by
  simp only [kinds, setShape, OrderedMap.get?_insert]
  split <;> rfl

/-- A new shape is found under its key and kind, and nothing else changes. -/
theorem shape?_setShape (model : Model) (key other : Keypath) (kind sort : Kind) (shape : Shape) :
    (model.setShape key kind shape).shape? other sort =
      if key = other ∧ kind = sort then some shape else model.shape? other sort := by
  by_cases hhere : key = other
  · subst hhere
    simp [shape?, kinds_setShape, OrderedMap.get?_insert]
  · simp [shape?, kinds_setShape, hhere]

/-- A type is defined once: a name that is known keeps its batch. -/
theorem definingBatch?_register (model : Model) (name other : Name) (batch : BatchNumber) :
    (model.register name batch).definingBatch? other =
      if name = other ∧ model.isNamed name = false then some batch
      else model.definingBatch? other := by
  unfold register
  cases hknown : model.isNamed name with
  | true => simp
  | false => simp [definingBatch?, OrderedMap.get?_insert]

/-- A root that is added is the latest one, whether it was there before or not. -/
theorem getLast?_roots_addRoot (model : Model) (name : Name) :
    (model.addRoot name).roots.getLast? = some name := by
  simp [addRoot]

end Model

end Exemplar
