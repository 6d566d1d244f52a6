import Exemplar.Model
import Exemplar.Sample

/-!
# Merging samples into a model

A batch is a run of samples that are merged into a model under one naming.
`merge` goes through a sample: it finds the key of the position, merges the parts
of the sample below it, and records at the key what the parts looked like, as a
shape seen there.  `Model.record` stores the first shape seen for a kind as it
stands, and the join of the stored and the new shape afterwards.

In strict mode a batch must not change the shape of a type that an earlier batch
defined; the first change is reported as a `Redefinition`.  Types that the batch
itself has defined may go on changing until it ends.
-/

namespace Exemplar

/-- A change of a type that an earlier batch has defined. -/
structure Redefinition where
  /-- The type that would change. -/
  name : Name
  /-- The batch that defined it. -/
  definedIn : BatchNumber
  /-- The batch that would change it. -/
  batch : BatchNumber
  /-- The first field that would become optional. -/
  field : Text
deriving DecidableEq, Repr

/-- Why a batch cannot be merged. -/
inductive BatchError where
  /-- It changes a type of an earlier batch in strict mode. -/
  | redefinition (conflict : Redefinition)
  /-- The generator of names failed. -/
  | naming (message : Text)
  /-- The examples broke off. -/
  | interrupted (message : Text)
  /-- The examples are a value of a type without parts. -/
  | notIterable (typeName : Text)
deriving DecidableEq, Repr

/-- The terms on which samples are merged. -/
structure Batch where
  /-- The number of the batch. -/
  number : BatchNumber
  /-- How positions get their names. -/
  naming : Naming
  /-- Whether types of earlier batches must keep their shapes. -/
  strict : Bool := false

/-- The key of a position, in a batch. -/
def Batch.keyAt (batch : Batch) (enclosing : List Keypath) (keypath : Keypath) :
    Except BatchError Keypath :=
  (batch.naming.keyAt enclosing keypath).mapError .naming

/-- The name of a position, in a batch. -/
def Batch.nameAt (batch : Batch) (enclosing : List Keypath) (keypath : Keypath) :
    Except BatchError (Option Name) :=
  (batch.naming.nameAt enclosing keypath).mapError .naming

namespace Model

/-- Refuse changes of a type that an earlier batch has defined, if the batch is strict. -/
def checkRedefinition (model : Model) (batch : Batch) (key : Keypath) (changes : List Text) :
    Except BatchError Unit :=
  match changes, model.definingBatch? key with
  | field :: _, some definedIn =>
      if batch.strict && definedIn != batch.number then
        .error (.redefinition ⟨key, definedIn, batch.number, field⟩)
      else .ok ()
  | _, _ => .ok ()

/-- Record that a value of a kind was seen at a key with a shape. -/
def record (model : Model) (batch : Batch) (key : Keypath) (kind : Kind) (seen : Shape) :
    Except BatchError Model :=
  match model.shape? key kind with
  | none => .ok (model.setShape key kind seen)
  | some old => do
      model.checkRedefinition batch key (old.changes seen)
      return model.setShape key kind (old.join seen)

end Model

mutual

/-- Merge a sample found at a keypath, below positions with the `enclosing` keys; the result is
the key under which it is stored and the new model. -/
def merge (batch : Batch) (enclosing : List Keypath) (keypath : Keypath) :
    Sample → Model → Except BatchError (Keypath × Model)
  | .scalar scalar, model => do
      let key ← batch.keyAt enclosing keypath
      return (key, ← model.record batch key (.scalar scalar) .empty)
  | .array items, model => do
      let key ← batch.keyAt enclosing keypath
      let element ← batch.keyAt (key :: enclosing) (elementKeypath key)
      let model ← mergeItems batch (key :: enclosing) (elementKeypath key) items model
      return (key, ← model.record batch key .array (.ofElement element))
  | .object members, model => do
      let name ← batch.nameAt enclosing keypath
      let key := name.getD keypath
      let model := if name.isSome then model.register key batch.number else model
      let (seen, model) ← mergeMembers batch (key :: enclosing) key members .empty model
      return (key, ← model.record batch key .object seen)

/-- Merge samples that are all found at one keypath. -/
def mergeItems (batch : Batch) (enclosing : List Keypath) (keypath : Keypath) :
    List Sample → Model → Except BatchError Model
  | [], model => .ok model
  | item :: rest, model => do
      let (_, model) ← merge batch enclosing keypath item model
      mergeItems batch enclosing keypath rest model

/-- Merge the members of an object and collect the shape they give it. -/
def mergeMembers (batch : Batch) (enclosing : List Keypath) (parent : Keypath) :
    List (Text × Sample) → Shape → Model → Except BatchError (Shape × Model)
  | [], seen, model => .ok (seen, model)
  | (member, sample) :: rest, seen, model => do
      let (child, model) ← merge batch enclosing (childKeypath parent member) sample model
      let seen := seen.insert member { key := child, required := sample.isPresent }
      mergeMembers batch enclosing parent rest seen model

end

end Exemplar
