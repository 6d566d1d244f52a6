import Exemplar.Batch
import Exemplar.Model.Similar
import Exemplar.Value

/-!
# Learning from batches of examples

A `Builder` is a model that batches of examples are added to, and the number of
batches that were tried.  A batch is committed as a whole: `addBatch` gives back
the old model when anything fails, but the number of the batch is used up.
`addBatch_error` states this.
-/

namespace Exemplar

/-- The examples of a batch, in the order in which they arrive, and why no more of them do,
if they broke off. -/
structure Examples where
  /-- The examples that arrived. -/
  samples : List Sample
  /-- What went wrong after the last one. -/
  failure : Option BatchError := none

/-- The parts of a value as examples. -/
def Examples.ofValue (value : Value) : Examples :=
  match value.elements? with
  | some items => { samples := items.map Value.sample }
  | none => { samples := [], failure := some (.notIterable value.typeName) }

/-- The same examples, broken off with a message after the last one. -/
def Examples.interrupted (examples : Examples) (message : Text) : Examples :=
  { examples with failure := examples.failure.or (some (.interrupted message)) }

/-- Merge all examples of a batch and make the name of their root the latest root. -/
def Model.commit (model : Model) (batch : Batch) (examples : Examples) :
    Except BatchError (Name × Model) := do
  let root ← batch.keyAt [] []
  let model ← mergeItems batch [] [] examples.samples model
  match examples.failure with
  | some failure => .error failure
  | none => return (root, model.addRoot root)

/-- A model under construction. -/
structure Builder where
  /-- What the committed batches taught. -/
  model : Model := {}
  /-- The number of batches tried so far. -/
  batches : Nat := 0
deriving DecidableEq, Repr, Inhabited

namespace Builder

/-- Add a batch of examples; the result is the name of its root. -/
def addBatch (builder : Builder) (naming : Naming) (strict : Bool) (examples : Examples) :
    Except BatchError Name × Builder :=
  let number := builder.batches + 1
  match builder.model.commit { number, naming, strict } examples with
  | .ok (root, model) => (.ok root, { model, batches := number })
  | .error failure => (.error failure, { builder with batches := number })

/-- **All or nothing.**  A batch that fails leaves the model as it was and uses up its number. -/
theorem addBatch_error {builder after : Builder} {naming : Naming} {strict : Bool}
    {examples : Examples} {failure : BatchError}
    (hfailed : builder.addBatch naming strict examples = (.error failure, after)) :
    after = { builder with batches := builder.batches + 1 } := by
  simp only [addBatch] at hfailed
  split at hfailed
  · simp at hfailed
  · simp only [Prod.mk.injEq] at hfailed
    exact hfailed.2.symm

end Builder

end Exemplar
