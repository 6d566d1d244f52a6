import Exemplar.Builder
import Exemplar.Options

/-!
# Sessions

A session holds what calls leave behind: the surroundings, a model under
construction, and models that were kept aside.

A model can be kept as a copy or as it is.  Committing a batch puts a new model in
the place of the current one, so what was kept before does not see the batch.  A
model kept as it is does see later edits of the current model, up to the next
commit.
-/

namespace Exemplar

/-- Options of a batch from two layers of arguments, the second on top of the first. -/
def readAddOptions (options overrides : Arguments) : Call AddOptions := do
  let base ← Call.ofReport (AddOptions.readOver {} options)
  Call.ofReport (AddOptions.readOver base overrides)

/-- A model kept aside. -/
inductive KeptModel where
  /-- The current model as it is, up to the next commit. -/
  | current
  /-- A model of its own. -/
  | own (model : Model)
deriving Repr, Inhabited

/-- What calls leave behind. -/
structure Session where
  /-- What calls look at. -/
  surroundings : Surroundings := {}
  /-- The model under construction. -/
  builder : Builder := {}
  /-- Models kept aside. -/
  kept : List KeptModel := []
deriving Inhabited

namespace Session

/-- The current model. -/
def model (session : Session) : Model :=
  session.builder.model

/-- A kept model as it stands now. -/
def standing (session : Session) : KeptModel → Model
  | .current => session.model
  | .own model => model

/-- The kept model at a place as it stands now.  Places count from zero on, and from minus one
down when they count from the latest one back. -/
def keptModel? (session : Session) : Int → Option Model
  | .ofNat place => session.kept[place]?.map session.standing
  | .negSucc place => session.kept.reverse[place]?.map session.standing

/-- The kept model at a place, or without one the current model. -/
def modelAt (session : Session) : Option Int → Except Failure Model
  | none => .ok session.model
  | some place =>
      match session.keptModel? place with
      | some model => .ok model
      | none => .error .missingModel

/-- Make a call. -/
def call {α : Type} (session : Session) (action : Call α) : Except Failure α × Session :=
  let (result, surroundings) := action.outcome session.surroundings
  (result, { session with surroundings })

/-- The session with other environment variables. -/
def withVariables (session : Session) (assigned : List (Text × Text)) (forget : Bool) : Session :=
  { session with surroundings := session.surroundings.withVariables assigned forget }

/-- Add a batch of examples; the result is the name of its root. -/
def addExamples (session : Session) (options overrides : Arguments)
    (examples : Examples) : Except Failure Name × Session :=
  match session.call (readAddOptions options overrides >>= AddOptions.resolved) with
  | (.error failure, session) => (.error failure, session)
  | (.ok options, session) =>
      match session.builder.addBatch options.naming (options.strict.getD false) examples with
      | (.ok root, builder) =>
          let kept := session.kept.map fun
            | .current => .own session.model
            | .own model => .own model
          (.ok root, { session with builder, kept })
      | (.error error, builder) => (.error error.failure, { session with builder })

/-- Keep the current model aside. -/
def keep (session : Session) (copy : Bool) : Session :=
  { session with kept := session.kept ++ [if copy then .own session.model else .current] }

/-- Edit the current model. -/
def edit (session : Session) (change : Model → Model) : Session :=
  { session with builder := { session.builder with model := change session.model } }

end Session

end Exemplar
