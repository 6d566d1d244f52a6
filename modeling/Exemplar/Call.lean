import Exemplar.Fault

/-!
# Calls

A call may look at the settings and may fail.  Settings that could be read are kept:
later calls see them even when the environment has changed since
(`settings_of_kept`), until they are forgotten.  Settings that could not be read are
read again by the next call that needs them.
-/

namespace Exemplar

/-- What calls look at beside their arguments. -/
structure Surroundings where
  /-- The environment variables. -/
  environment : Environment := .empty
  /-- The settings that were read last, unless they were forgotten since. -/
  kept : Option Settings := none
deriving Inhabited

/-- The surroundings with other variables; `forget` decides whether kept settings stay in force. -/
def Surroundings.withVariables (surroundings : Surroundings) (assigned : List (Text × Text))
    (forget : Bool) : Surroundings where
  environment := OrderedMap.ofList assigned
  kept := if forget then none else surroundings.kept

/-- A call that may look at the settings and may fail; what it kept stays kept even then. -/
abbrev Call := ExceptT Failure (StateM Surroundings)

namespace Call

/-- The result and the surroundings that a call leaves behind. -/
def outcome {α : Type} (call : Call α) (surroundings : Surroundings) :
    Except Failure α × Surroundings :=
  call.run.run surroundings

/-- The call that gives a result, or reports what is wrong. -/
def ofReport {α : Type} : Except Report α → Call α
  | .ok result => pure result
  | .error report => throw (.invalid report)

/-- The settings as the environment gives them now. -/
def readSettings : Call Settings := do
  let surroundings ← get
  match Settings.read surroundings.environment with
  | .ok settings => return settings
  | .error error => throw error.failure

/-- The settings in force. -/
def settings : Call Settings := do
  let surroundings ← get
  match surroundings.kept with
  | some settings => return settings
  | none =>
      let settings ← readSettings
      set { surroundings with kept := some settings }
      return settings

/-- Kept settings stay in force whatever the environment is. -/
theorem settings_of_kept (environment : Environment) (settings : Settings) :
    Call.settings.outcome ⟨environment, some settings⟩ =
      (.ok settings, ⟨environment, some settings⟩) :=
  rfl

end Call

end Exemplar
