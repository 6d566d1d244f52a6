import Exemplar.Batch
import Exemplar.Dialect
import Exemplar.Settings

/-!
# What a caller is told when something goes wrong

A `Fault` is a message, and for most faults what caused it.  `Fault.text` shows the
message followed by the text of the cause in parentheses.  A fault of the caller's
own code is passed on with its message alone.  A `Failure` is the way in which a
call ends without a result: in a fault, or because of what it was given.
-/

namespace Exemplar

/-- What a caller is told when something goes wrong. -/
inductive Fault where
  /-- Something of this library went wrong. -/
  | general (message : Text) (cause : Option Fault)
  /-- Something was asked for that does not exist. -/
  | configuration (message : Text) (cause : Option Fault)
  /-- A batch would change a type of an earlier batch. -/
  | redefinition (message : Text) (conflict : Redefinition) (cause : Option Fault)
  /-- The caller's own code failed. -/
  | foreign (message : Text)
deriving Repr, Inhabited

/-- A message followed by the text of a cause. -/
def withCause (message cause : Text) : Text :=
  message ++ " (caused by: " ++ cause ++ ")"

/-- The text of a fault. -/
def Fault.text : Fault → Text
  | general message none => message
  | general message (some cause) => withCause message cause.text
  | configuration message none => message
  | configuration message (some cause) => withCause message cause.text
  | redefinition message _ none => message
  | redefinition message _ (some cause) => withCause message cause.text
  | foreign message => message

/-- The message about a change of a type of an earlier batch. -/
def Redefinition.message (conflict : Redefinition) : Text :=
  "Type " ++ Text.literal conflict.name
    ++ " defined in batch " ++ Text.ofInt conflict.definedIn
    ++ " cannot be modified by batch " ++ Text.ofInt conflict.batch
    ++ ": field " ++ Text.literal conflict.field ++ " would become optional"

/-! ## Failures -/

/-- The fault of asking for an unknown dialect. -/
def Fault.unknownDialect (name : Text) : Fault :=
  .configuration
    ("Unknown dialect: " ++ name ++ ". Available: "
      ++ Text.joined ", " (Dialect.all.map Dialect.name)) none

/-- Why a call gives no result. -/
inductive Failure where
  /-- It ends in a fault. -/
  | fault (fault : Fault)
  /-- It was given a value of a type without parts where it needs examples. -/
  | notIterable (typeName : Text)
  /-- It was given a value where it needs a document. -/
  | strayNode (value : Value)
  /-- It was asked for a field that does not exist. -/
  | missingField (name : Text)
  /-- It was asked for a kind that does not exist. -/
  | unknownKind (name : Text)
  /-- It was asked for a model that was not kept. -/
  | missingModel
  /-- It was given values that are not accepted. -/
  | invalid (report : Report)
  /-- The variable of a part of the settings holds no JSON. -/
  | unreadablePart (part : Text)
  /-- It was asked for the expression of a type that has none. -/
  | endlessType
deriving Repr, Inhabited

/-- What a failure tells the caller. -/
def Failure.message : Failure → Text
  | fault told => told.text
  | notIterable typeName => "'" ++ typeName ++ "' object is not iterable"
  | strayNode value => "Unsupported document node: " ++ value.literal
  | missingField name => Text.literal name
  | unknownKind name => Text.literal name ++ " is not a valid Kind"
  | missingModel => "list index out of range"
  | invalid report => Text.joined "; " (report.issues.map fun issue => issue.cause.message)
  | unreadablePart part =>
      "error parsing value for field \"" ++ part ++ "\" from source \"EnvSettingsSource\""
  | endlessType => "A position without a name contains itself"

/-- The failure of a call that needs settings. -/
def SettingsError.failure : SettingsError → Failure
  | unreadable part => .unreadablePart part
  | invalid report => .invalid report

/-- The failure of a call that adds a batch. -/
def BatchError.failure : BatchError → Failure
  | redefinition conflict => .fault (.redefinition conflict.message conflict none)
  | naming message => .fault (.foreign message)
  | interrupted message => .fault (.foreign message)
  | notIterable typeName => .notIterable typeName

end Exemplar
