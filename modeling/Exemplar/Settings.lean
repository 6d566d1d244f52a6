import Exemplar.Dialect
import Exemplar.Naming
import Exemplar.Validation.Fields
import Exemplar.Value.Json

/-!
# Settings

Settings are the defaults that apply where a call gives no option.  Each of them
can be set by an environment variable; the case of its name does not matter, and of
several variables that differ in case only the latest one counts.  A variable that
is set to nothing counts as well.

Settings are read in two parts, one for inference and one for rendering.  A variable
with the name of a part may hold an object in JSON, whose members win over the
variables of single settings.  What is wrong with values from such objects is
reported for both parts together; a part without an object is reported by itself and
before anything else, the part of inference first.
-/

namespace Exemplar

/-! ## Variables -/

/-- Environment variables in the order in which they were set. -/
abbrev Environment := OrderedMap Text Text

/-- The value of the latest variable with a name, which is compared in lower case. -/
def Environment.variable? (environment : Environment) (name : Text) : Option Text :=
  (environment.entries.reverse.find? fun entry => Text.lowered entry.1 == name).map Prod.snd

/-- The name of a setting among the environment variables starts with this text. -/
def variableStart : Text := "typewriter_"

/-- The value of the latest variable that names a setting. -/
def Environment.setting? (environment : Environment) (name : Text) : Option Text :=
  environment.variable? (variableStart ++ name)

/-- What is given for settings under their names: values, or why there is none. -/
abbrev Givens := List (Text × Except Cause Value)

/-- Named values as they are given for settings. -/
def Givens.ofFields (fields : Fields) : Givens :=
  fields.map fun (name, value) => (name, .ok value)

/-- What is given for a setting, whose name may be spelled in either case; of several spellings the
first one counts. -/
def Givens.spelled? (givens : Givens) (name : Text) : Option (Except Cause Value) :=
  (givens.find? fun given => Text.lowered given.1 == name).map Prod.snd

/-- What there is for a setting: what is given for it, else the text of a variable. -/
def Environment.value? (environment : Environment) (givens : Givens) (name : Text) :
    Option (Except Cause Value) :=
  (givens.spelled? name).or ((environment.setting? name).map fun text => .ok (.string text))

/-- Read a setting, or take its default where there is nothing for it. -/
def readSetting {α : Type} (environment : Environment) (givens : Givens) (name : Text)
    (default : α) (read : Value → Except Cause α) : Checked α :=
  readOr name (environment.value? givens name) default fun given => given.bind read

/-! ## Single settings -/

/-- An identifier. -/
abbrev Identifier := { text : Text // Text.isIdentifier text = true }

/-- The name of a root that nobody names, as an identifier. -/
def standardRootName : Identifier := ⟨defaultRootName, by decide⟩

/-- The identifier that a value stands for. -/
def readIdentifier (value : Value) : Except Cause Identifier := do
  let text ← readText value
  if text.isEmpty then .error .tooShort
  else if proper : Text.isIdentifier text = true then .ok ⟨text, proper⟩
  else .error (.notIdentifier text)

/-- The dialect that a value names exactly. -/
def readDialect (value : Value) : Except Cause Dialect :=
  match (readText value).toOption.bind Dialect.ofName? with
  | some dialect => .ok dialect
  | none => .error .notDialect

/-! ## The two parts -/

/-- Defaults of inference. -/
structure InferenceSettings where
  /-- The name of a root that nothing else names. -/
  rootName : Identifier := standardRootName
  /-- Whether batches must keep the types of earlier batches. -/
  strict : Bool := false
deriving DecidableEq, Repr

/-- Defaults of rendering. -/
structure RenderingSettings where
  /-- The dialect that types are written in. -/
  dialect : Dialect := .typeScript
  /-- The layout. -/
  style : Style := {}
deriving DecidableEq, Repr

/-- All settings. -/
structure Settings where
  /-- Those of inference. -/
  inference : InferenceSettings := {}
  /-- Those of rendering. -/
  rendering : RenderingSettings := {}
deriving DecidableEq, Repr

instance : Inhabited Settings := ⟨{}⟩

/-- Read the settings of inference from what is given and the environment. -/
def InferenceSettings.check (environment : Environment) (givens : Givens) :
    Checked InferenceSettings :=
  let rootName := readSetting environment givens "root_type_name" standardRootName readIdentifier
  let strict := readSetting environment givens "strict" false readBoolean
  (rootName.both strict).map fun (rootName, strict) => { rootName, strict : InferenceSettings }

/-- Read the settings of inference or report what is wrong with them. -/
def InferenceSettings.read (environment : Environment) (given : Fields) :
    Except Report InferenceSettings :=
  (check environment (.ofFields given)).orReport .inferenceSettings

/-- Read the settings of rendering from what is given and the environment. -/
def RenderingSettings.check (environment : Environment) (givens : Givens) :
    Checked RenderingSettings :=
  let dialect := readSetting environment givens "default_dialect" .typeScript readDialect
  let semicolons := readSetting environment givens "semi" false readBoolean
  let width := readSetting environment givens "print_width" standardWidth (readBounded widthLimits)
  let tab := readSetting environment givens "tab_width" standardTab (readBounded tabLimits)
  (dialect.both (semicolons.both (width.both tab))).map
    fun (dialect, semicolons, width, tab) =>
      { dialect, style := { semicolons, width, tab } : RenderingSettings }

/-- Read the settings of rendering or report what is wrong with them. -/
def RenderingSettings.read (environment : Environment) (given : Fields) :
    Except Report RenderingSettings :=
  (check environment (.ofFields given)).orReport .renderingSettings

/-! ## All settings -/

/-- Why settings cannot be read. -/
inductive SettingsError where
  /-- The variable of a part holds no JSON. -/
  | unreadable (part : Text)
  /-- Values are not accepted. -/
  | invalid (report : Report)
deriving DecidableEq, Repr

/-- What the variable of a part holds; `null` is as good as no variable. -/
def Environment.part? (environment : Environment) (part : Text) :
    Except SettingsError (Option Json.Document) :=
  match environment.variable? part with
  | none => .ok none
  | some text =>
      match Json.document? text with
      | none => .error (.unreadable part)
      | some (.plain .null) => .ok none
      | some document => .ok (some document)

/-- What a document gives for a setting.  A string that is no text gives nothing, and of lists and
objects only that they are some is looked at, since no setting has parts. -/
def Json.Document.setting : Json.Document → Except Cause Value
  | .plain value => .ok value
  | .string codes =>
      match Text.ofCodes? codes with
      | some text => .ok (.string text)
      | none => .error .undecodable
  | .list _ => .ok (.list [])
  | .record _ => .ok (.record [])

/-- What the members of an object give for settings; of several spellings of a name the last one
counts, and a name that is no text is that of no setting. -/
def Givens.ofMembers (members : List (List Nat × Json.Document)) : Givens :=
  (OrderedMap.ofList (members.filterMap fun (codes, document) =>
    (Text.ofCodes? codes).map fun name => (Text.lowered name, document.setting))).entries

/-- Read a part of the settings, from what its variable holds if there is one. -/
def readPart {α : Type} (form : Form) (part : Text) (check : Givens → Checked α) :
    Option Json.Document → Except SettingsError (Checked α)
  | none =>
      match check [] with
      | .ok settings => .ok (.ok settings)
      | .error issues => .error (.invalid ⟨form, issues⟩)
  | some (.record members) => .ok ((check (.ofMembers members)).within part)
  | some _ => .ok (Checked.field part (.error (.notForm form)))

/-- Read all settings from the environment. -/
def Settings.read (environment : Environment) : Except SettingsError Settings := do
  let inferencePart ← environment.part? "inference"
  let renderingPart ← environment.part? "rendering"
  let inference ← readPart .inferenceSettings "inference" (InferenceSettings.check environment)
    inferencePart
  let rendering ← readPart .renderingSettings "rendering" (RenderingSettings.check environment)
    renderingPart
  match inference.both rendering with
  | .ok (inference, rendering) => return { inference, rendering }
  | .error issues => .error (.invalid ⟨.settings, issues⟩)

end Exemplar
