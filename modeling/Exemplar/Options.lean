import Exemplar.Call
import Exemplar.Render

/-!
# Options of single calls

Three groups of options: for a batch of examples, for the layout of generated
code, and for generated code as a whole.  A layout option that is not given comes
from the settings, so reading layout options looks at the settings unless all of
them are given; if the settings cannot be read, that is what is reported, whatever
else is wrong.  Options of a batch look at the settings only when they are
`resolved`.
-/

namespace Exemplar

/-- What a caller gives for an option. -/
inductive Argument where
  /-- A value. -/
  | value (value : Value)
  /-- A generator of names, or none. -/
  | generator (generator : Option Generator)

/-- What a caller gives for named options, each name at most once. -/
abbrev Arguments := List (Text × Argument)

/-- What is given for an option, if anything is. -/
def Arguments.value? (arguments : Arguments) (name : Text) : Option Argument :=
  arguments.lookup name

/-- Read an option that stands for a plain value; where it is not given, take a default. -/
def Arguments.read {α : Type} (arguments : Arguments) (name : Text) (default : α)
    (wrong : Cause) (read : Value → Except Cause α) : Checked α :=
  match arguments.value? name with
  | none => .ok default
  | some (.value value) => Checked.field name (read value)
  | some (.generator _) => Checked.field name (.error wrong)

/-! ## Layout options -/

namespace Style

/-- The names of the layout options. -/
def fieldNames : List Text := ["semi", "print_width", "tab_width"]

/-- Read layout options, those not given from another style. -/
def readOver (default : Style) (given : Fields) : Checked Style :=
  let semicolons := readOr "semi" (given.value? "semi") default.semicolons readBoolean
  let width :=
    readOr "print_width" (given.value? "print_width") default.width (readBounded widthLimits)
  let tab := readOr "tab_width" (given.value? "tab_width") default.tab (readBounded tabLimits)
  (semicolons.both (width.both tab)).map fun (semicolons, width, tab) =>
    { semicolons, width, tab : Style }

/-- The style of the settings, which is not looked at when every layout option is given. -/
def fallback (given : Fields) : Call Style :=
  if fieldNames.all fun name => (given.value? name).isSome then pure {}
  else do
    let settings ← Call.settings
    return settings.rendering.style

/-- Read layout options and say what is wrong with them; `strays` is what is wrong with other
fields. -/
def check (given : Fields) (strays : List Issue) : Call (Checked Style) := do
  let default ← fallback given
  return (readOver default given).withIssues strays

/-- Read layout options. -/
def read (given : Fields) : Call Style := do
  let checked ← check given (unknownFields fieldNames given)
  Call.ofReport (checked.orReport .formatOptions)

end Style

/-! ## Options of generated code -/

namespace RenderOptions

/-- The names of the options of generated code. -/
def fieldNames : List Text := ["inlined", "root", "format"]

/-- Read the layout among the options of generated code. -/
def checkStyle : Option Argument → Call (Checked Style)
  | none => do
      let style ← Style.read []
      return .ok style
  | some (.value (.record entries)) | some (.value (.mapping entries)) => do
      let checked ← Style.check (Fields.ofEntries entries) (strayKeys Style.fieldNames entries)
      return checked.within "format"
  | some _ => pure (Checked.field "format" (.error (.notForm .formatOptions)))

/-- Read options of generated code. -/
def read (arguments : Arguments) : Call RenderOptions := do
  let style ← checkStyle (arguments.value? "format")
  let inlined := arguments.read "inlined" false .notBoolean readBoolean
  let root := arguments.read "root" none .notText (readOptional readText)
  let checked := ((inlined.both (root.both style)).map fun (inlined, root, style) =>
    { inlined, root, style : RenderOptions }).withIssues (unknownFields fieldNames arguments)
  Call.ofReport (checked.orReport .renderOptions)

end RenderOptions

/-! ## Options of a batch -/

/-- Options of a batch of examples. -/
structure AddOptions where
  /-- Names for single keypaths. -/
  given : OrderedMap Keypath Name := .empty
  /-- What names all other positions. -/
  generator : Option Generator := some .standard
  /-- The name of the root when nothing else names it. -/
  root : Option Name := none
  /-- Whether types of earlier batches must keep their shapes. -/
  strict : Option Bool := none

namespace AddOptions

/-- The names of the options of a batch. -/
def fieldNames : List Text := ["named_keypaths", "type_name_generator", "root_type_name", "strict"]

/-- Read one name for a keypath. -/
def checkName (entry : Value × Value) : Checked (Keypath × Name) :=
  let key := entry.1.place
  let keypath := ((Checked.field "[key]" (readText entry.1)).within key)
  let name := Checked.field key (readText entry.2)
  keypath.both name

/-- Read names for several keypaths. -/
def checkNames : List (Value × Value) → Checked (List (Keypath × Name))
  | [] => .ok []
  | entry :: rest =>
      ((checkName entry).both (checkNames rest)).map fun (name, names) => name :: names

/-- Read the names for single keypaths. -/
def readGiven (default : OrderedMap Keypath Name) :
    Option Argument → Checked (OrderedMap Keypath Name)
  | none => .ok default
  | some (.value (.record entries)) | some (.value (.mapping entries)) =>
      ((checkNames entries).map OrderedMap.ofList).within "named_keypaths"
  | some _ => Checked.field "named_keypaths" (.error .notMapping)

/-- Read the generator of names.  A bare function is taken as one that proposes nothing. -/
def readGenerator (default : Option Generator) : Option Argument → Checked (Option Generator)
  | none => .ok default
  | some (.generator generator) => .ok generator
  | some (.value .null) => .ok none
  | some (.value (.function _)) => .ok (some (.custom fun _ => .ok none))
  | some _ => Checked.field "type_name_generator" (.error .notCallable)

/-- Read options of a batch, those not given from other options. -/
def readOver (default : AddOptions) (arguments : Arguments) : Except Report AddOptions :=
  let given := readGiven default.given (arguments.value? "named_keypaths")
  let generator := readGenerator default.generator (arguments.value? "type_name_generator")
  let root := arguments.read "root_type_name" default.root .notText (readOptional readText)
  let strict := arguments.read "strict" default.strict .notBoolean (readOptional readBoolean)
  (((given.both (generator.both (root.both strict))).map
    fun (given, generator, root, strict) =>
      { given, generator, root, strict : AddOptions }).withIssues
    (unknownFields fieldNames arguments)).orReport .addOptions

/-- Options of a batch with the name of the root and the strictness of the settings where
they have none of their own. -/
def resolved (options : AddOptions) : Call AddOptions := do
  let settings ← Call.settings
  return { options with
    root := some ((properName options.root).getD settings.inference.rootName.1)
    strict := some (options.strict.getD settings.inference.strict) }

/-- How a batch with these options names positions. -/
def naming (options : AddOptions) : Naming where
  given := options.given
  generator := options.generator
  root := options.root

end AddOptions

end Exemplar
