import Exemplar.Layout.Draft
import Exemplar.Options

/-!
# Requests for text

The calls that write a model in a dialect, or a document that a caller has put
together.  They read the options they are given and take the others from the settings.
`generate` reads all options before it looks at the dialect; so does `render` when it is
given options, but without any it looks at the dialect first.

Two more calls answer only with names: the types that a keypath refers to, and the
order in which the types of a model are declared.  They work with the options of the
settings as well, so settings that cannot be read stop them, too.
-/

namespace Exemplar

/-! ## Models -/

/-- The dialect that a value asks for; a value that counts as nothing asks for the one of the
settings. -/
def requestDialect (requested : Value) : Call Dialect :=
  if requested.isTruthy then
    match Dialect.ofAlias? requested.display with
    | some dialect => pure dialect
    | none => throw (.fault (.unknownDialect requested.display))
  else do
    let settings ← Call.settings
    return settings.rendering.dialect

/-- The dialect that a value asks for, and then the options of a request that has none of its
own. -/
def requestDefaults (requested : Value) : Call (Dialect × RenderOptions) := do
  let dialect ← requestDialect requested
  let options ← RenderOptions.read []
  return (dialect, options)

/-- The kind that a text names. -/
def requestKind (name : Text) : Call Kind :=
  match Kind.ofName? name with
  | some kind => pure kind
  | none => throw (.unknownKind name)

/-- The text of a model with given options. -/
def renderCall (model : Model) (dialect : Dialect) (options : RenderOptions) : Call Text :=
  match model.render? dialect options with
  | some text => pure text
  | none => throw .endlessType

/-- The text of a model in a requested dialect; options that are not given are read after the
dialect is known. -/
def render (model : Model) (requested : Value) (given : Option Arguments) : Call Text :=
  match given with
  | some arguments => do
      let options ← RenderOptions.read arguments
      let dialect ← requestDialect requested
      renderCall model dialect options
  | none => do
      let (dialect, options) ← requestDefaults requested
      renderCall model dialect options

/-- The text of a model in a requested dialect, with layout options on top of the settings. -/
def generate (model : Model) (requested : Value) (arguments : Arguments) (layout : Fields) :
    Call Text := do
  let options ← RenderOptions.read arguments
  let style ← if layout.isEmpty then pure options.style else Style.read layout
  let dialect ← requestDialect requested
  renderCall model dialect { options with style }

/-- The named types that a keypath refers to, whatever the requested dialect is. -/
def listReferences (model : Model) (requested : Value) (keypath : Keypath) : Call (List Name) := do
  let _ ← requestDefaults requested
  return model.references keypath

/-- The named types of a model in the order in which a requested dialect declares them. -/
def listDeclarations (model : Model) (requested : Value) : Call (List Name) := do
  let (dialect, _) ← requestDefaults requested
  return model.declarationOrder dialect

/-! ## Documents -/

/-- The document of a draft. -/
def draftDoc (draft : Draft) : Call Doc :=
  match draft.doc with
  | .ok doc => pure doc
  | .error value => throw (.strayNode value)

/-- How a document is to be printed. -/
inductive Output where
  /-- As it is. -/
  | plain (draft : Draft)
  /-- As an expression. -/
  | expression (draft : Draft)
  /-- As statements of a program. -/
  | program (drafts : List Draft)

/-- Print a document in a given style. -/
def Output.print (style : Style) : Output → Call Text
  | plain draft => do return (← draftDoc draft).layout style
  | expression draft => do return (← draftDoc draft).layoutExpression style
  | program drafts => do
      match Draft.docs drafts with
      | .ok docs => return Doc.layoutProgram style docs
      | .error value => throw (.strayNode value)

/-- Print a document; a program without statements needs no style. -/
def Output.format (output : Output) (given : Option Fields) : Call Text :=
  match given, output with
  | some fields, output => do output.print (← Style.read fields)
  | none, .program [] => pure []
  | none, output => do output.print (← Style.read [])

end Exemplar
