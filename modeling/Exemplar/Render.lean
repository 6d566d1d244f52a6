import Exemplar.Dialect.PropTypes
import Exemplar.Dialect.TypeScript
import Exemplar.Layout.Printer

/-!
# Generated code

The text of a model in a dialect: either a program that declares every type, or
one expression in which the types are spelled out.  A model without anything to
declare gives the empty text, and so does an expression for a key of which nothing
is known.

A model in which positions without a name form a cycle has no text; `renderNamed?`
and `renderInlined?` give nothing then.
-/

namespace Exemplar

/-- A type expression in a dialect. -/
def TypeExpr.doc (dialect : Dialect) (style : Style) (expr : TypeExpr) : Doc :=
  match dialect with
  | .typeScript => TypeScript.doc style.terminator expr
  | .propTypes => PropTypes.doc expr

/-- The declaration of a type in a dialect. -/
def Dialect.declaration (dialect : Dialect) (name : Name) (body : Doc) : Doc :=
  match dialect with
  | .typeScript => TypeScript.declaration name body
  | .propTypes => PropTypes.declaration name body

/-- What a program in a dialect starts with. -/
def Dialect.preamble : Dialect → List Doc
  | .typeScript => []
  | .propTypes => PropTypes.preamble

namespace Model

/-- The types that are declared, in the order of `typeNames`. -/
def declaredNames (model : Model) : List Name :=
  model.typeNames.filter model.has

/-- The types that are declared, in the order in which a dialect declares them. -/
def declarationOrder (model : Model) (dialect : Dialect) : List Name :=
  match dialect with
  | .typeScript => model.declaredNames
  | .propTypes => PropTypes.dependenciesFirst model model.declaredNames

/-- The document of the type at a key. -/
def doc? (model : Model) (dialect : Dialect) (style : Style) (inlined : Bool) (key : Keypath) :
    Option Doc :=
  (TypeExpr.doc dialect style) <$> model.expand? inlined key

/-- A type has the document of what it is spelled out as. -/
theorem doc?_of_expand? {model : Model} {inlined : Bool} {key : Keypath} {expr : TypeExpr}
    (hexpr : model.expand? inlined key = some expr) (dialect : Dialect) (style : Style) :
    model.doc? dialect style inlined key = some (expr.doc dialect style) := by
  rw [doc?, hexpr]
  rfl

/-- The declarations of all types. -/
def declarations? (model : Model) (dialect : Dialect) (style : Style) : Option (List Doc) :=
  (model.declarationOrder dialect).mapM fun name =>
    (dialect.declaration name) <$> model.doc? dialect style false name

/-- The program that declares all types. -/
def renderNamed? (model : Model) (dialect : Dialect) (style : Style) : Option Text := do
  let declarations ← model.declarations? dialect style
  if declarations.isEmpty then
    return []
  return Doc.layoutProgram style (dialect.preamble ++ declarations)

/-- A program lays out what the dialect starts with and the declarations, if there are any. -/
theorem renderNamed?_eq {model : Model} {dialect : Dialect} {style : Style}
    {declarations : List Doc}
    (hdeclarations : model.declarations? dialect style = some declarations) :
    model.renderNamed? dialect style = some (Doc.layoutProgram style
      (if declarations = [] then [] else dialect.preamble ++ declarations)) := by
  rw [renderNamed?, hdeclarations]
  cases declarations <;> rfl

/-- The expression of the type at a key; without a key, of the latest root. -/
def renderInlined? (model : Model) (dialect : Dialect) (style : Style) (root : Option Keypath) :
    Option Text :=
  match root.or model.roots.getLast? with
  | none => some []
  | some key =>
      if model.has key then (Doc.layoutExpression style) <$> model.doc? dialect style true key
      else some []

end Model

/-- How a model is written. -/
structure RenderOptions where
  /-- Whether one expression is written rather than declarations. -/
  inlined : Bool := false
  /-- The key whose type is written as an expression; without it, that of the latest root. -/
  root : Option Keypath := none
  /-- The layout. -/
  style : Style := {}
deriving DecidableEq, Repr, Inhabited

/-- The text of a model in a dialect. -/
def Model.render? (model : Model) (dialect : Dialect) (options : RenderOptions) : Option Text :=
  if options.inlined then model.renderInlined? dialect options.style options.root
  else model.renderNamed? dialect options.style

end Exemplar
