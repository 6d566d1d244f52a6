import Exemplar.Request
import Exemplar.Builder

/-!
# Requests that leave nothing to the settings

A request can give all that the settings would give otherwise, the dialect and every option of
the layout (`ExplicitRequest`).  The text it asks for then shows nothing of the settings.
Whether the caller gets it still depends on whether the call looks at them.

* `generate` takes the layout beside the other options.  Those by themselves fall back on the
  layout of the settings, which is then replaced, so the settings are read for nothing
  (`ExplicitRequest.generate_eq`).
* `render` takes the layout among the other options and looks at no settings
  (`ReadableRequest.render_eq`).

So surroundings in which the settings cannot be had show in the answer of `generate`.  Nothing
else of them does (`generate_explicit_iff`).
-/

namespace Exemplar

/-! ## What a call does to the surroundings -/

namespace Call

variable {α β : Type}

/-- A call that is over leaves its surroundings as they are. -/
@[simp] theorem outcome_pure (result : α) (surroundings : Surroundings) :
    (pure result : Call α).outcome surroundings = (.ok result, surroundings) := rfl

/-- A call that fails leaves its surroundings as they are. -/
@[simp] theorem outcome_throw (failure : Failure) (surroundings : Surroundings) :
    (throw failure : Call α).outcome surroundings = (.error failure, surroundings) := rfl

/-- A call can look at its surroundings. -/
@[simp] theorem outcome_get (surroundings : Surroundings) :
    (get : Call Surroundings).outcome surroundings = (.ok surroundings, surroundings) := rfl

/-- A call can put others in the place of its surroundings. -/
@[simp] theorem outcome_set (surroundings later : Surroundings) :
    (set later : Call PUnit).outcome surroundings = (.ok ⟨⟩, later) := rfl

/-- The second of two calls starts in what the first one leaves, unless that fails. -/
theorem outcome_bind (call : Call α) (next : α → Call β) (surroundings : Surroundings) :
    (call >>= next).outcome surroundings =
      match call.outcome surroundings with
      | (.ok result, later) => (next result).outcome later
      | (.error failure, later) => (.error failure, later) := by
  simp only [outcome, ExceptT.run_bind, StateT.run_bind]
  cases (StateT.run (ExceptT.run call) surroundings : Id _) with
  | mk result later => cases result <;> rfl

end Call

/-- Why a call that needs settings fails: none are kept, and they cannot be read. -/
def Surroundings.failure? (surroundings : Surroundings) : Option Failure :=
  match surroundings.kept, Settings.read surroundings.environment with
  | none, .error error => some error.failure
  | _, _ => none

/-- A call that needs settings fails for the reason that the surroundings give, or has settings
which are kept from then on. -/
theorem Call.outcome_settings (surroundings : Surroundings) :
    (∃ failure, surroundings.failure? = some failure ∧
      settings.outcome surroundings = (.error failure, surroundings)) ∨
    ∃ found, surroundings.failure? = none ∧
      settings.outcome surroundings = (.ok found, { surroundings with kept := some found }) := by
  obtain ⟨environment, kept⟩ := surroundings
  cases kept with
  | some found => exact .inr ⟨found, rfl, rfl⟩
  | none =>
      cases hread : Settings.read environment with
      | error error =>
          refine .inl ⟨error.failure, by simp [Surroundings.failure?, hread], ?_⟩
          simp [settings, readSettings, outcome_bind, hread]
      | ok found =>
          refine .inr ⟨found, by simp [Surroundings.failure?, hread], ?_⟩
          simp [settings, readSettings, outcome_bind, hread, -bind_pure_comp]

/-- Settings that cannot be had are never reported as a type without an expression. -/
theorem Surroundings.failure?_ne_endlessType (surroundings : Surroundings) :
    surroundings.failure? ≠ some .endlessType := by
  unfold failure?
  split
  next error _ _ => cases error <;> simp [SettingsError.failure]
  · simp

/-! ## Requests with options of their own -/

/-- Layout options that leave none to the settings and stand for a style. -/
structure Style.IsExplicit (layout : Fields) (style : Style) : Prop where
  given : ∀ name ∈ fieldNames, (layout.value? name).isSome = true
  readable : readOver {} layout = .ok style

/-- A request for a dialect, with options that can be read apart from the layout. -/
structure ReadableRequest (requested : Value) (arguments : Arguments) (dialect : Dialect)
    (options : RenderOptions) : Prop where
  truthy : requested.isTruthy = true
  asked : Dialect.ofAlias? requested.display = some dialect
  inlined : arguments.read "inlined" false .notBoolean readBoolean = .ok options.inlined
  root : arguments.read "root" none .notText (readOptional readText) = .ok options.root
  known : unknownFields RenderOptions.fieldNames arguments = []

/-- A request that leaves nothing to the settings, with the layout beside the other options. -/
structure ExplicitRequest (requested : Value) (arguments : Arguments) (layout : Fields)
    (dialect : Dialect) (options : RenderOptions) : Prop
    extends ReadableRequest requested arguments dialect options where
  plain : arguments.value? "format" = none
  style : Style.IsExplicit layout options.style
  style_known : unknownFields Style.fieldNames layout = []

variable {requested : Value} {arguments : Arguments} {layout : Fields} {dialect : Dialect}
  {options : RenderOptions}

/-- Layout options that leave nothing to the settings do not look at them. -/
theorem Style.IsExplicit.check {style : Style} (hstyle : IsExplicit layout style) :
    Style.check layout [] = pure (.ok style) := by
  have hfallback : Style.fallback layout = pure {} := if_pos (List.all_eq_true.mpr hstyle.given)
  rw [Style.check, hfallback, pure_bind, hstyle.readable]
  rfl

/-- Without layout options the layout is that of the settings. -/
theorem Style.read_nil :
    Style.read [] = Call.settings >>= fun settings => pure settings.rendering.style := by
  have hfallback : Style.fallback [] =
      Call.settings >>= fun settings => pure settings.rendering.style := rfl
  rw [Style.read, Style.check, hfallback]
  simp only [bind_assoc, pure_bind]
  rfl

/-- The dialect of a readable request is read without looking around. -/
theorem ReadableRequest.requestDialect
    (hrequest : ReadableRequest requested arguments dialect options) :
    requestDialect requested = pure dialect := by
  rw [Exemplar.requestDialect, if_pos hrequest.truthy, hrequest.asked]

/-- All options are read when the layout is. -/
theorem ReadableRequest.read (hrequest : ReadableRequest requested arguments dialect options)
    {α : Type} {layout : Call α} {style : α → Style}
    (hlayout : RenderOptions.checkStyle (arguments.value? "format") =
      layout >>= fun found => pure (.ok (style found))) :
    RenderOptions.read arguments =
      layout >>= fun found => pure { options with style := style found } := by
  simp only [RenderOptions.read, hlayout, hrequest.inlined, hrequest.root, hrequest.known,
    bind_assoc, pure_bind]
  rfl

/-! ## The two ways to give a layout -/

/-- **A layout beside the options.**  The settings are looked at, and nothing comes of it. -/
theorem ExplicitRequest.generate_eq
    (hrequest : ExplicitRequest requested arguments layout dialect options) (model : Model) :
    generate model requested arguments layout =
      Call.settings >>= fun _ => renderCall model dialect options := by
  have hoptions : RenderOptions.read arguments = Call.settings >>= fun settings =>
      pure { options with style := settings.rendering.style } := by
    refine hrequest.read ?_
    rw [hrequest.plain, RenderOptions.checkStyle, Style.read_nil]
    simp only [bind_assoc, pure_bind]
  have hstyle : Style.read layout = pure options.style := by
    rw [Style.read, hrequest.style_known, hrequest.style.check, pure_bind]
    rfl
  have hnonempty : layout.isEmpty = false := by
    have hsemi := hrequest.style.given "semi" (by decide)
    cases layout with
    | nil => cases hsemi
    | cons => rfl
  rw [generate, hoptions]
  simp only [hnonempty, hstyle, hrequest.requestDialect, bind_assoc, pure_bind,
    Bool.false_eq_true, if_false]

/-- **A layout among the options.**  No settings are looked at. -/
theorem ReadableRequest.render_eq {entries : List (Value × Value)}
    (hrequest : ReadableRequest requested arguments dialect options)
    (hformat : arguments.value? "format" = some (.value (.record entries)))
    (hstyle : Style.IsExplicit (Fields.ofEntries entries) options.style)
    (hknown : strayKeys Style.fieldNames entries = []) (model : Model) :
    render model requested (some arguments) = renderCall model dialect options := by
  have hoptions : RenderOptions.read arguments = pure options := by
    have hlayout : RenderOptions.checkStyle (arguments.value? "format") =
        pure () >>= fun _ => pure (.ok options.style) := by
      rw [hformat, RenderOptions.checkStyle, hknown, hstyle.check]
      rfl
    exact (hrequest.read hlayout).trans rfl
  simp only [render, hoptions, hrequest.requestDialect, pure_bind]

/-! ## What shows in the answer -/

/-- The text of a model, or the failure of a model that has none. -/
def Model.answer (model : Model) (dialect : Dialect) (options : RenderOptions) :
    Except Failure Text :=
  match model.render? dialect options with
  | some text => .ok text
  | none => .error .endlessType

/-- To write a model does not touch the surroundings. -/
theorem outcome_renderCall (model : Model) (dialect : Dialect) (options : RenderOptions)
    (surroundings : Surroundings) :
    (renderCall model dialect options).outcome surroundings =
      (model.answer dialect options, surroundings) := by
  cases htext : model.render? dialect options <;> simp [renderCall, Model.answer, htext]

/-- The answer to a request that leaves nothing to the settings. -/
theorem ExplicitRequest.outcome_generate
    (hrequest : ExplicitRequest requested arguments layout dialect options) (model : Model)
    (surroundings : Surroundings) :
    ((generate model requested arguments layout).outcome surroundings).1 =
      match surroundings.failure? with
      | some failure => .error failure
      | none => model.answer dialect options := by
  rw [hrequest.generate_eq, Call.outcome_bind]
  rcases Call.outcome_settings surroundings with ⟨failure, hfailure, hsettings⟩ |
    ⟨found, hfailure, hsettings⟩
  · rw [hsettings, hfailure]
  · rw [hsettings, hfailure]
    exact congrArg Prod.fst (outcome_renderCall model dialect options _)

/-- **What shows of the surroundings.**  `generate` answers a request that leaves nothing to the
settings with the text of the model wherever settings can be had, and elsewhere with the reason why
they cannot.  So two surroundings give the same answer exactly if settings can be had in both, or
in neither for the same reason. -/
theorem generate_explicit_iff
    (hrequest : ExplicitRequest requested arguments layout dialect options) (model : Model) :
    (∀ surroundings : Surroundings,
      ((generate model requested arguments layout).outcome surroundings).1 =
        match surroundings.failure? with
        | some failure => .error failure
        | none => model.answer dialect options) ∧
    ∀ left right : Surroundings,
      ((generate model requested arguments layout).outcome left).1 =
        ((generate model requested arguments layout).outcome right).1 ↔
      left.failure? = right.failure? := by
  refine ⟨hrequest.outcome_generate model, fun left right => ?_⟩
  -- A model without a text fails in another way than settings do.
  have hdiffer : ∀ surroundings : Surroundings, ∀ failure,
      surroundings.failure? = some failure → model.answer dialect options ≠ .error failure := by
    intro surroundings failure hfailure hsame
    unfold Model.answer at hsame
    split at hsame
    · cases hsame
    · exact surroundings.failure?_ne_endlessType (hfailure.trans (by cases hsame; rfl))
  rw [hrequest.outcome_generate, hrequest.outcome_generate]
  cases hleft : left.failure? with
  | none =>
      cases hright : right.failure? with
      | none => simp
      | some failure => simpa using hdiffer right failure hright
  | some failure =>
      cases hright : right.failure? with
      | none => simpa using (hdiffer left failure hleft).symm
      | some other => simp

/-- A whole layout, in values of several types. -/
def wholeLayout : Fields :=
  [("tab_width", .string "4"), ("semi", .integer 1), ("print_width", .float "100.0")]

/-- Options without a layout. -/
def declaringOptions : Arguments :=
  [("inlined", .value (.string "off"))]

/-- A request that says how wide, how deep and how terminated, in a dialect by its short name. -/
theorem explicitRequest_wholeLayout :
    ExplicitRequest (.string "TS") declaringOptions wholeLayout .typeScript
      { style := ⟨true, ⟨100, by decide⟩, ⟨4, by decide⟩⟩ } where
  truthy := rfl
  asked := by decide +kernel
  inlined := rfl
  root := rfl
  known := by decide +kernel
  plain := rfl
  style := ⟨by decide +kernel, rfl⟩
  style_known := by decide +kernel

/-- The model of a number. -/
def numberModel : Model :=
  (Builder.addBatch {} {} false { samples := [.scalar .number] }).2.model

/-- Variables that are read without complaint do not show. -/
theorem generate_explicit_iff_variables :
    ((generate numberModel (.string "TS") declaringOptions wholeLayout).outcome {}).1 =
      ((generate numberModel (.string "TS") declaringOptions wholeLayout).outcome
        { environment := OrderedMap.ofList
            [("TYPEWRITER_DEFAULT_DIALECT", "prop_types"), ("TYPEWRITER_SEMI", "off")] }).1 :=
  ((generate_explicit_iff explicitRequest_wholeLayout numberModel).2 _ _).mpr rfl

/-- A variable for the width shows in the answer to a request that gives the width itself. -/
theorem unread_width_shows :
    ExplicitRequest (.string "TS") declaringOptions wholeLayout .typeScript
      { style := ⟨true, ⟨100, by decide⟩, ⟨4, by decide⟩⟩ } ∧
    ((generate numberModel (.string "TS") declaringOptions wholeLayout).outcome {}).1 =
      .ok "type Root = number;\n" ∧
    ((generate numberModel (.string "TS") declaringOptions wholeLayout).outcome
      { environment := OrderedMap.ofList [("TYPEWRITER_PRINT_WIDTH", "5")] }).1 =
      .error (.invalid ⟨.renderingSettings, [⟨["print_width"], .below 20⟩]⟩) := by
  refine ⟨explicitRequest_wholeLayout, ?_, rfl⟩
  have hhad : ({} : Surroundings).failure? = none := rfl
  have htext : numberModel.render? .typeScript
      { style := ⟨true, ⟨100, by decide⟩, ⟨4, by decide⟩⟩ } =
      some "type Root = number;\n".toList := by
    decide +kernel
  rw [explicitRequest_wholeLayout.outcome_generate, hhad]
  simp [Model.answer, htext]

end Exemplar
