import Exemplar.Proofs.ClosedPrograms
import Exemplar.Proofs.Guarded

/-!
# What programs bind

A program of validators binds the name of its import and the names of the types that it declares.
The declared names are kept apart by the model; the imported one is not in it, and no type is
kept from having the same name.  `bindings_distinct_iff` says when this happens: some batch
stored an object under the imported name, or it is a root of which something is known.

The letters of a root stand in front of every name below it.  Only roots whose letters the
imported name starts with can therefore lead there, among them `Prop`, `prop_types` and `_`, and
not the default root.  `imported_name_redeclared` is a program that cannot be loaded.
-/

namespace Exemplar

namespace PropTypes

/-- The name that the import statement binds. -/
def importedName : Name := "PropTypes"

/-- A statement binds a name: the import its own, and a declaration the one behind `const`. -/
inductive Binds : Doc → Name → Prop
  | imported : Binds "import PropTypes from \"prop-types\"" importedName
  | declared (name : Name) (body : Doc) :
      Binds (.concat ["const ", .text name, " = ", body]) name

/-- The names that the statements of a program bind, one after the other.  A program without
declarations is empty. -/
def boundNames (model : Model) : List Name :=
  if model.declarationOrder .propTypes = [] then []
  else importedName :: model.declarationOrder .propTypes

variable {model : Model}

/-- A program binds one name with each of its statements. -/
theorem exists_statements_binding (hguarded : model.Guarded) (style : Style) :
    ∃ statements,
      model.renderNamed? .propTypes style = some (Doc.layoutProgram style statements) ∧
        List.Forall₂ Binds statements (boundNames model) := by
  obtain ⟨declarations, hdeclarations, hall⟩ :=
    Model.exists_declarations hguarded .propTypes style
  refine ⟨_, Model.renderNamed?_eq hdeclarations, ?_⟩
  have hempty : model.declarationOrder .propTypes = [] ↔ declarations = [] := by
    rw [← List.length_eq_zero_iff, hall.length_eq, List.length_eq_zero_iff]
  rw [boundNames]
  by_cases hnone : declarations = []
  · rw [if_pos hnone, if_pos (hempty.mpr hnone)]
    exact .nil
  · rw [if_neg hnone, if_neg fun hfound => hnone (hempty.mp hfound)]
    refine .cons .imported (hall.flip.imp ?_)
    rintro _ name ⟨expr, -, rfl⟩
    exact .declared name _

/-- Types have different names, so that a name can be bound twice only by the import. -/
theorem nodup_boundNames_iff :
    (boundNames model).Nodup ↔ importedName ∉ model.declarationOrder .propTypes := by
  unfold boundNames
  split
  · rename_i hnone
    simp [hnone]
  · rw [List.nodup_cons, and_iff_left (model.nodup_declarationOrder .propTypes)]

end PropTypes

section

variable {deliveries : List Delivery}
  (hstandard : ∀ delivery ∈ deliveries, delivery.UsesStandard)
include hstandard

/-- A plain name is declared when an object is stored under it, or anything if it is a root. -/
theorem mem_declarationOrder_iff_stores {name : Name} (hplain : Text.IsPlain name)
    (dialect : Dialect) :
    name ∈ (Builder.afterAll {} deliveries).model.declarationOrder dialect ↔
      (∃ delivery ∈ Builder.succeeding {} deliveries, ∃ sample,
        delivery.StoresUnder name sample ∧ sample.kind = .object) ∨
      (∃ delivery ∈ Builder.succeeding {} deliveries, delivery.naming.keyAt [] [] = .ok name) ∧
        ∃ delivery ∈ Builder.succeeding {} deliveries, ∃ sample,
          delivery.StoresUnder name sample := by
  have hrecorded := (Builder.Reachable.start.afterAll deliveries).wellFormed.recorded
  rw [hrecorded.mem_declarationOrder_iff, isNamed_afterAll_iff_stores hstandard,
    and_iff_right hplain, Builder.mem_roots_afterAll_iff, Builder.has_afterAll_iff]

/-- What is stored under a key has the letters of its root in front of those of the key. -/
theorem exists_root_letters {delivery : Delivery}
    (hmem : delivery ∈ Builder.succeeding {} deliveries) {key : Keypath} {sample : Sample}
    (hstored : delivery.StoresUnder key sample) :
    ∃ root, delivery.naming.keyAt [] [] = .ok root ∧ nameLetters root <+: nameLetters key := by
  obtain ⟨hgiven, -⟩ := (Builder.tries {} deliveries).mem_ends hmem
  obtain ⟨root, hnaming, hroot⟩ := hstandard delivery hgiven
  obtain ⟨enclosing, hstored⟩ := hstored
  rw [hnaming] at hstored ⊢
  refine ⟨rootName root, keyAt_standard_root root, ?_⟩
  by_cases hletters : nameLetters (rootName root) = []
  · rw [hletters]
    exact List.nil_prefix
  · exact (hstored.startsWith hroot hletters).letters

/-- **Bindings.**  Take whatever batches on a new builder, successful or not, under the standard
naming with roots that are ASCII identifiers.  The statements of the program of validators bind
its import and the declared types, and these names are distinct exactly when no successful batch
stored an object under the name of the import, and that name is no root under which one of them
stored something.  So they are whenever the letters of no root are those that the name starts
with. -/
theorem bindings_distinct_iff (style : Style) :
    let model := (Builder.afterAll {} deliveries).model
    let succeeded := Builder.succeeding {} deliveries
    (∃ statements,
      model.renderNamed? .propTypes style = some (Doc.layoutProgram style statements) ∧
        List.Forall₂ PropTypes.Binds statements (PropTypes.boundNames model)) ∧
    ((PropTypes.boundNames model).Nodup ↔
      ¬ ((∃ delivery ∈ succeeded, ∃ sample,
          delivery.StoresUnder "PropTypes" sample ∧ sample.kind = .object) ∨
        (∃ delivery ∈ succeeded, delivery.naming.keyAt [] [] = .ok "PropTypes") ∧
          ∃ delivery ∈ succeeded, ∃ sample, delivery.StoresUnder "PropTypes" sample)) ∧
    ((∀ delivery ∈ succeeded, ∀ root, delivery.naming.keyAt [] [] = .ok root →
        ¬ nameLetters root <+: "PropTypes".toList) →
      (PropTypes.boundNames model).Nodup) := by
  intro model succeeded
  have hplain : Text.IsPlain PropTypes.importedName := by decide
  have hdeclared := mem_declarationOrder_iff_stores hstandard hplain .propTypes
  refine ⟨PropTypes.exists_statements_binding (guarded_of_usesStandard hstandard) style,
    PropTypes.nodup_boundNames_iff.trans (not_congr hdeclared), fun hroots => ?_⟩
  refine PropTypes.nodup_boundNames_iff.mpr fun hmem => ?_
  have hstored : ∃ delivery ∈ succeeded, ∃ sample,
      delivery.StoresUnder PropTypes.importedName sample := by
    rcases hdeclared.mp hmem with ⟨delivery, hdelivery, sample, hstored, -⟩ | ⟨-, hstored⟩
    · exact ⟨delivery, hdelivery, sample, hstored⟩
    · exact hstored
  obtain ⟨delivery, hdelivery, sample, hstored⟩ := hstored
  obtain ⟨root, hroot, hletters⟩ := exists_root_letters hstandard hdelivery hstored
  have hname : nameLetters PropTypes.importedName = "PropTypes".toList := by decide
  exact hroots delivery hdelivery root hroot (hname ▸ hletters)

end

/-- Two roots, one of them the default one, and members that are called like the import, one of
them not in ASCII. -/
def wardrobe : List Delivery :=
  [{ naming := .standard none
     examples := { samples := [.object [("propTypes", .object [("größe", .scalar .number)])]] } },
   { naming := .standard (some "types")
     examples := { samples := [.object [("PropTypes", .object [])], .array []] } }]

/-- Two members that are called like the import lead to other names, and all five bindings are
distinct. -/
theorem bindings_distinct_iff_wardrobe :
    let model := (Builder.afterAll {} wardrobe).model
    (∀ delivery ∈ wardrobe, delivery.UsesStandard) ∧
      PropTypes.boundNames model = ["PropTypes".toList, "TypesPropTypes".toList, "types".toList,
        "RootPropTypes".toList, "Root".toList] ∧
      (PropTypes.boundNames model).Nodup ∧
      ∃ statements, model.renderNamed? .propTypes {} = some (Doc.layoutProgram {} statements) ∧
        statements.length = 5 := by
  intro model
  have hstandard : ∀ delivery ∈ wardrobe, delivery.UsesStandard :=
    List.forall_mem_cons.mpr ⟨⟨none, rfl, by decide⟩,
      List.forall_mem_singleton.mpr ⟨some "types", rfl, by decide⟩⟩
  have hbound : PropTypes.boundNames model = ["PropTypes".toList, "TypesPropTypes".toList,
      "types".toList, "RootPropTypes".toList, "Root".toList] := by
    decide +kernel
  obtain ⟨⟨statements, hprogram, hbinds⟩, -, hroots⟩ := bindings_distinct_iff hstandard {}
  refine ⟨hstandard, hbound, hroots fun delivery hmem root hroot => ?_, statements, hprogram,
    hbinds.length_eq.trans (congrArg List.length hbound)⟩
  obtain ⟨hgiven, -⟩ := (Builder.tries {} wardrobe).mem_ends hmem
  have hletters : ∀ delivery ∈ wardrobe, ∃ root, delivery.naming.keyAt [] [] = .ok root ∧
      ¬ nameLetters root <+: "PropTypes".toList :=
    List.forall_mem_cons.mpr ⟨⟨"Root", rfl, by decide⟩,
      List.forall_mem_singleton.mpr ⟨"types", rfl, by decide⟩⟩
  obtain ⟨found, hfound, hother⟩ := hletters delivery hgiven
  obtain rfl := Except.ok.inj (hroot.symm.trans hfound)
  exact hother

/-- A root and a member whose names come to that of the import: the program declares what it has
imported. -/
theorem imported_name_redeclared :
    let delivery : Delivery :=
      { naming := .standard (some "Prop")
        examples := { samples := [.object [("types", .object [("a", .scalar .number)])]] } }
    let model := (Builder.afterAll {} [delivery]).model
    delivery.UsesStandard ∧
      PropTypes.boundNames model = ["PropTypes".toList, "PropTypes".toList, "Prop".toList] ∧
      ¬ (PropTypes.boundNames model).Nodup ∧
      (∃ statements, model.renderNamed? .propTypes {} = some (Doc.layoutProgram {} statements) ∧
        List.Forall₂ PropTypes.Binds statements (PropTypes.boundNames model)) ∧
      model.renderNamed? .propTypes {} = some (Text.unlines
        ["import PropTypes from \"prop-types\"",
          "const PropTypes = PropTypes.shape(\x7b a: PropTypes.number.isRequired \x7d)",
          "const Prop = PropTypes.shape(\x7b types: PropTypes.isRequired \x7d)", ""]) := by
  intro delivery model
  have hstandard : delivery.UsesStandard := ⟨some "Prop", rfl, by decide⟩
  have hbound : PropTypes.boundNames model =
      ["PropTypes".toList, "PropTypes".toList, "Prop".toList] := by
    decide +kernel
  have hguarded : model.Guarded := guarded_of_usesStandard (List.forall_mem_singleton.mpr hstandard)
  refine ⟨hstandard, hbound, ?_, PropTypes.exists_statements_binding hguarded {}, by decide +kernel⟩
  rw [hbound]
  decide

end Exemplar
