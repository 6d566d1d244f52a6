import Exemplar.Proofs.Expansion
import Exemplar.Proofs.Reading.Documents
import Exemplar.Render
import Mathlib.Order.Nat

/-!
# Inlined TypeScript tells the type

An acyclic model gives every key a type tree: the alternatives in order, with the trees
of their parts.  The text of an inlined type depends on the layout, which may put its
lines anywhere and a bar in front of a union, may end fields in semicolons or in lines
alone, and loses blanks afterwards.  But whatever the layout, the tree can be read back
from the text, so two texts that are equal tell equal trees.

The proof goes along the expansion of a key.  What is spelled out at a key has a
document all of whose layouts are read as the tree there if that is so at the keys to
which its fields lead (`SpellsKey.isType`).
-/

namespace Exemplar

/-! ## Type trees of models -/

/-- The alternative for the values of one kind, given the types at all keys. -/
def Alternative.ofKind (tree : Keypath → TypeTree) (kind : Kind) (shape : Shape) : Alternative :=
  match kind with
  | .scalar kind => .scalar kind
  | .array => .array ((shape.element?.map fun element => tree element.key).getD .any)
  | .object =>
      .object (shape.entries.map fun entry => (entry.1, entry.2.required, tree entry.2.key))

namespace Model

variable {model : Model}

/-- The type at a key down to a given depth. -/
def typeTreeWithin (model : Model) : Nat → Keypath → TypeTree
  | 0, _ => .any
  | fuel + 1, key =>
      if model.has key then
        (model.kinds key).entries.map fun entry =>
          .ofKind (model.typeTreeWithin fuel) entry.1 entry.2
      else .any

/-- The type at a key. -/
def typeTree (model : Model) (key : Keypath) : TypeTree :=
  model.typeTreeWithin model.expansionDepth key

/-- Nothing is known of the type at a key without shapes. -/
theorem typeTreeWithin_of_not_has (fuel : Nat) {key : Keypath} (hnone : model.has key = false) :
    model.typeTreeWithin fuel key = .any := by
  cases fuel with
  | zero => rfl
  | succ fuel => simp [typeTreeWithin, hnone]

/-! ## One step -/

section

variable {tree : Keypath → TypeTree} {terminator : Text} (hgap : Uniform .space terminator)
  (hunknown : ∀ key, model.has key = false → tree key = .any)
include hgap hunknown

/-- What is spelled out for a kind is written as the alternative of that kind. -/
theorem SpellsKind.isAlternative {kind : Kind} {shape : Shape} {expr : TypeExpr}
    (hspells : model.SpellsKind
      (fun child expr => (TypeScript.doc terminator expr).IsType (tree child)) kind shape expr) :
    (TypeScript.doc terminator expr).IsAlternative (.ofKind tree kind shape) := by
  cases hspells with
  | scalar kind shape => exact isAlternative_scalar kind
  | anyArray hnone =>
      have hany : (shape.element?.map fun element => tree element.key).getD .any = .any := by
        cases hfound : shape.element? with
        | none => rfl
        | some element => exact hunknown _ (hnone element hfound)
      rw [Alternative.ofKind, hany]
      exact isAlternative_anyArray
  | array hfound _ hspelled =>
      rw [Alternative.ofKind, hfound]
      exact isAlternative_array hspelled
  | object hspelled =>
      rw [TypeScript.doc, TypeScript.fieldDocs_eq_map, Alternative.ofKind]
      refine isAlternative_object hgap ?_
      rw [List.forall₂_map_left_iff, List.forall₂_map_right_iff]
      refine hspelled.flip.imp fun field entry hfield => ?_
      have hwritten := isField_fieldDoc field.1 hfield.2
      rwa [hfield.1] at hwritten ⊢

/-- **One step.**  All layouts of a key are read as its tree if those of the parts are. -/
theorem SpellsKey.isType {key : Keypath} {expr : TypeExpr}
    (hspells : model.SpellsKey
      (fun child expr => (TypeScript.doc terminator expr).IsType (tree child)) key expr) :
    (TypeScript.doc terminator expr).IsType
      (if model.has key then
        (model.kinds key).entries.map fun entry => .ofKind tree entry.1 entry.2
      else .any) := by
  obtain ⟨alternatives, hall, rfl⟩ := hspells
  have hdocs : List.Forall₂ (fun entry alternative =>
      (TypeScript.doc terminator alternative).IsAlternative (.ofKind tree entry.1 entry.2))
      (model.kinds key).entries alternatives :=
    hall.imp fun entry alternative hkind => hkind.isAlternative hgap hunknown
  rw [has, OrderedMap.isEmpty]
  generalize (model.kinds key).entries = entries at hdocs
  cases hdocs with
  | nil => exact (isAlternative_scalar .unknown).isType
  | @cons first alternative rest others hfirst hrest =>
      cases hrest with
      | nil => exact hfirst.isType
      | @cons second other later others hsecond hlater =>
          have hunion : List.Forall₂ Doc.IsAlternative
              ((alternative :: other :: others).map (TypeScript.doc terminator))
              ((first :: second :: later).map fun entry => .ofKind tree entry.1 entry.2) := by
            rw [List.forall₂_map_left_iff, List.forall₂_map_right_iff]
            exact List.Forall₂.flip (.cons hfirst (.cons hsecond hlater))
          have hdoc := isType_union hunion (List.cons_ne_nil _ _)
          rwa [← TypeScript.docs_eq_map] at hdoc

end

/-! ## The whole way -/

/-- A terminator counts as space, be it a semicolon or nothing. -/
theorem uniform_terminator (style : Style) : Uniform .space style.terminator := by
  unfold Style.terminator
  split <;> decide

/-- In an acyclic model every key has a document all of whose layouts are read as its type, taken
down far enough. -/
theorem Acyclic.exists_isType (hacyclic : model.Acyclic) (style : Style) (key : Keypath) :
    ∃ expr, model.expand? true key = some expr ∧ ∀ fuel, model.expansionDepth ≤ fuel →
      (TypeScript.doc style.terminator expr).IsType (model.typeTreeWithin fuel key) := by
  obtain ⟨expr, hexpr⟩ := expandWithin_of_guarded hacyclic.guarded true [] key
  have hfound : model.expand? true key = some expr := hexpr _ (Nat.le_refl _)
  refine ⟨expr, hfound, ?_⟩
  -- a tree that is deep enough at a key is deep enough at its parts, one level less
  let P := fun (fuel : Nat) (key : Keypath) (expr : TypeExpr) => ∀ more, fuel ≤ more →
    (TypeScript.doc style.terminator expr).IsType (model.typeTreeWithin more key)
  refine (hacyclic.from key).expandWithin_ind (P := P) ?_ .refl (by simp) hfound
  intro fuel key expr hspells more hle
  obtain ⟨less, rfl⟩ : ∃ less, more = less + 1 := ⟨more - 1, by omega⟩
  rw [typeTreeWithin]
  refine SpellsKey.isType (uniform_terminator style) (fun _ => typeTreeWithin_of_not_has less) ?_
  exact hspells.imp fun child _ inner hinner => hinner less (by omega)

end Model

/-- A document is read as one type only. -/
theorem Doc.IsType.unique {doc : Doc} {tree other : TypeTree} (hdoc : doc.IsType tree)
    (hother : doc.IsType other) : tree = other := by
  obtain ⟨tokens, hspells, hparses⟩ := hdoc _ (doc.print_lays {})
  obtain ⟨others, hagain, hreads⟩ := hother _ (doc.print_lays {})
  obtain rfl : tokens = others := hspells.spaced.unique hagain.spaced
  exact ((hparses [] nofun).unique (hreads [] nofun)).1

/-- The written expression has the tokens of a layout. -/
theorem Doc.IsType.exists_tokens {doc : Doc} {tree : TypeTree} (hdoc : doc.IsType tree)
    (style : Style) : ∃ tokens, Spaced tokens (doc.layoutExpression style) ∧
      Parses readType (skipBar tokens) tree [] := by
  obtain ⟨laid, thin, hlaid, hthin, hend⟩ := doc.layoutExpression_lays style
  obtain ⟨tokens, hspells, hparses⟩ := hdoc laid hlaid
  have hwhole := hparses [] nofun
  rw [List.append_nil] at hwhole
  exact ⟨tokens, ((hspells.spaced.thin hthin).dropWhile).thin hend, hwhole⟩

namespace Model

variable {model : Model}

/-- **Type trees.**  In an acyclic model the type at a key is made of the types at the keys to which
its fields lead, one alternative for each kind. -/
theorem Acyclic.typeTree_eq (hacyclic : model.Acyclic) (key : Keypath) :
    model.typeTree key =
      if model.has key then
        (model.kinds key).entries.map fun entry => .ofKind model.typeTree entry.1 entry.2
      else TypeTree.any := by
  obtain ⟨expr, -, htree⟩ := hacyclic.exists_isType {} key
  have hmore : model.typeTree key = model.typeTreeWithin (model.expansionDepth + 1) key :=
    (htree _ (Nat.le_refl _)).unique (htree _ (Nat.le_succ _))
  exact hmore

/-- An inlined type is written, and its text is read as its tree. -/
theorem Acyclic.exists_text (hacyclic : model.Acyclic) (style : Style) {root : Keypath}
    (hroot : model.has root = true) :
    ∃ text, model.renderInlined? .typeScript style (some root) = some text ∧
      ∃ tokens, Spaced tokens text ∧ Parses readType (skipBar tokens) (model.typeTree root) [] := by
  obtain ⟨expr, hexpr, htree⟩ := hacyclic.exists_isType style root
  refine ⟨_, ?_, (htree _ (Nat.le_refl _)).exists_tokens style⟩
  simp [renderInlined?, hroot, doc?, hexpr, TypeExpr.doc]

/-- **Texts tell types.**  Two stored keys of acyclic models that have the same inlined TypeScript
text, each in a layout of its own, have the same type tree. -/
theorem typeTree_eq_of_text {model other : Model} (hacyclic : model.Acyclic)
    (hothers : other.Acyclic) {root last : Keypath} (hroot : model.has root = true)
    (hlast : other.has last = true) {style layout : Style}
    (hsame : model.renderInlined? .typeScript style (some root) =
      other.renderInlined? .typeScript layout (some last)) :
    model.typeTree root = other.typeTree last := by
  obtain ⟨text, htext, tokens, hspaced, hparses⟩ := hacyclic.exists_text style hroot
  obtain ⟨again, hagain, others, hother, hreads⟩ := hothers.exists_text layout hlast
  obtain rfl : text = again := Option.some.inj (htext.symm.trans (hsame.trans hagain))
  obtain rfl : tokens = others := hspaced.unique hother
  exact (hparses.unique hreads).1

/-- Logs with readings of which nothing is known. -/
def logs : Model :=
  ({} : Model).setShape "Log" .object
      (OrderedMap.insert (.insert .empty "id" { key := "Log.id" }) "read-out"
        { key := "Log.readings", required := false })
    |>.setShape "Log.id" (.scalar .number) .empty
    |>.setShape "Log.readings" .array .empty

/-- Series with values that were seen and are unknown. -/
def series : Model :=
  ({} : Model).setShape "Series" .object
      (OrderedMap.insert (.insert .empty "id" { key := "SeriesId" }) "read-out"
        { key := "Series.values", required := false })
    |>.setShape "SeriesId" (.scalar .number) .empty
    |>.setShape "Series.values" .array (.ofElement "Series.values[]")
    |>.setShape "Series.values[]" (.scalar .unknown) .empty

/-- A wide layout with semicolons. -/
def wideStyle : Style where
  semicolons := true
  width := ⟨100, by decide⟩
  tab := ⟨4, by decide⟩

/-- Two models with different keys, one of them with unknown elements and the other with none, have
one text in two layouts, and so the same types. -/
theorem typeTree_logs :
    logs.Acyclic ∧ series.Acyclic ∧
      logs.renderInlined? .typeScript {} (some "Log") =
        series.renderInlined? .typeScript wideStyle (some "Series") ∧
      logs.typeTree "Log" = series.typeTree "Series" := by
  have hlogs : logs.Acyclic := acyclic_of_rank List.length (by decide +kernel)
  have hseries : series.Acyclic := acyclic_of_rank List.length (by decide +kernel)
  have hsame : logs.renderInlined? .typeScript {} (some "Log") =
      series.renderInlined? .typeScript wideStyle (some "Series") := by decide +kernel
  exact ⟨hlogs, hseries, hsame,
    typeTree_eq_of_text hlogs hseries (by decide +kernel) (by decide +kernel) hsame⟩

end Model

end Exemplar
