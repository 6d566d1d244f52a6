import Exemplar.Proofs.Mentions
import Mathlib.Order.Nat

/-!
# Inlined types by substitution

In named mode the document of a type leaves the other named types as names, and in
inlined mode it spells them out.  `inlinedReference` is what inlining puts in the place of a
name (`TypeExpr.docWith`): the document of the declaration, with its names replaced in turn,
but never a name that is being expanded already.

Both modes go through a model in the same order and write the same for every kind, so
that one induction over the fuel of the inlined mode compares them (`doc_expandWithin`).
The names that are being expanded are the same on both sides; the inlined mode keeps
positions without a name on its list too, and they never matter.
-/

namespace Exemplar

/-- What two relations say of a common left side. -/
theorem forall₂_both {α β γ : Type} {R : α → β → Prop} {S : α → γ → Prop} {T : β → γ → Prop}
    {xs : List α} {ys : List β} {zs : List γ} (hleft : List.Forall₂ R xs ys)
    (hright : List.Forall₂ S xs zs) (hboth : ∀ x ∈ xs, ∀ y z, R x y → S x z → T y z) :
    List.Forall₂ T ys zs := by
  induction hleft generalizing zs with
  | nil =>
      cases hright
      exact .nil
  | @cons x y rest later hxy _ ih =>
      cases hright with
      | @cons _ z _ last hxz htail =>
          refine .cons (hboth x List.mem_cons_self y z hxy hxz) (ih htail fun w hw => ?_)
          exact hboth w (List.mem_cons_of_mem x hw)

/-! ## The same key twice -/

/-- A type of values adds no nullish name. -/
theorem PropTypes.nullishNames_cons_of_not {expr : TypeExpr} (hvalued : expr.isNullish = false)
    (rest : List TypeExpr) :
    PropTypes.nullishNames (expr :: rest) = PropTypes.nullishNames rest := by
  cases expr with
  | scalar kind =>
      have hkind : kind.isNullish = false := hvalued
      simp [PropTypes.nullishNames, hkind]
  | _ => rfl

/-- Alternatives of a union that are written alike: the same ones, or two types of values. -/
def WrittenAlike (left right : TypeExpr × Doc) : Prop :=
  (left.1 = right.1 ∨ left.1.isNullish = false ∧ right.1.isNullish = false) ∧ left.2 = right.2

/-- Of two alternatives that are written alike both are nullish or none is. -/
theorem WrittenAlike.isNullish_eq {left right : TypeExpr × Doc} (halike : WrittenAlike left right) :
    left.1.isNullish = right.1.isNullish := by
  rcases halike.1 with hsame | ⟨hleft, hright⟩
  · rw [hsame]
  · rw [hleft, hright]

section

variable {alternatives others : List (TypeExpr × Doc)}
  (halike : List.Forall₂ WrittenAlike alternatives others)
include halike

/-- Unions that are written alike admit the same nullish values. -/
theorem PropTypes.nullishNames_congr :
    PropTypes.nullishNames (alternatives.map Prod.fst) =
      PropTypes.nullishNames (others.map Prod.fst) := by
  induction halike with
  | nil => rfl
  | @cons left right _ _ hfirst _ ih =>
      rw [List.map_cons, List.map_cons]
      rcases hfirst.1 with hsame | ⟨hleft, hright⟩
      · rw [hsame]
        cases right.1 with
        | scalar kind => simp only [PropTypes.nullishNames, ih]
        | _ => exact ih
      · rw [PropTypes.nullishNames_cons_of_not hleft, PropTypes.nullishNames_cons_of_not hright, ih]

/-- Unions that are written alike have the same documents for types of values. -/
theorem valuedDocs_congr :
    (alternatives.filter fun alternative => !alternative.1.isNullish).map Prod.snd =
      (others.filter fun alternative => !alternative.1.isNullish).map Prod.snd := by
  induction halike with
  | nil => rfl
  | cons hfirst _ ih =>
      rw [List.filter_cons, List.filter_cons, hfirst.isNullish_eq]
      split
      · rw [List.map_cons, List.map_cons, ih, hfirst.2]
      · exact ih

/-- Unions of alternatives that are written alike are the same document. -/
theorem Dialect.unionDoc_congr (dialect : Dialect) :
    dialect.unionDoc alternatives = dialect.unionDoc others := by
  cases dialect with
  | typeScript =>
      have hdocs : alternatives.map Prod.snd = others.map Prod.snd := by
        induction halike with
        | nil => rfl
        | cons hfirst _ ih => rw [List.map_cons, List.map_cons, ih, hfirst.2]
      simp only [unionDoc, hdocs]
  | propTypes =>
      simp only [unionDoc, PropTypes.nullishNames_congr halike, valuedDocs_congr halike]

end

namespace Model

variable {model : Model} {dialect : Dialect} {style : Style} {refer other : Name → Doc}
  {refers others : Keypath → TypeExpr → Prop}

/-- Two ways to spell out a kind are written alike if the types that they refer to are. -/
theorem SpellsKind.writtenAlike {kind : Kind} {shape : Shape} {left right : TypeExpr}
    (hleft : model.SpellsKind refers kind shape left)
    (hright : model.SpellsKind others kind shape right)
    (hsame : ∀ field ∈ shape.entries, ∀ left right, refers field.2.key left →
      others field.2.key right →
      left.docWith dialect style refer = right.docWith dialect style other) :
    WrittenAlike (left, left.docWith dialect style refer)
      (right, right.docWith dialect style other) := by
  cases hleft with
  | scalar kind shape =>
      cases hright
      exact ⟨.inl rfl, rfl⟩
  | anyArray hunknown =>
      cases hright with
      | anyArray => exact ⟨.inl rfl, rfl⟩
      | array hfound hknown _ => simp [hunknown _ hfound] at hknown
  | array hfound hknown hspelled =>
      cases hright with
      | anyArray hunknown => simp [hunknown _ hfound] at hknown
      | array hsome _ hother =>
          obtain rfl := Option.some.inj (hfound.symm.trans hsome)
          have hinner := hsame _ (element_mem hfound) _ _ hspelled hother
          exact ⟨.inr ⟨rfl, rfl⟩, by simp only [TypeExpr.docWith, hinner]⟩
  | @object _ fields hspelled =>
      cases hright with
      | @object _ laters hother =>
          have hfields : List.Forall₂ (fun (field later : Field × TypeExpr) =>
              (field.1, field.2.docWith dialect style refer) =
                (later.1, later.2.docWith dialect style other)) fields laters := by
            refine forall₂_both hspelled hother fun entry hentry field later hfield hlater => ?_
            rw [hfield.1, hlater.1, hsame entry hentry _ _ hfield.2 hlater.2]
          have hdocs : fieldDocsWith dialect style refer fields =
              fieldDocsWith dialect style other laters := by
            clear hspelled hother
            induction hfields with
            | nil => rfl
            | cons hfirst _ ih => simp only [fieldDocsWith, ih, hfirst]
          exact ⟨.inr ⟨rfl, rfl⟩, by simp only [TypeExpr.docWith, hdocs]⟩

/-- **One step.**  Two types at a key are written alike if the types that they refer to are. -/
theorem SpellsKey.docWith_eq {key : Keypath} {left right : TypeExpr}
    (hleft : model.SpellsKey refers key left) (hright : model.SpellsKey others key right)
    (hsame : ∀ child, model.Leads key child → ∀ left right, refers child left →
      others child right →
      left.docWith dialect style refer = right.docWith dialect style other) :
    left.docWith dialect style refer = right.docWith dialect style other := by
  obtain ⟨alternatives, hall, rfl⟩ := hleft
  obtain ⟨laters, hlaters, rfl⟩ := hright
  have halike : List.Forall₂ (fun left right =>
      WrittenAlike (left, left.docWith dialect style refer)
        (right, right.docWith dialect style other)) alternatives laters := by
    refine forall₂_both hall hlaters fun entry hentry left right hleft hright => ?_
    refine hleft.writtenAlike hright fun field hfield => hsame field.2.key ?_
    exact leads_iff.mpr ⟨entry, hentry, field, hfield, rfl⟩
  cases halike with
  | nil => rfl
  | cons hfirst htail =>
      cases htail with
      | nil => exact hfirst.2
      | cons hsecond hlast =>
          simp only [TypeExpr.ofAlternatives, TypeExpr.docWith, alternativeDocsWith_eq_map]
          refine Dialect.unionDoc_congr ?_ dialect
          rw [List.forall₂_map_left_iff, List.forall₂_map_right_iff]
          exact .cons hfirst (.cons hsecond hlast)

end Model

/-! ## Replacing names by declarations -/

namespace Model

variable {model : Model} {dialect : Dialect} {style : Style}

/-- What a name is replaced by while the types in `opened` are being expanded: the document of
its own declaration, with the names in it replaced in turn, unless it is one of those types. -/
def inlinedReference (model : Model) (dialect : Dialect) (style : Style) (opened : List Name)
    (name : Name) : Doc :=
  if _hopen : model.isNamed name = true ∧ name ∉ opened then
    match model.expand? false name with
    | some body =>
        body.docWith dialect style fun inner =>
          inlinedReference model dialect style (name :: opened) inner
    | none => .text name
  else .text name
termination_by model.closedNames opened
decreasing_by exact closedNames_cons_lt _hopen.1 _hopen.2

/-- A name that is being expanded stays. -/
theorem inlinedReference_of_opened {opened : List Name} {name : Name} (hopen : name ∈ opened) :
    model.inlinedReference dialect style opened name = .text name := by
  rw [inlinedReference, dif_neg fun hgiven => hgiven.2 hopen]

/-- A name that is not is replaced by its declaration. -/
theorem inlinedReference_of_declaration {opened : List Name} {name : Name} {body : TypeExpr}
    (hnamed : model.isNamed name = true) (hclosed : name ∉ opened)
    (hbody : model.expand? false name = some body) :
    model.inlinedReference dialect style opened name =
      body.docWith dialect style (model.inlinedReference dialect style (name :: opened)) := by
  rw [inlinedReference, dif_pos ⟨hnamed, hclosed⟩, hbody]

/-- **Both modes.**  The document of a key in inlined mode is that in named mode with its names
replaced; `replaced` are the names among the keys that are being expanded. -/
theorem doc_expandWithin (hguarded : model.Guarded) {fuel less : Nat}
    {opened others : List Keypath} {replaced : List Name} {key : Keypath} {whole named : TypeExpr}
    (hwhole : model.expandWithin true fuel opened key = some whole)
    (hnamed : model.expandWithin false less others key = some named)
    (hreplaced : ∀ name, model.isNamed name = true → (name ∈ replaced ↔ name ∈ key :: opened)) :
    whole.doc dialect style =
      named.docWith dialect style (model.inlinedReference dialect style replaced) := by
  induction fuel generalizing less opened others replaced key whole named with
  | zero => cases hwhole
  | succ fuel ih =>
      obtain ⟨fewer, -, hspells⟩ := exists_succ_of_expandWithin hnamed
      rw [← TypeExpr.docWith_text]
      refine (expandWithin_succ_iff.mp hwhole).docWith_eq hspells ?_
      intro child _ left right hleft hright
      by_cases hname : model.isNamed child = true
      · have hcut : model.IsCut false (key :: others) child := ⟨hname, nofun⟩
        rw [if_pos hcut] at hright
        subst hright
        by_cases hopen : child ∈ key :: opened
        · -- The name stays in both modes.
          have hboth : model.IsCut true (key :: opened) child := ⟨hname, fun _ => hopen⟩
          rw [if_pos hboth] at hleft
          subst hleft
          exact (inlinedReference_of_opened ((hreplaced child hname).mpr hopen)).symm
        · -- The inlined mode opens the declaration, and so does the replacement.
          have hclosed : child ∉ replaced := fun hmem => hopen ((hreplaced child hname).mp hmem)
          rw [if_neg fun hgiven => hopen (hgiven.2 rfl)] at hleft
          obtain ⟨body, hbody⟩ := expandWithin_of_guarded hguarded false [] child
          have hfound : model.expand? false child = some body := hbody _ (Nat.le_refl _)
          rw [TypeExpr.docWith_text, TypeExpr.docWith,
            inlinedReference_of_declaration hname hclosed hfound]
          refine ih hleft hfound fun name hgiven => ?_
          rw [List.mem_cons, List.mem_cons, hreplaced name hgiven]
      · -- A position without a name is spelled out in both modes.
        rw [if_neg fun hgiven => hname hgiven.1] at hleft hright
        rw [TypeExpr.docWith_text]
        refine ih hleft hright fun name hgiven => ?_
        rw [List.mem_cons, hreplaced name hgiven]
        exact ⟨Or.inr, fun hmem => hmem.resolve_left fun hsame => hname (hsame ▸ hgiven)⟩

/-! ## Without cycles -/

/-- A way along fields either stays off the names or comes past one. -/
theorem transGen_or_named {key child : Keypath} (hpath : Relation.TransGen model.Leads key child) :
    Relation.TransGen model.LeadsUnnamed key child ∨
      ∃ name, model.isNamed name = true ∧ Relation.TransGen model.Leads key name ∧
        Relation.ReflTransGen model.Leads name child := by
  induction hpath with
  | @single child hleads =>
      by_cases hname : model.isNamed child = true
      · exact Or.inr ⟨child, hname, .single hleads, .refl⟩
      · exact Or.inl (.single ⟨hleads, Bool.not_eq_true _ ▸ hname⟩)
  | @tail middle child hbefore hleads ih =>
      by_cases hname : model.isNamed child = true
      · exact Or.inr ⟨child, hname, hbefore.tail hleads, .refl⟩
      · rcases ih with hoff | ⟨name, hgiven, hto, hfrom⟩
        · exact Or.inl (hoff.tail ⟨hleads, Bool.not_eq_true _ ▸ hname⟩)
        · exact Or.inr ⟨name, hgiven, hto, hfrom.tail hleads⟩

/-- In a guarded model it takes a named type to close a cycle. -/
theorem Guarded.acyclicFrom (hguarded : model.Guarded) {root : Keypath}
    (hnames : ∀ name, model.isNamed name = true → Relation.ReflTransGen model.Leads root name →
      ¬ Relation.TransGen model.Leads name name) : model.AcyclicFrom root := by
  intro key hreach hcycle
  rcases transGen_or_named hcycle with hoff | ⟨name, hgiven, hto, hfrom⟩
  · exact hguarded key hoff
  · have hcyclic : Relation.TransGen model.Leads name name := .trans_right hfrom hto
    exact hnames name hgiven (hreach.trans hto.to_reflTransGen) hcyclic

/-- Where no cycle can be reached, every name is replaced by its whole type. -/
theorem AcyclicFrom.doc_expand (hguarded : model.Guarded) {root : Keypath}
    (hacyclic : model.AcyclicFrom root) {expanded : Name → TypeExpr}
    (hexpanded : ∀ name, model.expand? true name = some (expanded name)) {named : TypeExpr}
    (hnamed : model.expand? false root = some named) :
    (expanded root).doc dialect style =
      named.docWith dialect style fun name => (expanded name).doc dialect style := by
  have hroot : ∀ name, model.isNamed name = true → (name ∈ [root] ↔ name ∈ root :: []) :=
    fun name _ => Iff.rfl
  rw [doc_expandWithin hguarded (hexpanded root) hnamed hroot]
  refine named.docWith_congr dialect style fun name hname => ?_
  obtain ⟨hgiven, hbelow⟩ := mem_references_expandWithin hnamed hname
  have hother : name ∉ [root] := by
    intro hmem
    rw [List.mem_singleton] at hmem
    subst hmem
    exact hacyclic name .refl hbelow
  obtain ⟨body, hbody⟩ := expandWithin_of_guarded hguarded false [] name
  have hfound : model.expand? false name = some body := hbody _ (Nat.le_refl _)
  rw [inlinedReference_of_declaration hgiven hother hfound]
  -- Below the name it makes no difference that the root is being expanded.
  have hwhole : model.expandWithin true model.expansionDepth [root] name = some (expanded name) :=
    hacyclic.expandWithin_opened hbelow.to_reflTransGen (by simp) (by simpa using hbelow)
      (hexpanded name)
  exact (doc_expandWithin hguarded hwhole hfound fun _ _ => Iff.rfl).symm

/-- **Inlining is substitution.**  In a model in which every cycle of fields passes through a named
type, the document of a key in inlined mode is its document in named mode with every name replaced
by the document of its declaration, and so on, but for names that are being expanded already; the
key itself counts as one of them.  If no name below the key can be reached from itself, every name
is replaced by its whole inlined document, and none is left. -/
theorem inlined_eq_substituted (hguarded : model.Guarded) (dialect : Dialect) (style : Style)
    (root : Keypath) :
    ∃ named, model.expand? false root = some named ∧
      model.doc? dialect style false root = some (named.docWith dialect style .text) ∧
      model.doc? dialect style true root =
        some (named.docWith dialect style (model.inlinedReference dialect style [root])) ∧
      ((∀ name, model.isNamed name = true → Relation.ReflTransGen model.Leads root name →
          ¬ Relation.TransGen model.Leads name name) →
        ∃ whole : Name → Doc,
          (∀ name, model.doc? dialect style true name = some (whole name)) ∧
          model.doc? dialect style true root = some (named.docWith dialect style whole) ∧
          ∃ expr, model.expand? true root = some expr ∧ expr.references = []) := by
  have hwhole : ∀ name, ∃ expr, model.expand? true name = some expr := by
    intro name
    obtain ⟨expr, hexpr⟩ := expandWithin_of_guarded hguarded true [] name
    exact ⟨expr, hexpr _ (Nat.le_refl _)⟩
  choose expanded hexpanded using hwhole
  have hdocs : ∀ name, model.doc? dialect style true name =
      some ((expanded name).doc dialect style) :=
    fun name => doc?_of_expand? (hexpanded name) dialect style
  obtain ⟨named, hfuel⟩ := expandWithin_of_guarded hguarded false [] root
  have hnamed : model.expand? false root = some named := hfuel _ (Nat.le_refl _)
  refine ⟨named, hnamed, ?_, ?_, fun hnames => ?_⟩
  · rw [doc?_of_expand? hnamed, TypeExpr.docWith_text]
  · rw [hdocs, doc_expandWithin hguarded (hexpanded root) hnamed fun _ _ => Iff.rfl]
  · have hacyclic : model.AcyclicFrom root := hguarded.acyclicFrom hnames
    refine ⟨_, hdocs, ?_, expanded root, hexpanded root, ?_⟩
    · rw [hdocs, hacyclic.doc_expand hguarded hexpanded hnamed]
    · exact hacyclic.references_eq_nil (hexpanded root)

/-- Orders by customers, both of them with addresses. -/
def orders : Model :=
  let order : Shape := OrderedMap.insert (.insert .empty "customer" { key := "Customer" })
    "address" { key := "Address" }
  let customer : Shape := OrderedMap.insert .empty "home" { key := "Address" }
  let address : Shape := OrderedMap.insert .empty "lines" { key := "Address.lines" }
  (({} : Model).register "Order" 1 |>.register "Customer" 1 |>.register "Address" 1)
    |>.setShape "Order" .object order
    |>.setShape "Customer" .object customer
    |>.setShape "Address" .object address
    |>.setShape "Address.lines" .array (.ofElement "Address.lines[]")
    |>.setShape "Address.lines[]" (.scalar .string) .empty

/-- The named document of orders has two names in it, and the inlined one spells both of them out,
the second one twice. -/
theorem substituted_orders :
    orders.Guarded ∧ (∃ named, orders.expand? false "Order" = some named ∧
      orders.doc? .propTypes {} false "Order" = some (named.docWith .propTypes {} .text) ∧
      orders.doc? .propTypes {} true "Order" =
        some (named.docWith .propTypes {} (orders.inlinedReference .propTypes {} ["Order"])) ∧
      ∃ whole : Name → Doc, orders.doc? .propTypes {} true "Customer" = some (whole "Customer") ∧
        orders.doc? .propTypes {} true "Order" = some (named.docWith .propTypes {} whole)) ∧
      (orders.doc? .propTypes {} false "Order").map (Doc.layoutExpression {}) =
        some ("PropTypes.shape(\x7b customer: Customer.isRequired, " ++
          "address: Address.isRequired \x7d)").toList ∧
      (orders.doc? .propTypes {} true "Order").map (Doc.layoutExpression {}) =
        some (Text.unlines
          ["PropTypes.shape(\x7b",
            "  customer: PropTypes.shape(\x7b",
            "    home: PropTypes.shape(\x7b",
            "      lines: PropTypes.arrayOf(PropTypes.string).isRequired,",
            "    \x7d).isRequired,",
            "  \x7d).isRequired,",
            "  address: PropTypes.shape(\x7b",
            "    lines: PropTypes.arrayOf(PropTypes.string).isRequired,",
            "  \x7d).isRequired,",
            "\x7d)"]) := by
  -- The later a letter comes, the higher up; paths stand below their names.
  let rank := fun key : Keypath => 100 * (100 - (key.headD 'A').toNat) + key.length
  have hacyclic : orders.Acyclic := acyclic_of_rank rank (by decide +kernel)
  obtain ⟨named, hnamed, hbare, hinlined, hwhole⟩ :=
    inlined_eq_substituted hacyclic.guarded .propTypes {} "Order"
  obtain ⟨whole, hdocs, hroot, -⟩ := hwhole fun name _ _ => hacyclic name
  refine ⟨hacyclic.guarded, ⟨named, hnamed, hbare, hinlined, whole, hdocs "Customer", hroot⟩,
    ?_, ?_⟩
  · decide +kernel
  · decide +kernel

end Model

end Exemplar
