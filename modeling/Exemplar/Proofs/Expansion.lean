import Exemplar.Model.References
import Exemplar.Proofs.OrderedMap
import Exemplar.TypeExpr
import Mathlib.Data.List.Forall2
import Mathlib.Data.List.Perm.Subperm
import Mathlib.Logic.Relation
import Mathlib.Order.Basic

/-!
# Expansions, with fuel and without

`expandWithin` goes along the fields of a model and stops only at a named type: in
named mode at every one, in inlined mode at one whose expansion is still open.  What
it spells out at a key is settled by what it spells out at the keys below, and
`SpellsKey` says how, with the keys below left as a parameter.  From there on no
proof looks at fuel but by induction on it.

* `expandWithin_succ_iff` is one step of an expansion, read in both directions.
* `expandWithin_mono`: more fuel never changes an expression.
* `Model.Guarded` asks that every cycle of fields passes through a named type.  Then
  `expandWithin_of_guarded` finds an expression from every key, in both modes.  The
  bound counts the names that are not open yet, and for each of them one way
  through positions without a name.
* `AcyclicFrom.expandWithin_ind`: below a key from which no cycle can be reached
  nothing is cut off, and an expression is spelled out from those below it alone.
-/

namespace Exemplar

/-- Fetching a value for each item succeeds when it does for each of them. -/
theorem mapM_eq_some_iff {α β : Type} {f : α → Option β} {xs : List α} {ys : List β} :
    xs.mapM f = some ys ↔ List.Forall₂ (fun x y => f x = some y) xs ys := by
  induction xs generalizing ys with
  | nil => simp [eq_comm]
  | cons x rest ih =>
      rw [List.mapM_cons, List.forall₂_cons_left_iff]
      constructor
      · intro hall
        obtain ⟨y, hy, htail⟩ := Option.bind_eq_some_iff.mp hall
        obtain ⟨later, hlater, hlast⟩ := Option.bind_eq_some_iff.mp htail
        exact ⟨y, later, hy, ih.mp hlater, (Option.some.inj hlast).symm⟩
      · intro hall
        obtain ⟨y, later, hy, hlater, rfl⟩ := hall
        simp [hy, ih.mpr hlater]

/-- Values can be chosen one by one. -/
theorem exists_forall₂ {α β : Type} {R : α → β → Prop} {xs : List α}
    (hall : ∀ x ∈ xs, ∃ y, R x y) : ∃ ys, List.Forall₂ R xs ys := by
  induction xs with
  | nil => exact ⟨[], .nil⟩
  | cons x rest ih =>
      obtain ⟨y, hy⟩ := hall x List.mem_cons_self
      obtain ⟨ys, hys⟩ := ih fun z hz => hall z (List.mem_cons_of_mem x hz)
      exact ⟨y :: ys, .cons hy hys⟩

/-- A relation may be replaced by what it implies for the members of the list. -/
theorem forall₂_imp_of_mem {α β : Type} {R S : α → β → Prop} {xs : List α} {ys : List β}
    (hall : List.Forall₂ R xs ys) (himp : ∀ x ∈ xs, ∀ y, R x y → S x y) :
    List.Forall₂ S xs ys := by
  induction hall with
  | nil => exact .nil
  | @cons x y rest later hxy _ ih =>
      refine .cons (himp x List.mem_cons_self y hxy) (ih fun z hz => ?_)
      exact himp z (List.mem_cons_of_mem x hz)

namespace Model

variable {model : Model}

/-! ## Where fields lead -/

/-- A field at one key leads to another key. -/
def Leads (model : Model) (key child : Keypath) : Prop :=
  child ∈ model.children key

/-- A key leads where the fields of its shapes do. -/
theorem leads_iff {key child : Keypath} :
    model.Leads key child ↔
      ∃ entry ∈ (model.kinds key).entries, ∃ field ∈ entry.2.entries, field.2.key = child := by
  simp only [Leads, children, OrderedMap.values, List.mem_flatMap, List.mem_map]
  constructor
  · intro hgiven
    obtain ⟨_, ⟨entry, hentry, rfl⟩, _, ⟨field, hfield, rfl⟩, rfl⟩ := hgiven
    exact ⟨entry, hentry, field, hfield, rfl⟩
  · intro hgiven
    obtain ⟨entry, hentry, field, hfield, rfl⟩ := hgiven
    exact ⟨_, ⟨entry, hentry, rfl⟩, _, ⟨field, hfield, rfl⟩, rfl⟩

/-- Only a stored key has fields. -/
theorem Leads.stored {key child : Keypath} (hleads : model.Leads key child) :
    key ∈ model.shapes.keys := by
  obtain ⟨entry, hentry, -⟩ := leads_iff.mp hleads
  cases hfound : model.shapes.get? key with
  | none => simp [kinds, hfound, OrderedMap.empty] at hentry
  | some kinds => exact (model.shapes.mem_keys_iff key).mpr ⟨kinds, hfound⟩

/-- A field leads to a key that is not the name of a type. -/
def LeadsUnnamed (model : Model) (key child : Keypath) : Prop :=
  model.Leads key child ∧ model.isNamed child = false

/-- **Guarded models.**  Every cycle of fields passes through a named type. -/
def Guarded (model : Model) : Prop :=
  ∀ key, ¬ Relation.TransGen model.LeadsUnnamed key key

/-- No key that can be reached from a given one can be reached from itself. -/
def AcyclicFrom (model : Model) (root : Keypath) : Prop :=
  ∀ key, Relation.ReflTransGen model.Leads root key → ¬ Relation.TransGen model.Leads key key

/-- **Acyclic models.**  No key can be reached from itself along one or more fields. -/
def Acyclic (model : Model) : Prop :=
  ∀ key, ¬ Relation.TransGen model.Leads key key

/-- Where no key can be reached from itself, none that can be reached from a root can. -/
theorem Acyclic.from (hacyclic : model.Acyclic) (root : Keypath) : model.AcyclicFrom root :=
  fun key _ => hacyclic key

/-- A model without cycles is guarded. -/
theorem Acyclic.guarded (hacyclic : model.Acyclic) : model.Guarded :=
  fun key hcycle =>
    have hleads : model.LeadsUnnamed ≤ model.Leads := fun _ _ hstep => hstep.1
    hacyclic key (Relation.TransGen.mono hleads _ _ hcycle)

/-- What grows along every step never comes back. -/
theorem not_transGen_of_rank {α : Type} [Preorder α] {step : Keypath → Keypath → Prop}
    (rank : Keypath → α) (hrank : ∀ key child, step key child → rank key < rank child)
    (key : Keypath) :
    ¬ Relation.TransGen step key key := by
  have hgrows : ∀ child, Relation.TransGen step key child → rank key < rank child := by
    intro child hpath
    induction hpath with
    | single hstep => exact hrank _ _ hstep
    | tail _ hstep ih => exact ih.trans (hrank _ _ hstep)
  intro hcycle
  exact lt_irrefl _ (hgrows key hcycle)

/-- A model is guarded if some rank grows along every field to a key without a name. -/
theorem guarded_of_rank {α : Type} [Preorder α] (rank : Keypath → α)
    (hrank : ∀ key ∈ model.shapes.keys, ∀ child ∈ model.children key,
      model.isNamed child = false → rank key < rank child) : model.Guarded :=
  not_transGen_of_rank rank fun key child hstep =>
    hrank key hstep.1.stored child hstep.1 hstep.2

/-- A model is acyclic if some rank grows along every field. -/
theorem acyclic_of_rank {α : Type} [Preorder α] (rank : Keypath → α)
    (hrank : ∀ key ∈ model.shapes.keys, ∀ child ∈ model.children key, rank key < rank child) :
    model.Acyclic :=
  not_transGen_of_rank rank fun key child hstep => hrank key hstep.stored child hstep

/-! ## One step of an expansion -/

/-- The outside of a field of an object type. -/
def outside (model : Model) (field : Text × FieldRef) : Field where
  name := field.1
  required := field.2.required
  nullable := model.isNullable field.2.key

/-- How the values of one kind are spelled out, where `refers` says how the keys are to which
their fields lead. -/
inductive SpellsKind (model : Model) (refers : Keypath → TypeExpr → Prop) :
    Kind → Shape → TypeExpr → Prop
  | scalar (kind : Scalar) (shape : Shape) :
      SpellsKind model refers (.scalar kind) shape (.scalar kind)
  | anyArray {shape : Shape}
      (hunknown : ∀ element, shape.element? = some element → model.has element.key = false) :
      SpellsKind model refers .array shape .anyArray
  | array {shape : Shape} {element : FieldRef} {expr : TypeExpr}
      (hfound : shape.element? = some element) (hknown : model.has element.key = true)
      (hspelled : refers element.key expr) : SpellsKind model refers .array shape (.array expr)
  | object {shape : Shape} {fields : List (Field × TypeExpr)}
      (hspelled : List.Forall₂ (fun entry field => field.1 = model.outside entry ∧
        refers entry.2.key field.2) shape.entries fields) :
      SpellsKind model refers .object shape (.object fields)

/-- How the values at a key are spelled out: one alternative for each kind. -/
def SpellsKey (model : Model) (refers : Keypath → TypeExpr → Prop) (key : Keypath)
    (expr : TypeExpr) : Prop :=
  ∃ alternatives, List.Forall₂ (fun entry alternative =>
      model.SpellsKind refers entry.1 entry.2 alternative) (model.kinds key).entries alternatives ∧
    expr = .ofAlternatives alternatives

/-- The element of an array is one of the fields of its shape. -/
theorem element_mem {shape : Shape} {element : FieldRef}
    (hfound : shape.element? = some element) : (elementMark, element) ∈ shape.entries :=
  (shape.mem_entries_iff _ _).mpr hfound

/-- What is spelled out for a kind depends on the keys to which its fields lead. -/
theorem SpellsKind.imp {refers others : Keypath → TypeExpr → Prop} {kind : Kind} {shape : Shape}
    {expr : TypeExpr} (hspells : model.SpellsKind refers kind shape expr)
    (himp : ∀ field ∈ shape.entries, ∀ expr, refers field.2.key expr → others field.2.key expr) :
    model.SpellsKind others kind shape expr := by
  cases hspells with
  | scalar kind shape => exact .scalar kind shape
  | anyArray hunknown => exact .anyArray hunknown
  | array hfound hknown hspelled =>
      exact .array hfound hknown (himp _ (element_mem hfound) _ hspelled)
  | object hspelled =>
      refine .object (forall₂_imp_of_mem hspelled fun entry hentry field hfield => ?_)
      exact ⟨hfield.1, himp entry hentry field.2 hfield.2⟩

/-- What is spelled out at a key depends on the keys to which its fields lead. -/
theorem SpellsKey.imp {refers others : Keypath → TypeExpr → Prop} {key : Keypath}
    {expr : TypeExpr} (hspells : model.SpellsKey refers key expr)
    (himp : ∀ child, model.Leads key child → ∀ expr, refers child expr → others child expr) :
    model.SpellsKey others key expr := by
  obtain ⟨alternatives, hall, rfl⟩ := hspells
  refine ⟨alternatives, forall₂_imp_of_mem hall fun entry hentry expr hexpr => ?_, rfl⟩
  refine hexpr.imp fun field hfield => himp field.2.key ?_
  exact leads_iff.mpr ⟨entry, hentry, field, hfield, rfl⟩

/-- A kind can be spelled out if all keys can to which its fields lead. -/
theorem exists_spellsKind {refers : Keypath → TypeExpr → Prop} (kind : Kind) {shape : Shape}
    (hall : ∀ field ∈ shape.entries, ∃ expr, refers field.2.key expr) :
    ∃ expr, model.SpellsKind refers kind shape expr := by
  cases kind with
  | scalar s => exact ⟨_, .scalar s shape⟩
  | object =>
      have hfields : ∃ fields, List.Forall₂ (fun entry (field : Field × TypeExpr) =>
          field.1 = model.outside entry ∧ refers entry.2.key field.2) shape.entries fields := by
        refine exists_forall₂ fun entry hentry => ?_
        obtain ⟨expr, hexpr⟩ := hall entry hentry
        exact ⟨(model.outside entry, expr), rfl, hexpr⟩
      obtain ⟨fields, hfields⟩ := hfields
      exact ⟨_, .object hfields⟩
  | array =>
      cases hfound : shape.element? with
      | none => exact ⟨_, .anyArray fun element hsome => by simp [hfound] at hsome⟩
      | some element =>
          by_cases hknown : model.has element.key = true
          · obtain ⟨expr, hexpr⟩ := hall _ (element_mem hfound)
            exact ⟨_, .array hfound hknown hexpr⟩
          · refine ⟨_, .anyArray fun other hsome => ?_⟩
            obtain rfl : element = other := Option.some.inj (hfound.symm.trans hsome)
            exact Bool.not_eq_true _ ▸ hknown

/-- Something is spelled out at a key if it is at all keys to which its fields lead. -/
theorem exists_spellsKey {refers : Keypath → TypeExpr → Prop} {key : Keypath}
    (hall : ∀ child, model.Leads key child → ∃ expr, refers child expr) :
    ∃ expr, model.SpellsKey refers key expr := by
  have halternatives : ∃ alternatives, List.Forall₂ (fun entry alternative =>
      model.SpellsKind refers entry.1 entry.2 alternative) (model.kinds key).entries
      alternatives := by
    refine exists_forall₂ fun entry hentry => ?_
    refine exists_spellsKind entry.1 fun field hfield => hall field.2.key ?_
    exact leads_iff.mpr ⟨entry, hentry, field, hfield, rfl⟩
  obtain ⟨alternatives, halternatives⟩ := halternatives
  exact ⟨_, alternatives, halternatives, rfl⟩

/-- A scalar kind is spelled out as itself. -/
theorem spellsKind_scalar_iff {refers : Keypath → TypeExpr → Prop} {kind : Scalar} {shape : Shape}
    {expr : TypeExpr} :
    model.SpellsKind refers (.scalar kind) shape expr ↔ .scalar kind = expr := by
  constructor
  · intro hspells
    cases hspells
    rfl
  · intro hexpr
    subst hexpr
    exact .scalar kind shape

/-- Arrays of which no element is known are spelled out as any arrays. -/
theorem spellsKind_anyArray_iff {refers : Keypath → TypeExpr → Prop} {shape : Shape}
    {expr : TypeExpr}
    (hunknown : ∀ element, shape.element? = some element → model.has element.key = false) :
    model.SpellsKind refers .array shape expr ↔ .anyArray = expr := by
  constructor
  · intro hspells
    cases hspells with
    | anyArray => rfl
    | array hfound hknown => simp [hunknown _ hfound] at hknown
  · intro hexpr
    subst hexpr
    exact .anyArray hunknown

/-- Arrays are spelled out from what is spelled out for their elements. -/
theorem spellsKind_array_iff {refers : Keypath → TypeExpr → Prop} {shape : Shape}
    {element : FieldRef} {expr : TypeExpr} (hfound : shape.element? = some element)
    (hknown : model.has element.key = true) :
    model.SpellsKind refers .array shape expr ↔
      ∃ inner, refers element.key inner ∧ .array inner = expr := by
  constructor
  · intro hspells
    cases hspells with
    | anyArray hunknown => simp [hunknown element hfound] at hknown
    | array hother _ hinner =>
        obtain rfl := Option.some.inj (hfound.symm.trans hother)
        exact ⟨_, hinner, rfl⟩
  · intro hexpr
    obtain ⟨inner, hinner, rfl⟩ := hexpr
    exact .array hfound hknown hinner

/-- Objects are spelled out field by field, in the order of the fields. -/
theorem spellsKind_object_iff {refers : Keypath → TypeExpr → Prop} {shape : Shape}
    {expr : TypeExpr} :
    model.SpellsKind refers .object shape expr ↔
      ∃ fields, List.Forall₂ (fun entry field => field.1 = model.outside entry ∧
        refers entry.2.key field.2) shape.entries fields ∧ .object fields = expr := by
  constructor
  · intro hspells
    cases hspells with
    | object hspelled => exact ⟨_, hspelled, rfl⟩
  · intro hexpr
    obtain ⟨fields, hspelled, rfl⟩ := hexpr
    exact .object hspelled

/-- The expression of a kind is what is spelled out for it. -/
theorem kindExpr?_eq_some_iff {refer : Keypath → Option TypeExpr} {kind : Kind} {shape : Shape}
    {expr : TypeExpr} :
    model.kindExpr? refer kind shape = some expr ↔
      model.SpellsKind (fun child expr => refer child = some expr) kind shape expr := by
  cases kind with
  | scalar s => rw [spellsKind_scalar_iff, kindExpr?, Option.some.injEq]
  | array =>
      cases hfound : shape.element? with
      | none =>
          have hunknown : ∀ element, shape.element? = some element →
              model.has element.key = false := by
            simp [hfound]
          simp only [spellsKind_anyArray_iff hunknown, kindExpr?, hfound, Option.some.injEq]
      | some element =>
          by_cases hknown : model.has element.key = true
          · simp only [spellsKind_array_iff hfound hknown, kindExpr?, hfound, hknown, if_true,
              Option.map_eq_map, Option.map_eq_some_iff]
          · have hunknown : ∀ other, shape.element? = some other →
                model.has other.key = false := by
              simpa [hfound] using hknown
            simp only [spellsKind_anyArray_iff hunknown, kindExpr?, hfound, hknown, if_false,
              Option.some.injEq, Bool.false_eq_true]
  | object =>
      have hfield : ∀ (entry : Text × FieldRef) (field : Field × TypeExpr),
          (do
            let value ← refer entry.2.key
            return (model.outside entry, value)) = some field ↔
          field.1 = model.outside entry ∧ refer entry.2.key = some field.2 := by
        intro entry field
        obtain ⟨outer, value⟩ := field
        cases refer entry.2.key <;> simp [eq_comm]
      simp only [spellsKind_object_iff, ← hfield, ← mapM_eq_some_iff]
      rw [kindExpr?, Option.bind_eq_bind, Option.bind_eq_some_iff]
      simp only [outside, Option.pure_def, Option.some.injEq]

/-- A name stands for its type where that is not spelled out: in named mode everywhere, in
inlined mode below an open expansion of the type. -/
def IsCut (model : Model) (inlined : Bool) (opened : List Keypath) (key : Keypath) : Prop :=
  model.isNamed key = true ∧ (inlined = true → key ∈ opened)

instance (model : Model) (inlined : Bool) (opened : List Keypath) (key : Keypath) :
    Decidable (model.IsCut inlined opened key) :=
  inferInstanceAs (Decidable (_ ∧ _))

/-- A key is referred to by its name where it is cut off, and spelled out elsewhere. -/
theorem refer?_eq {inlined : Bool} {opened : List Keypath} {expand : Keypath → Option TypeExpr}
    (key : Keypath) :
    model.refer? inlined opened expand key =
      if model.IsCut inlined opened key then some (.reference key) else expand key := by
  have hiff : (model.isNamed key && (!inlined || opened.contains key)) = true ↔
      model.IsCut inlined opened key := by
    cases inlined <;> simp [IsCut]
  simp only [refer?, hiff]

/-- **One step.**  A key is spelled out from what the keys of its fields refer to. -/
theorem expandWithin_succ_iff {inlined : Bool} {fuel : Nat} {opened : List Keypath}
    {key : Keypath} {expr : TypeExpr} :
    model.expandWithin inlined (fuel + 1) opened key = some expr ↔
      model.SpellsKey (fun child expr =>
        if model.IsCut inlined (key :: opened) child then expr = .reference child
        else model.expandWithin inlined fuel (key :: opened) child = some expr) key expr := by
  have hrefer : ∀ child expr,
      model.refer? inlined (key :: opened) (model.expandWithin inlined fuel (key :: opened)) child =
        some expr ↔
      if model.IsCut inlined (key :: opened) child then expr = .reference child
      else model.expandWithin inlined fuel (key :: opened) child = some expr := by
    intro child expr
    rw [refer?_eq]
    split
    · simp [eq_comm]
    · rfl
  have hkinds : ∀ alternatives, ((model.kinds key).entries.mapM fun entry =>
      model.kindExpr? (model.refer? inlined (key :: opened)
        (model.expandWithin inlined fuel (key :: opened))) entry.1 entry.2) = some alternatives ↔
      List.Forall₂ (fun entry alternative => model.SpellsKind (fun child expr =>
        if model.IsCut inlined (key :: opened) child then expr = .reference child
        else model.expandWithin inlined fuel (key :: opened) child = some expr)
        entry.1 entry.2 alternative) (model.kinds key).entries alternatives := by
    intro alternatives
    simp only [mapM_eq_some_iff, kindExpr?_eq_some_iff, hrefer]
  constructor
  · intro hexpr
    obtain ⟨alternatives, hall, hlast⟩ := Option.bind_eq_some_iff.mp hexpr
    exact ⟨alternatives, (hkinds alternatives).mp hall, (Option.some.inj hlast).symm⟩
  · intro hspells
    obtain ⟨alternatives, hall, rfl⟩ := hspells
    exact Option.bind_eq_some_iff.mpr ⟨alternatives, (hkinds alternatives).mpr hall, rfl⟩

/-- What has an expression had fuel for one step. -/
theorem exists_succ_of_expandWithin {inlined : Bool} {fuel : Nat} {opened : List Keypath}
    {key : Keypath} {expr : TypeExpr}
    (hexpr : model.expandWithin inlined fuel opened key = some expr) :
    ∃ less, fuel = less + 1 ∧
      model.SpellsKey (fun child expr =>
        if model.IsCut inlined (key :: opened) child then expr = .reference child
        else model.expandWithin inlined less (key :: opened) child = some expr) key expr := by
  cases fuel with
  | zero => cases hexpr
  | succ less => exact ⟨less, rfl, expandWithin_succ_iff.mp hexpr⟩

/-- More fuel never changes an expression. -/
theorem expandWithin_mono {inlined : Bool} {fuel more : Nat} {opened : List Keypath}
    {key : Keypath} {expr : TypeExpr} (hle : fuel ≤ more)
    (hexpr : model.expandWithin inlined fuel opened key = some expr) :
    model.expandWithin inlined more opened key = some expr := by
  induction fuel generalizing more opened key expr with
  | zero => cases hexpr
  | succ fuel ih =>
      obtain ⟨rest, rfl⟩ : ∃ rest, more = rest + 1 := ⟨more - 1, by omega⟩
      refine expandWithin_succ_iff.mpr ((expandWithin_succ_iff.mp hexpr).imp ?_)
      intro child _ inner hinner
      by_cases hcut : model.IsCut inlined (key :: opened) child
      · simpa only [hcut, if_true] using hinner
      · simp only [hcut, if_false] at hinner ⊢
        exact ih (by omega) hinner

/-! ## Enough fuel -/

/-- The number of names whose expansions are not open. -/
def closedNames (model : Model) (opened : List Keypath) : Nat :=
  (model.named.keys.filter fun name => !opened.contains name).length

/-- To open a key leaves no more closed names. -/
theorem closedNames_cons_le (opened : List Keypath) (key : Keypath) :
    model.closedNames (key :: opened) ≤ model.closedNames opened := by
  refine (List.monotone_filter_right _ fun name hclosed => ?_).length_le
  simp only [List.contains_cons, Bool.not_or, Bool.and_eq_true] at hclosed
  exact hclosed.2

/-- To open a named type leaves fewer closed ones. -/
theorem closedNames_cons_lt {opened : List Keypath} {name : Name}
    (hnamed : model.isNamed name = true) (hclosed : name ∉ opened) :
    model.closedNames (name :: opened) < model.closedNames opened := by
  have hsplit : model.closedNames (name :: opened) =
      ((model.named.keys.filter fun other => !opened.contains other).filter
        fun other => !other == name).length := by
    simp only [closedNames, List.filter_filter, List.contains_cons, Bool.not_or]
  rw [hsplit]
  refine List.length_filter_lt_length_iff_exists.mpr ⟨name, ?_, by simp⟩
  simp only [List.mem_filter]
  exact ⟨(model.named.contains_iff name).mp hnamed, by simpa using hclosed⟩

/-- No more names are closed than there are. -/
theorem closedNames_le (model : Model) (opened : List Keypath) :
    model.closedNames opened ≤ model.named.size := by
  rw [OrderedMap.size, ← List.length_map Prod.fst]
  exact List.length_filter_le _ _

/-- The keys of a way on which no name was met: each of them is stored and leads to the end of the
way through positions without a name. -/
structure IsStretch (model : Model) (stretch : List Keypath) (key : Keypath) : Prop where
  nodup : stretch.Nodup
  stored : ∀ other ∈ stretch, other ∈ model.shapes.keys
  above : ∀ other ∈ stretch, Relation.TransGen model.LeadsUnnamed other key

/-- A stretch begins at any key. -/
theorem IsStretch.nil (model : Model) (key : Keypath) : model.IsStretch [] key :=
  ⟨.nil, by simp, by simp⟩

/-- A stretch is no longer than the list of all stored keys. -/
theorem IsStretch.length_le {stretch : List Keypath} {key : Keypath}
    (hstretch : model.IsStretch stretch key) : stretch.length ≤ model.shapes.size := by
  have hle := (hstretch.nodup.subperm hstretch.stored).length_le
  simpa [OrderedMap.size, OrderedMap.keys] using hle

/-- A step to a key without a name makes a stretch longer; in a guarded model it comes to a key that
is not on the stretch. -/
theorem IsStretch.cons {stretch : List Keypath} {key child : Keypath}
    (hstretch : model.IsStretch stretch key) (hguarded : model.Guarded)
    (hstep : model.LeadsUnnamed key child) : model.IsStretch (key :: stretch) child where
  nodup := List.nodup_cons.mpr ⟨fun hmem => hguarded key (hstretch.above key hmem), hstretch.nodup⟩
  stored := List.forall_mem_cons.mpr ⟨hstep.1.stored, hstretch.stored⟩
  above := List.forall_mem_cons.mpr
    ⟨.single hstep, fun other hother => (hstretch.above other hother).tail hstep⟩

/-- An expansion ends when the fuel lasts for the names that are still closed, each with a way
through all stored keys, and for the rest of the present stretch. -/
theorem exists_expandWithin (hguarded : model.Guarded) {inlined : Bool} {fuel : Nat}
    {opened stretch : List Keypath} {key : Keypath} (hstretch : model.IsStretch stretch key)
    (hfuel : model.closedNames (key :: opened) * (model.shapes.size + 1) +
      (model.shapes.size - stretch.length) < fuel) :
    ∃ expr, model.expandWithin inlined fuel opened key = some expr := by
  induction fuel generalizing opened stretch key with
  | zero => omega
  | succ fuel ih =>
      have hchildren : ∀ child, model.Leads key child → ∃ expr,
          if model.IsCut inlined (key :: opened) child then expr = .reference child
          else model.expandWithin inlined fuel (key :: opened) child = some expr := by
        intro child hleads
        by_cases hcut : model.IsCut inlined (key :: opened) child
        · exact ⟨.reference child, by simp only [hcut, if_true]⟩
        simp only [hcut, if_false]
        by_cases hnamed : model.isNamed child = true
        · -- A new named type is opened, and a new stretch begins below it.
          have hclosed : child ∉ key :: opened := fun hmem => hcut ⟨hnamed, fun _ => hmem⟩
          have hfewer := closedNames_cons_lt hnamed hclosed
          have hmul := Nat.mul_le_mul_right (model.shapes.size + 1) hfewer
          rw [Nat.succ_mul] at hmul
          exact ih (.nil model child) (by rw [List.length_nil]; omega)
        · have hstep : model.LeadsUnnamed key child := ⟨hleads, Bool.not_eq_true _ ▸ hnamed⟩
          have hlonger := hstretch.cons hguarded hstep
          have hroom := hlonger.length_le
          have hfewer : model.closedNames (child :: key :: opened) ≤
            model.closedNames (key :: opened) := closedNames_cons_le _ _
          have hmul := Nat.mul_le_mul_right (model.shapes.size + 1) hfewer
          rw [List.length_cons] at hroom
          exact ih hlonger (by rw [List.length_cons]; omega)
      obtain ⟨expr, hexpr⟩ := exists_spellsKey hchildren
      exact ⟨expr, expandWithin_succ_iff.mpr hexpr⟩

/-- **Enough fuel.**  In a guarded model every key has an expression, whatever is open around it. -/
theorem expandWithin_of_guarded (hguarded : model.Guarded) (inlined : Bool)
    (opened : List Keypath) (key : Keypath) :
    ∃ expr, ∀ fuel, model.expansionDepth ≤ fuel →
      model.expandWithin inlined fuel opened key = some expr := by
  have hfewer := model.closedNames_le (key :: opened)
  have hmul := Nat.mul_le_mul_right (model.shapes.size + 1) hfewer
  have hfuel : model.closedNames (key :: opened) * (model.shapes.size + 1) +
      (model.shapes.size - ([] : List Keypath).length) < model.expansionDepth := by
    rw [expansionDepth, Nat.succ_mul, List.length_nil]
    omega
  obtain ⟨expr, hexpr⟩ : ∃ expr,
      model.expandWithin inlined model.expansionDepth opened key = some expr :=
    exists_expandWithin hguarded (.nil model key) hfuel
  exact ⟨expr, fun fuel hle => expandWithin_mono hle hexpr⟩

/-- In a guarded model every key has an expression in both modes. -/
theorem exists_expand? (hguarded : model.Guarded) (inlined : Bool) (key : Keypath) :
    ∃ expr, model.expand? inlined key = some expr := by
  obtain ⟨expr, hfuel⟩ := expandWithin_of_guarded hguarded inlined [] key
  exact ⟨expr, hfuel _ (Nat.le_refl _)⟩

/-! ## Where nothing is cut off -/

/-- What is open around a key leads to the keys below it, and so does the key. -/
theorem transGen_cons {opened : List Keypath} {key child : Keypath}
    (habove : ∀ other ∈ opened, Relation.TransGen model.Leads other key)
    (hleads : model.Leads key child) :
    ∀ other ∈ key :: opened, Relation.TransGen model.Leads other child := by
  refine List.forall_mem_cons.mpr ⟨.single hleads, fun other hother => ?_⟩
  exact (habove other hother).tail hleads

/-- A key to which everything open leads is not cut off, unless it can be reached from itself. -/
theorem not_isCut {opened : List Keypath} {key : Keypath}
    (habove : ∀ other ∈ opened, Relation.TransGen model.Leads other key)
    (hacyclic : ¬ Relation.TransGen model.Leads key key) : ¬ model.IsCut true opened key :=
  fun hcut => hacyclic (habove key (hcut.2 rfl))

/-- **Below no cycle.**  Where no cycle can be reached, and so nothing is cut off, a property of
expressions holds at a key if it follows from those of the keys to which its fields lead. -/
theorem AcyclicFrom.expandWithin_ind {P : Nat → Keypath → TypeExpr → Prop} {root : Keypath}
    (hacyclic : model.AcyclicFrom root)
    (hstep : ∀ fuel key expr, model.SpellsKey (P fuel) key expr → P (fuel + 1) key expr)
    {fuel : Nat} {opened : List Keypath} {key : Keypath} {expr : TypeExpr}
    (hreach : Relation.ReflTransGen model.Leads root key)
    (habove : ∀ other ∈ opened, Relation.TransGen model.Leads other key)
    (hexpr : model.expandWithin true fuel opened key = some expr) : P fuel key expr := by
  induction fuel generalizing opened key expr with
  | zero => cases hexpr
  | succ fuel ih =>
      refine hstep fuel key expr ((expandWithin_succ_iff.mp hexpr).imp ?_)
      intro child hleads inner hinner
      have hbelow := transGen_cons habove hleads
      rw [if_neg (not_isCut hbelow (hacyclic child (hreach.tail hleads)))] at hinner
      exact ih (hreach.tail hleads) hbelow hinner

/-- What is open around a key makes no difference where no cycle can be reached. -/
theorem AcyclicFrom.expandWithin_opened {root : Keypath} (hacyclic : model.AcyclicFrom root)
    {fuel : Nat} {opened others : List Keypath} {key : Keypath} {expr : TypeExpr}
    (hreach : Relation.ReflTransGen model.Leads root key)
    (habove : ∀ other ∈ opened, Relation.TransGen model.Leads other key)
    (hothers : ∀ other ∈ others, Relation.TransGen model.Leads other key)
    (hexpr : model.expandWithin true fuel opened key = some expr) :
    model.expandWithin true fuel others key = some expr := by
  let P := fun (fuel : Nat) (key : Keypath) (expr : TypeExpr) =>
    Relation.ReflTransGen model.Leads root key → ∀ others : List Keypath,
      (∀ other ∈ others, Relation.TransGen model.Leads other key) →
      model.expandWithin true fuel others key = some expr
  refine hacyclic.expandWithin_ind (P := P) ?_ hreach habove hexpr hreach others hothers
  intro fuel key expr hspells hreach others hothers
  refine expandWithin_succ_iff.mpr (hspells.imp fun child hleads inner hinner => ?_)
  have hbelow := transGen_cons hothers hleads
  rw [if_neg (not_isCut hbelow (hacyclic child (hreach.tail hleads)))]
  exact hinner (hreach.tail hleads) _ hbelow

end Model

/-! ## Names that are left -/

mutual

/-- The names that stand in a type expression, in order. -/
def TypeExpr.references : TypeExpr → List Name
  | .reference name => [name]
  | .scalar _ => []
  | .anyArray => []
  | .array element => element.references
  | .object fields => fieldReferences fields
  | .union alternatives => alternativeReferences alternatives

/-- The names in the types of some fields. -/
def fieldReferences : List (Field × TypeExpr) → List Name
  | [] => []
  | (_, value) :: rest => value.references ++ fieldReferences rest

/-- The names in some type expressions. -/
def alternativeReferences : List TypeExpr → List Name
  | [] => []
  | expr :: rest => expr.references ++ alternativeReferences rest

end

/-- The names in fields are those in their types. -/
theorem mem_fieldReferences_iff (fields : List (Field × TypeExpr)) (name : Name) :
    name ∈ fieldReferences fields ↔ ∃ field ∈ fields, name ∈ field.2.references := by
  induction fields with
  | nil => simp [fieldReferences]
  | cons field rest ih => simp [fieldReferences, ih]

/-- The names in several expressions are those in each of them. -/
theorem mem_alternativeReferences_iff (exprs : List TypeExpr) (name : Name) :
    name ∈ alternativeReferences exprs ↔ ∃ expr ∈ exprs, name ∈ expr.references := by
  induction exprs with
  | nil => simp [alternativeReferences]
  | cons expr rest ih => simp [alternativeReferences, ih]

/-- The names in a union are those in its alternatives, however many there are. -/
theorem mem_references_ofAlternatives_iff (alternatives : List TypeExpr) (name : Name) :
    name ∈ (TypeExpr.ofAlternatives alternatives).references ↔
      ∃ expr ∈ alternatives, name ∈ expr.references := by
  match alternatives with
  | [] => simp [TypeExpr.ofAlternatives, TypeExpr.any, TypeExpr.references]
  | [expr] => simp [TypeExpr.ofAlternatives]
  | first :: second :: later =>
      exact mem_alternativeReferences_iff (first :: second :: later) name

/-- What stands on the right of a relation has a partner on the left. -/
theorem exists_of_mem_right {α β : Type} {R : α → β → Prop} {xs : List α} {ys : List β}
    (hall : List.Forall₂ R xs ys) {y : β} (hmem : y ∈ ys) : ∃ x ∈ xs, R x y := by
  induction hall with
  | nil => exact absurd hmem List.not_mem_nil
  | @cons x _ _ _ hxy _ ih =>
      rcases List.mem_cons.mp hmem with rfl | hmem
      · exact ⟨x, List.mem_cons_self, hxy⟩
      · obtain ⟨z, hz, hzy⟩ := ih hmem
        exact ⟨z, List.mem_cons_of_mem x hz, hzy⟩

namespace Model

variable {model : Model}

/-- A name in what is spelled out for a kind comes from that for a key to which a field leads. -/
theorem SpellsKind.exists_of_mem_references {refers : Keypath → TypeExpr → Prop} {kind : Kind}
    {shape : Shape} {expr : TypeExpr} {name : Name}
    (hspells : model.SpellsKind refers kind shape expr) (hname : name ∈ expr.references) :
    ∃ field ∈ shape.entries, ∃ inner, refers field.2.key inner ∧ name ∈ inner.references := by
  cases hspells with
  | scalar kind shape => simp [TypeExpr.references] at hname
  | anyArray hunknown => simp [TypeExpr.references] at hname
  | array hfound hknown hspelled =>
      exact ⟨_, element_mem hfound, _, hspelled, by simpa [TypeExpr.references] using hname⟩
  | object hspelled =>
      rw [TypeExpr.references, mem_fieldReferences_iff] at hname
      obtain ⟨field, hfield, hmem⟩ := hname
      obtain ⟨entry, hentry, -, hinner⟩ := exists_of_mem_right hspelled hfield
      exact ⟨entry, hentry, field.2, hinner, hmem⟩

/-- A name in the expression of a key comes from that of a key to which a field leads. -/
theorem SpellsKey.exists_of_mem_references {refers : Keypath → TypeExpr → Prop} {key : Keypath}
    {expr : TypeExpr} {name : Name} (hspells : model.SpellsKey refers key expr)
    (hname : name ∈ expr.references) :
    ∃ child inner, model.Leads key child ∧ refers child inner ∧ name ∈ inner.references := by
  obtain ⟨alternatives, hall, rfl⟩ := hspells
  obtain ⟨alternative, halternative, hmem⟩ :=
    (mem_references_ofAlternatives_iff alternatives name).mp hname
  obtain ⟨entry, hentry, hkind⟩ := exists_of_mem_right hall halternative
  obtain ⟨field, hfield, inner, hinner, hlast⟩ := hkind.exists_of_mem_references hmem
  exact ⟨_, inner, leads_iff.mpr ⟨entry, hentry, field, hfield, rfl⟩, hinner, hlast⟩

/-- The names in an expression are those of named types to which its key leads. -/
theorem mem_references_expandWithin {inlined : Bool} {fuel : Nat} {opened : List Keypath}
    {key : Keypath} {expr : TypeExpr} {name : Name}
    (hexpr : model.expandWithin inlined fuel opened key = some expr)
    (hname : name ∈ expr.references) :
    model.isNamed name = true ∧ Relation.TransGen model.Leads key name := by
  induction fuel generalizing opened key expr with
  | zero => cases hexpr
  | succ fuel ih =>
      obtain ⟨child, inner, hleads, hinner, hmem⟩ :=
        (expandWithin_succ_iff.mp hexpr).exists_of_mem_references hname
      by_cases hcut : model.IsCut inlined (key :: opened) child
      · rw [if_pos hcut] at hinner
        subst hinner
        obtain rfl : name = child := by simpa [TypeExpr.references] using hmem
        exact ⟨hcut.1, .single hleads⟩
      · rw [if_neg hcut] at hinner
        obtain ⟨hnamed, hreach⟩ := ih hinner hmem
        exact ⟨hnamed, .head hleads hreach⟩

/-- **Nothing is left out.**  Where no cycle can be reached, an inlined expression has no names. -/
theorem AcyclicFrom.references_eq_nil {root : Keypath} (hacyclic : model.AcyclicFrom root)
    {fuel : Nat} {expr : TypeExpr}
    (hexpr : model.expandWithin true fuel [] root = some expr) : expr.references = [] := by
  refine hacyclic.expandWithin_ind (P := fun _ _ expr => expr.references = []) ?_ .refl (by simp)
    hexpr
  intro fuel key expr hspells
  refine List.eq_nil_iff_forall_not_mem.mpr fun name hname => ?_
  obtain ⟨child, inner, -, hinner, hmem⟩ := hspells.exists_of_mem_references hname
  simp [hinner] at hmem

end Model

end Exemplar
