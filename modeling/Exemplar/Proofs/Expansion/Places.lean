import Exemplar.Proofs.Mentions
import Mathlib.Order.Nat

/-!
# What stands at a place of an inlined type

A place in a type is a list of steps down from its root, each to a field of objects
or to the elements of arrays.  In a type expression `at?` finds what is written there.
In a model `follow?` finds which key the place belongs to and whose expansions are
open around it, from the shapes alone.

`at?_rel` says that the two go together all the way: a key is written as a bare name
exactly where it is named and one of its expansions is open, and as the types of all
its kinds everywhere else.  `inlined_of_guarded` states this for the whole expression
of a key, together with the fact that a guarded model has one.

The names that a document writes are the references of its expression, and these are the
names at its places (`mem_references_iff_at?`).
-/

namespace Exemplar

/-- A step down in a type. -/
inductive Step where
  /-- To the field of objects with a given name. -/
  | member (name : Text)
  /-- To the elements of arrays. -/
  | element
deriving DecidableEq, Repr

/-- The kind of the values that have the part to which a step leads. -/
def Step.kind : Step → Kind
  | member _ => .object
  | element => .array

namespace TypeExpr

/-- The part of a single alternative one step down. -/
def partOf? (step : Step) : TypeExpr → Option TypeExpr
  | .object fields =>
      match step with
      | .member name => (fields.find? fun field => field.1.name == name).map Prod.snd
      | .element => none
  | .array element =>
      match step with
      | .member _ => none
      | .element => some element
  | _ => none

/-- The part of a type one step down. -/
def part? (step : Step) : TypeExpr → Option TypeExpr
  | .union alternatives => alternatives.findSome? (partOf? step)
  | expr => expr.partOf? step

/-- The part of a type at a place. -/
def at? : List Step → TypeExpr → Option TypeExpr
  | [], expr => some expr
  | step :: rest, expr => (expr.part? step).bind (at? rest)

/-- The kind of the values of a single alternative; names and unions are none. -/
def kindOf? : TypeExpr → Option Kind
  | .scalar kind => some (.scalar kind)
  | .anyArray => some .array
  | .array _ => some .array
  | .object _ => some .object
  | .reference _ => none
  | .union _ => none

/-- The kinds of the alternatives that a type spells out; a bare name spells out none. -/
def kinds : TypeExpr → List Kind
  | .union alternatives => alternatives.filterMap kindOf?
  | expr => expr.kindOf?.toList

end TypeExpr

namespace Model

/-- The key to which a step leads from the values of one shape; there is none for the elements of
arrays of which nothing is known. -/
def leadIn? (model : Model) (shape : Shape) : Step → Option Keypath
  | .member name => (shape.get? name).map FieldRef.key
  | .element => (shape.element?.map FieldRef.key).filter model.has

/-- The key to which a step leads from a key. -/
def lead? (model : Model) (step : Step) (key : Keypath) : Option Keypath :=
  (model.shape? key step.kind).bind (model.leadIn? · step)

/-- The key at a place below another one, with the keys whose expansions are open around it, the
latest first.  Nothing follows below a name that is already being expanded. -/
def follow? (model : Model) : List Step → List Keypath → Keypath →
    Option (List Keypath × Keypath)
  | [], opened, key => some (opened, key)
  | step :: rest, opened, key =>
      if model.isNamed key && opened.contains key then none
      else (model.lead? step key).bind (model.follow? rest (key :: opened))

/-- The kinds that the type at a key spells out. -/
def spelledKinds (model : Model) (key : Keypath) : List Kind :=
  if model.has key then (model.kinds key).keys else [.scalar .unknown]

end Model

/-! ## One step -/

namespace Model

variable {model : Model} {refers : Keypath → TypeExpr → Prop}

/-- What is spelled out for a kind shows the kind. -/
theorem SpellsKind.kindOf? {kind : Kind} {shape : Shape} {expr : TypeExpr}
    (hspells : model.SpellsKind refers kind shape expr) : expr.kindOf? = some kind := by
  cases hspells <;> rfl

/-- What is spelled out for one kind has one alternative. -/
theorem SpellsKind.kinds_eq {kind : Kind} {shape : Shape} {expr : TypeExpr}
    (hspells : model.SpellsKind refers kind shape expr) : expr.kinds = [kind] := by
  cases hspells <;> rfl

/-- A type that is spelled out for one kind is a single alternative. -/
theorem SpellsKind.part?_eq {kind : Kind} {shape : Shape} {expr : TypeExpr}
    (hspells : model.SpellsKind refers kind shape expr) (step : Step) :
    expr.part? step = expr.partOf? step := by
  cases hspells <;> rfl

/-- Values of other kinds do not have the part. -/
theorem SpellsKind.partOf?_of_other_kind {kind : Kind} {shape : Shape} {expr : TypeExpr}
    (hspells : model.SpellsKind refers kind shape expr) {step : Step} (hother : kind ≠ step.kind) :
    expr.partOf? step = none := by
  cases hspells <;> cases step <;> first | rfl | exact absurd rfl hother

/-- The fields of an object type are found under the names of those of the shape. -/
private theorem find?_spelled {entries : List (Text × FieldRef)}
    {fields : List (Field × TypeExpr)}
    (hspelled : List.Forall₂ (fun entry field => field.1 = model.outside entry ∧
      refers entry.2.key field.2) entries fields) (name : Text) :
    Option.Rel refers ((OrderedMap.valueAt name entries).map FieldRef.key)
      ((fields.find? fun field => field.1.name == name).map Prod.snd) := by
  induction hspelled with
  | nil => exact .none
  | @cons entry field _ _ hfield _ ih =>
      obtain ⟨houter, hinner⟩ := hfield
      have hname : field.1.name = entry.1 := by rw [houter]; rfl
      by_cases hhere : entry.1 = name
      · simp only [OrderedMap.valueAt, hhere, if_true, List.find?_cons, hname, beq_self_eq_true]
        exact .some hinner
      · have hthere : (entry.1 == name) = false := by simpa using hhere
        simpa only [OrderedMap.valueAt, hhere, if_false, List.find?_cons, hname, hthere] using ih

/-- A step leads from the shape of its kind to a key as it leads from the type to a part. -/
theorem SpellsKind.partOf?_of_kind {kind : Kind} {shape : Shape} {expr : TypeExpr}
    (hspells : model.SpellsKind refers kind shape expr) {step : Step} (hkind : kind = step.kind) :
    Option.Rel refers (model.leadIn? shape step) (expr.partOf? step) := by
  cases step with
  | member name =>
      cases hspells with
      | object hspelled => exact find?_spelled hspelled name
      | _ => cases hkind
  | element =>
      cases hspells with
      | anyArray hunknown =>
          have hnone : model.leadIn? shape .element = none := by
            cases hfound : shape.element? with
            | none => simp [leadIn?, hfound]
            | some element => simp [leadIn?, hfound, hunknown element hfound]
          rw [hnone]
          exact .none
      | @array _ element expr hfound hknown hspelled =>
          have hsome : model.leadIn? shape .element = some element.key := by
            simp [leadIn?, hfound, hknown]
          rw [hsome]
          exact .some hspelled
      | _ => cases hkind

/-- Of several alternatives the one of the kind of the step has the part, if any has. -/
private theorem findSome?_spelled {entries : List (Kind × Shape)} {alternatives : List TypeExpr}
    (hall : List.Forall₂ (fun entry alternative =>
      model.SpellsKind refers entry.1 entry.2 alternative) entries alternatives)
    (hnodup : (entries.map Prod.fst).Nodup) (step : Step) :
    Option.Rel refers ((OrderedMap.valueAt step.kind entries).bind (model.leadIn? · step))
      (alternatives.findSome? (TypeExpr.partOf? step)) := by
  induction hall with
  | nil => exact .none
  | @cons entry alternative rest later hspells hlater ih =>
      obtain ⟨hfresh, htail⟩ := List.nodup_cons.mp hnodup
      have hrest := ih htail
      by_cases hkind : entry.1 = step.kind
      · -- No later alternative has this kind, so none of them has the part.
        have habsent : OrderedMap.valueAt step.kind rest = none := by
          rw [← Option.not_isSome_iff_eq_none, OrderedMap.valueAt_isSome_iff, ← hkind]
          exact hfresh
        rw [habsent, Option.bind_none] at hrest
        have hnone : later.findSome? (TypeExpr.partOf? step) = none := by
          cases hfound : later.findSome? (TypeExpr.partOf? step) with
          | none => rfl
          | some part => rw [hfound] at hrest; cases hrest
        have hhere := hspells.partOf?_of_kind hkind
        rw [OrderedMap.valueAt, if_pos hkind, Option.bind_some, List.findSome?_cons, hnone]
        cases hpart : alternative.partOf? step <;> rwa [hpart] at hhere
      · rw [OrderedMap.valueAt, if_neg hkind, List.findSome?_cons,
          hspells.partOf?_of_other_kind hkind]
        exact hrest

/-- The part of a type is that of one of its alternatives. -/
theorem part?_ofAlternatives {entries : List (Kind × Shape)} {alternatives : List TypeExpr}
    (hall : List.Forall₂ (fun entry alternative =>
      model.SpellsKind refers entry.1 entry.2 alternative) entries alternatives) (step : Step) :
    (TypeExpr.ofAlternatives alternatives).part? step =
      alternatives.findSome? (TypeExpr.partOf? step) := by
  cases hall with
  | nil => rfl
  | cons hfirst hlater =>
      cases hlater with
      | nil =>
          rw [TypeExpr.ofAlternatives, hfirst.part?_eq, List.findSome?_cons, List.findSome?_nil]
          split <;> simp_all
      | cons hsecond hrest => rfl

/-- **One step down.**  A step leads to a key in the model exactly where it leads to a part of
the type, and the part is what the key refers to. -/
theorem SpellsKey.part?_rel {key : Keypath} {expr : TypeExpr}
    (hspells : model.SpellsKey refers key expr) (step : Step) :
    Option.Rel refers (model.lead? step key) (expr.part? step) := by
  obtain ⟨alternatives, hall, rfl⟩ := hspells
  rw [part?_ofAlternatives hall]
  exact findSome?_spelled hall (model.kinds key).nodup_keys step

/-- Alternatives spell out the kinds for which they are. -/
theorem kinds_ofAlternatives {entries : List (Kind × Shape)} {alternatives : List TypeExpr}
    (hall : List.Forall₂ (fun entry alternative =>
      model.SpellsKind refers entry.1 entry.2 alternative) entries alternatives) :
    (TypeExpr.ofAlternatives alternatives).kinds =
      if entries.isEmpty then [.scalar .unknown] else entries.map Prod.fst := by
  have hkinds : alternatives.filterMap TypeExpr.kindOf? = entries.map Prod.fst := by
    induction hall with
    | nil => rfl
    | cons hfirst hlater ih => rw [List.filterMap_cons, hfirst.kindOf?, List.map_cons, ih]
  cases hall with
  | nil => rfl
  | @cons entry alternative _ _ hfirst hlater =>
      cases hlater with
      | nil =>
          rw [TypeExpr.ofAlternatives, hfirst.kinds_eq]
          rfl
      | cons hsecond hrest => exact hkinds

/-- The type at a key has an alternative for each of its kinds. -/
theorem SpellsKey.kinds_eq {key : Keypath} {expr : TypeExpr}
    (hspells : model.SpellsKey refers key expr) : expr.kinds = model.spelledKinds key := by
  obtain ⟨alternatives, hall, rfl⟩ := hspells
  rw [kinds_ofAlternatives hall, spelledKinds, has]
  by_cases hnone : (model.kinds key).entries.isEmpty = true
  · simp [OrderedMap.isEmpty, hnone]
  · simp [OrderedMap.isEmpty, hnone, OrderedMap.keys]

/-- A type that is spelled out has at least one kind. -/
theorem spelledKinds_ne_nil (model : Model) (key : Keypath) : model.spelledKinds key ≠ [] := by
  unfold spelledKinds
  split
  · rename_i hknown
    simpa [has, OrderedMap.isEmpty, OrderedMap.keys] using hknown
  · simp

/-! ## All steps -/

/-- What is written for a key inside open expansions: its name where one of them is its own, and
otherwise its expansion. -/
def Stands (model : Model) (opened : List Keypath) (key : Keypath) (expr : TypeExpr) : Prop :=
  if model.IsCut true opened key then expr = .reference key
  else ∃ fuel, model.expandWithin true fuel opened key = some expr

/-- Where a key is not cut off, all its kinds are spelled out. -/
theorem Stands.kinds_eq {opened : List Keypath} {key : Keypath} {expr : TypeExpr}
    (hstands : model.Stands opened key expr) (hcut : ¬ model.IsCut true opened key) :
    expr.kinds = model.spelledKinds key := by
  rw [Stands, if_neg hcut] at hstands
  obtain ⟨fuel, hexpr⟩ := hstands
  obtain ⟨less, -, hspells⟩ := exists_succ_of_expandWithin hexpr
  exact hspells.kinds_eq

/-- A bare name stands for a key only where the key is being expanded. -/
theorem Stands.eq_reference_iff {opened : List Keypath} {key : Keypath} {expr : TypeExpr}
    (hstands : model.Stands opened key expr) (name : Name) :
    expr = .reference name ↔ model.IsCut true opened key ∧ key = name := by
  constructor
  · intro hname
    by_cases hcut : model.IsCut true opened key
    · rw [Stands, if_pos hcut, hname] at hstands
      exact ⟨hcut, (TypeExpr.reference.inj hstands).symm⟩
    · have hkinds := hstands.kinds_eq hcut
      rw [hname] at hkinds
      exact absurd hkinds.symm (model.spelledKinds_ne_nil key)
  · intro hgiven
    obtain ⟨hcut, rfl⟩ := hgiven
    rwa [Stands, if_pos hcut] at hstands

/-- **Places.**  A place is there in the model exactly where it is in the type, and what is
written there stands for the key that the place belongs to. -/
theorem at?_rel {opened : List Keypath} {key : Keypath} {expr : TypeExpr}
    (hstands : model.Stands opened key expr) (place : List Step) :
    Option.Rel (fun reached inner => model.Stands reached.1 reached.2 inner)
      (model.follow? place opened key) (expr.at? place) := by
  induction place generalizing opened key expr with
  | nil => exact .some hstands
  | cons step rest ih =>
      have hopen : (model.isNamed key && opened.contains key) = true ↔
          model.IsCut true opened key := by
        simp [IsCut]
      by_cases hcut : model.IsCut true opened key
      · rw [Stands, if_pos hcut] at hstands
        rw [follow?, if_pos (hopen.mpr hcut), hstands]
        exact .none
      · rw [Stands, if_neg hcut] at hstands
        rw [follow?, if_neg fun hgiven => hcut (hopen.mp hgiven), TypeExpr.at?]
        obtain ⟨fuel, hexpr⟩ := hstands
        obtain ⟨less, -, hspells⟩ := exists_succ_of_expandWithin hexpr
        have hpart := hspells.part?_rel step
        generalize model.lead? step key = lead at hpart ⊢
        generalize expr.part? step = part at hpart ⊢
        cases hpart with
        | none => exact .none
        | @some child inner hinner =>
            refine ih ?_
            rw [Stands]
            split
            · rename_i hbelow
              rwa [if_pos hbelow] at hinner
            · rename_i hbelow
              rw [if_neg hbelow] at hinner
              exact ⟨less, hinner⟩

/-! ## Names at places -/

/-- The names in a part of an alternative are among its own. -/
theorem mem_references_of_partOf? (step : Step) {expr inner : TypeExpr} {name : Name}
    (hpart : expr.partOf? step = some inner) (hname : name ∈ inner.references) :
    name ∈ expr.references := by
  cases expr with
  | array element =>
      cases step with
      | member other => cases hpart
      | element =>
          cases hpart
          exact hname
  | object fields =>
      cases step with
      | element => cases hpart
      | member other =>
          obtain ⟨field, hfield, rfl⟩ := Option.map_eq_some_iff.mp hpart
          exact (mem_fieldReferences_iff fields name).mpr
            ⟨field, List.mem_of_find?_eq_some hfield, hname⟩
  | _ => cases hpart

/-- The names in a part are among those of the whole. -/
theorem mem_references_of_part? {step : Step} {expr inner : TypeExpr} {name : Name}
    (hpart : expr.part? step = some inner) (hname : name ∈ inner.references) :
    name ∈ expr.references := by
  cases expr with
  | union alternatives =>
      obtain ⟨alternative, hmem, hhere⟩ := List.exists_of_findSome?_eq_some hpart
      exact (mem_alternativeReferences_iff alternatives name).mpr
        ⟨alternative, hmem, mem_references_of_partOf? step hhere hname⟩
  | _ => exact mem_references_of_partOf? step hpart hname

/-- The names at a place are among those of the whole. -/
theorem mem_references_of_at? {place : List Step} {expr inner : TypeExpr} {name : Name}
    (hplace : expr.at? place = some inner) (hname : name ∈ inner.references) :
    name ∈ expr.references := by
  induction place generalizing expr with
  | nil =>
      cases hplace
      exact hname
  | cons step rest ih =>
      obtain ⟨part, hpart, hrest⟩ := Option.bind_eq_some_iff.mp hplace
      exact mem_references_of_part? hpart (ih hrest)

/-- A name in the type of one kind comes from a key to which a step leads. -/
theorem SpellsKind.exists_leadIn? {kind : Kind} {shape : Shape} {expr : TypeExpr} {name : Name}
    (hspells : model.SpellsKind refers kind shape expr) (hname : name ∈ expr.references) :
    ∃ step, step.kind = kind ∧ ∃ child inner, model.leadIn? shape step = some child ∧
      refers child inner ∧ name ∈ inner.references := by
  cases hspells with
  | scalar kind shape => exact absurd hname List.not_mem_nil
  | anyArray hunknown => exact absurd hname List.not_mem_nil
  | @array _ element inner hfound hknown hspelled =>
      exact ⟨.element, rfl, element.key, inner, by simp [leadIn?, hfound, hknown], hspelled, hname⟩
  | object hspelled =>
      obtain ⟨field, hfield, hmem⟩ := (mem_fieldReferences_iff _ name).mp hname
      obtain ⟨entry, hentry, -, hinner⟩ := exists_of_mem_right hspelled hfield
      have hget := (shape.mem_entries_iff entry.1 entry.2).mp hentry
      exact ⟨.member entry.1, rfl, entry.2.key, field.2, by simp [leadIn?, hget], hinner, hmem⟩

/-- A name in the type at a key comes from a key to which a step leads. -/
theorem SpellsKey.exists_lead? {key : Keypath} {expr : TypeExpr} {name : Name}
    (hspells : model.SpellsKey refers key expr) (hname : name ∈ expr.references) :
    ∃ step child inner, model.lead? step key = some child ∧ refers child inner ∧
      name ∈ inner.references := by
  obtain ⟨alternatives, hall, rfl⟩ := hspells
  obtain ⟨alternative, halternative, hmem⟩ :=
    (mem_references_ofAlternatives_iff alternatives name).mp hname
  obtain ⟨entry, hentry, hkind⟩ := exists_of_mem_right hall halternative
  obtain ⟨step, hstep, child, inner, hlead, hinner, hlast⟩ := hkind.exists_leadIn? hmem
  have hshape : model.shape? key step.kind = some entry.2 := by
    rw [shape?, hstep]
    exact ((model.kinds key).mem_entries_iff entry.1 entry.2).mp hentry
  exact ⟨step, child, inner, by rw [lead?, hshape]; exact hlead, hinner, hlast⟩

/-- Every name in an expression stands at some place. -/
theorem exists_place_of_mem_references {inlined : Bool} {fuel : Nat} {opened : List Keypath}
    {key : Keypath} {expr : TypeExpr} {name : Name}
    (hexpr : model.expandWithin inlined fuel opened key = some expr)
    (hname : name ∈ expr.references) : ∃ place, expr.at? place = some (.reference name) := by
  induction fuel generalizing opened key expr with
  | zero => cases hexpr
  | succ fuel ih =>
      have hspells := expandWithin_succ_iff.mp hexpr
      obtain ⟨step, child, inner, hlead, hinner, hmem⟩ := hspells.exists_lead? hname
      -- What is written for the key below is settled by the key, so it is this that stands there.
      have hpart := hspells.part?_rel step
      rw [hlead] at hpart
      cases hfound : expr.part? step with
      | none => rw [hfound] at hpart; cases hpart
      | some part =>
          rw [hfound] at hpart
          cases hpart with
          | some hother =>
              by_cases hcut : model.IsCut inlined (key :: opened) child
              · rw [if_pos hcut] at hinner hother
                subst hinner hother
                obtain rfl := List.mem_singleton.mp hmem
                exact ⟨[step], by rw [TypeExpr.at?, hfound]; rfl⟩
              · rw [if_neg hcut] at hinner hother
                obtain rfl := Option.some.inj (hinner.symm.trans hother)
                obtain ⟨place, hplace⟩ := ih hinner hmem
                exact ⟨step :: place, by rw [TypeExpr.at?, hfound]; exact hplace⟩

/-- **Names at places.**  The references of an expression are the names that stand at its places. -/
theorem mem_references_iff_at? {inlined : Bool} {key : Keypath} {expr : TypeExpr}
    (hexpr : model.expand? inlined key = some expr) (name : Name) :
    name ∈ expr.references ↔ ∃ place, expr.at? place = some (.reference name) := by
  constructor
  · exact exists_place_of_mem_references hexpr
  · intro hgiven
    obtain ⟨place, hplace⟩ := hgiven
    exact mem_references_of_at? hplace (List.mem_singleton_self name)

/-! ## Guarded models -/

/-- **Every type can be spelled out.**  In a model in which every cycle of fields passes through a
named type, a key has an expression and a document in both modes and both dialects, and more fuel
never changes them.  The names that the document writes are those that stand bare at the places of
the expression.  In inlined mode a bare name is written exactly where its key stands inside
one of its own open expansions; at every other place all kinds of the key are spelled out. -/
theorem inlined_of_guarded (hguarded : model.Guarded) (root : Keypath) :
    (∀ inlined, ∃ expr,
      (∀ fuel, model.expansionDepth ≤ fuel →
        model.expandWithin inlined fuel [] root = some expr) ∧
      (∀ dialect style, model.doc? dialect style inlined root = some (expr.doc dialect style) ∧
        expr.WritesNames dialect style expr.references) ∧
      ∀ name, name ∈ expr.references ↔ ∃ place, expr.at? place = some (.reference name)) ∧
    ∀ expr, model.expand? true root = some expr → ∀ place,
      (expr.at? place).isSome = (model.follow? place [] root).isSome ∧
      (∀ name, expr.at? place = some (.reference name) ↔
        ∃ opened, model.follow? place [] root = some (opened, name) ∧
          model.isNamed name = true ∧ name ∈ opened) ∧
      ∀ opened key, model.follow? place [] root = some (opened, key) →
        ¬ (model.isNamed key = true ∧ key ∈ opened) →
        ∃ inner, expr.at? place = some inner ∧ inner.kinds = model.spelledKinds key := by
  refine ⟨fun inlined => ?_, fun expr hexpr place => ?_⟩
  · obtain ⟨expr, hexpr⟩ := expandWithin_of_guarded hguarded inlined [] root
    have hfound : model.expand? inlined root = some expr := hexpr _ (Nat.le_refl _)
    exact ⟨expr, hexpr, fun dialect style => ⟨doc?_of_expand? hfound dialect style,
      expr.writesNames_references dialect style⟩, mem_references_iff_at? hfound⟩
  have hroot : ¬ model.IsCut true [] root := fun hcut => List.not_mem_nil (hcut.2 rfl)
  have hstands : model.Stands [] root expr := by
    rw [Stands, if_neg hroot]
    exact ⟨_, hexpr⟩
  have hcut : ∀ opened key, model.IsCut true opened key ↔
      model.isNamed key = true ∧ key ∈ opened := by
    intro opened key
    simp [IsCut]
  have hplace := at?_rel hstands place
  generalize model.follow? place [] root = reached at hplace ⊢
  generalize expr.at? place = part at hplace ⊢
  cases hplace with
  | none => simp
  | @some reached inner hinner =>
      obtain ⟨around, here⟩ := reached
      refine ⟨rfl, fun name => ?_, fun opened key hreached hopen => ?_⟩
      · rw [Option.some.injEq, hinner.eq_reference_iff, hcut]
        constructor
        · intro hgiven
          obtain ⟨hnamed, rfl⟩ := hgiven
          exact ⟨around, rfl, hnamed⟩
        · intro hgiven
          obtain ⟨opened, hreached, hnamed⟩ := hgiven
          cases hreached
          exact ⟨hnamed, rfl⟩
      · cases hreached
        exact ⟨inner, rfl, hinner.kinds_eq fun hgiven => hopen ((hcut _ _).mp hgiven)⟩

/-- People with names and with friends who are people again. -/
def friends : Model :=
  let person : Shape :=
    OrderedMap.insert (.insert .empty "name" { key := "Person.name" }) "friends"
      { key := "Person.friends" }
  (({} : Model).register "Person" 1).setShape "Person" .object person
    |>.setShape "Person.friends" .array (.ofElement "Person")
    |>.setShape "Person.name" (.scalar .string) .empty

/-- Persons with friends who are persons: the name stands at the elements of the friends and nowhere
else, and nothing stands below it. -/
theorem inlined_friends :
    friends.Guarded ∧ ∃ expr,
      (∀ fuel, friends.expansionDepth ≤ fuel →
        friends.expandWithin true fuel [] "Person" = some expr) ∧
      friends.doc? .propTypes {} true "Person" = some (expr.doc .propTypes {}) ∧
      (expr.doc .propTypes {}).layoutExpression {} = Text.unlines
        ["PropTypes.shape(\x7b", "  name: PropTypes.string.isRequired,",
          "  friends: PropTypes.arrayOf(Person).isRequired,", "\x7d)"] ∧
      expr.WritesNames .propTypes {} expr.references ∧ "Person".toList ∈ expr.references ∧
      expr.at? [.member "friends", .element] = some (.reference "Person") ∧
      expr.at? [.member "friends", .element, .member "name"] = none ∧
      ∃ inner, expr.at? [.member "friends"] = some inner ∧ inner.kinds = [.array] := by
  have hguarded : friends.Guarded := guarded_of_rank List.length (by decide +kernel)
  obtain ⟨hmodes, hplaces⟩ := inlined_of_guarded hguarded "Person"
  obtain ⟨expr, hfuel, hdocs, hnames⟩ := hmodes true
  obtain ⟨hdoc, hwrites⟩ := hdocs .propTypes {}
  have hexpr : friends.expand? true "Person" = some expr := hfuel _ (Nat.le_refl _)
  obtain ⟨-, hname, -⟩ := hplaces expr hexpr [.member "friends", .element]
  obtain ⟨hbelow, -, -⟩ := hplaces expr hexpr [.member "friends", .element, .member "name"]
  obtain ⟨-, -, hspelled⟩ := hplaces expr hexpr [.member "friends"]
  have hbare : expr.at? [.member "friends", .element] = some (.reference "Person") :=
    (hname "Person").mpr ⟨["Person.friends", "Person"], by decide +kernel⟩
  have htext : (friends.doc? .propTypes {} true "Person").map (Doc.layoutExpression {}) =
      some (Text.unlines ["PropTypes.shape(\x7b", "  name: PropTypes.string.isRequired,",
        "  friends: PropTypes.arrayOf(Person).isRequired,", "\x7d)"]) := by
    decide +kernel
  rw [hdoc, Option.map_some, Option.some.injEq] at htext
  refine ⟨hguarded, expr, hfuel, hdoc, htext, hwrites, (hnames "Person").mpr ⟨_, hbare⟩, hbare,
    ?_, ?_⟩
  · have hgone : friends.follow? [.member "friends", .element, .member "name"] [] "Person" = none :=
      by decide +kernel
    rw [hgone] at hbelow
    exact Option.isNone_iff_eq_none.mp (Option.isSome_eq_false_iff.mp hbelow)
  · exact hspelled ["Person"] "Person.friends" (by decide +kernel) (by decide +kernel)

end Model

end Exemplar
