import Exemplar.Proofs.Run

/-!
# What holds of every reachable model

`Builder.Sound` is an invariant of all batches, whatever their naming, and whether
they succeed or fail.

* Only objects vary.  A scalar has no fields and an array has the one field for its
  elements, always required (`Shape.Fits`).
* A named type was defined by a batch that has been tried, and objects were seen as
  of that type.

Both come from the events of a walk that came to its end (`Coherent`): its
sightings fit their kinds, and a name that was registered is followed by the sighting
of an object there.
-/

namespace Exemplar

/-! ## Shapes that do not vary -/

/-- The fields that all values of a kind have, unless they vary as in objects. -/
def fixedFields : Kind → Option (List Text)
  | .scalar _ => some []
  | .array => some [elementMark]
  | .object => none

/-- A shape that values of a kind can have: one of a kind with fixed fields requires just those. -/
def Shape.Fits (kind : Kind) (shape : Shape) : Prop :=
  ∀ fields, fixedFields kind = some fields →
    shape.keys = fields ∧ ∀ field ∈ fields, shape.requires field = true

/-- Only in objects can a field become optional. -/
theorem Shape.Fits.changes_eq_nil {kind : Kind} {old seen : Shape} (hold : old.Fits kind)
    (hseen : seen.Fits kind) (hkind : kind ≠ .object) : old.changes seen = [] := by
  obtain ⟨fields, hfields⟩ : ∃ fields, fixedFields kind = some fields := by
    cases kind with
    | object => exact absurd rfl hkind
    | array => exact ⟨_, rfl⟩
    | scalar s => exact ⟨_, rfl⟩
  obtain ⟨holdKeys, -⟩ := hold fields hfields
  obtain ⟨hseenKeys, hrequired⟩ := hseen fields hfields
  have hdemoted : old.demoted seen = [] := by
    refine List.filter_eq_nil_iff.mpr fun field hmem => ?_
    rw [holdKeys] at hmem
    simp [hrequired field hmem]
  have hadded : old.added seen = [] := by
    refine List.filter_eq_nil_iff.mpr fun field hmem => ?_
    rw [hseenKeys, ← holdKeys, ← old.contains_iff] at hmem
    simp [hmem]
  rw [Shape.changes, hdemoted, hadded, List.append_nil]

/-- Two shapes of a kind are joined to one of the kind. -/
theorem Shape.Fits.join {kind : Kind} {old seen : Shape} (hold : old.Fits kind)
    (hseen : seen.Fits kind) : (old.join seen).Fits kind := by
  by_cases hkind : kind = .object
  · intro fields hfields
    rw [hkind] at hfields
    cases hfields
  · rw [(Shape.join_eq_self_iff old seen).mpr (hold.changes_eq_nil hseen hkind)]
    exact hold

/-- A sighting leaves a shape that fits. -/
theorem Sighting.onto_fits {s : Sighting} {before : Option Shape} (hs : s.shape.Fits s.kind)
    (hbefore : ∀ shape, before = some shape → shape.Fits s.kind) :
    (s.onto before).Fits s.kind := by
  cases before with
  | none => exact hs
  | some old => exact (hbefore old rfl).join hs

/-! ## Events of complete walks -/

/-- Events in which all sightings fit their kinds and no name is registered in vain. -/
structure Coherent (events : List Event) : Prop where
  fits : ∀ s, Event.sighted s ∈ events → s.shape.Fits s.kind
  seen : ∀ name, Event.registered name ∈ events →
    ∃ s, Event.sighted s ∈ events ∧ s.key = name ∧ s.kind = .object

/-- Coherent events in a row are coherent. -/
theorem Coherent.flatMap {α : Type} {xs : List α} {events : α → List Event}
    (hall : ∀ x ∈ xs, Coherent (events x)) : Coherent (xs.flatMap events) where
  fits s hs := by
    obtain ⟨x, hx, hmem⟩ := List.mem_flatMap.mp hs
    exact (hall x hx).fits s hmem
  seen name hname := by
    obtain ⟨x, hx, hmem⟩ := List.mem_flatMap.mp hname
    obtain ⟨s, hs, hhere⟩ := (hall x hx).seen name hmem
    exact ⟨s, List.mem_flatMap.mpr ⟨x, hx, hs⟩, hhere⟩

/-- A value adds its own sighting to the events of its parts, perhaps with a name in front. -/
theorem Coherent.sighted {inner : List Event} (hinner : Coherent inner) {s : Sighting}
    (hs : s.shape.Fits s.kind) (name : Option Name)
    (hname : ∀ own, name = some own → s.key = own ∧ s.kind = .object) :
    Coherent (registration name ++ (inner ++ [.sighted s])) where
  fits t ht := by
    simp only [registration, List.mem_append, List.mem_map, reduceCtorEq, and_false, exists_false,
      false_or, List.mem_singleton, Event.sighted.injEq] at ht
    rcases ht with hmem | rfl
    · exact hinner.fits t hmem
    · exact hs
  seen other hother := by
    simp only [registration, List.mem_append, List.mem_map, Option.mem_toList,
      Event.registered.injEq, exists_eq_right, List.mem_singleton, reduceCtorEq, or_false] at hother
    rcases hother with hown | hmem
    · exact ⟨s, by simp, hname other hown⟩
    · obtain ⟨t, ht, hhere⟩ := hinner.seen other hmem
      exact ⟨t, by simp [ht], hhere⟩

/-- A walk that comes to its end sees shapes of the right kinds, and objects under the names that it
registers. -/
theorem walk_coherent {naming : Naming} {enclosing : List Keypath} {keypath key : Keypath}
    {sample : Sample} (houtcome : (walk naming enclosing keypath sample).outcome = .ok key) :
    Coherent (walk naming enclosing keypath sample).events := by
  have hempty : Coherent [] := ⟨by simp, by simp⟩
  induction sample using Sample.ind generalizing enclosing keypath key with
  | scalar kind =>
      obtain ⟨-, hevents⟩ := walk_scalar_eq_iff.mp (Walk.eq_mk_iff.mp houtcome)
      rw [hevents]
      refine hempty.sighted (s := { key, kind := .scalar kind }) ?_ none (by simp)
      intro fields hfields
      cases hfields
      exact ⟨rfl, by simp⟩
  | array items ih =>
      obtain ⟨element, inner, -, -, hitems, hevents⟩ :=
        walk_array_eq_iff.mp (Walk.eq_mk_iff.mp houtcome)
      obtain ⟨hcomplete, rfl⟩ := walkItems_eq_iff.mp hitems
      rw [hevents]
      have hinner := Coherent.flatMap fun item hmem =>
        (hcomplete item hmem).elim fun _ hfound => ih item hmem hfound
      refine hinner.sighted ?_ none (by simp)
      intro fields hfields
      cases hfields
      exact ⟨rfl, by simp; rfl⟩
  | object members ih =>
      obtain ⟨name, inner, fields, -, hkey, hmembers, hevents⟩ :=
        walk_object_eq_iff.mp (Walk.eq_mk_iff.mp houtcome)
      obtain ⟨child, hcomplete, rfl, rfl⟩ := walkMembers_eq_iff.mp hmembers
      rw [hevents]
      have hinner := Coherent.flatMap fun entry hmem => ih entry hmem (hcomplete entry hmem)
      refine hinner.sighted ?_ name ?_
      · intro fields hfields
        cases hfields
      · intro own hown
        exact ⟨by simp [hkey, hown], rfl⟩

/-- So does a batch. -/
theorem way_coherent {naming : Naming} {samples : List Sample} {root : Name}
    (houtcome : (naming.way samples).outcome = .ok root) :
    Coherent (naming.way samples).events := by
  obtain ⟨-, hcomplete, hevents⟩ := Naming.way_eq_iff.mp (Walk.eq_mk_iff.mp houtcome)
  rw [hevents]
  exact Coherent.flatMap fun sample hmem =>
    (hcomplete sample hmem).elim fun _ hfound => walk_coherent hfound

/-! ## The invariant -/

/-- What holds of a builder after any batches. -/
structure Builder.Sound (builder : Builder) : Prop where
  shapes : ∀ key kind shape, builder.model.shape? key kind = some shape → shape.Fits kind
  named : ∀ (name : Name) (number : Int), builder.model.definingBatch? name = some number →
    number ≤ builder.batches ∧ ∃ shape, builder.model.shape? name .object = some shape

/-- A type was defined before the next batch. -/
theorem Builder.Sound.earlier {builder : Builder} (hsound : builder.Sound) {name : Name}
    {number : Int} (hnumber : builder.model.definingBatch? name = some number) :
    number < (builder.batches + 1 : Nat) := by
  have hle := (hsound.named name number hnumber).1
  omega

/-- What is stacked on a shape of a kind is one of the kind. -/
theorem stack_fits {kind : Kind} {seen : List Sighting} {before : Option Shape} {shape : Shape}
    (hstack : stack before seen = some shape)
    (hseen : ∀ s ∈ seen, s.kind = kind ∧ s.shape.Fits s.kind)
    (hbefore : ∀ old, before = some old → old.Fits kind) : shape.Fits kind := by
  induction seen generalizing before with
  | nil => exact hbefore shape hstack
  | cons s rest ih =>
      obtain ⟨rfl, hs⟩ := hseen s List.mem_cons_self
      refine ih hstack (fun t ht => hseen t (List.mem_cons_of_mem s ht)) ?_
      intro old hold
      cases hold
      exact Sighting.onto_fits hs hbefore

/-- **A committed batch keeps the invariant.** -/
theorem Builder.Sound.committed {builder : Builder} (hsound : builder.Sound)
    {events : List Event} (hcoherent : Coherent events) (root : Name) :
    (builder.committed events root).Sound where
  shapes key kind shape hshape := by
    have hseen := shape?_absorb (builder.batches + 1 : Nat) builder.model events key kind
    have hbefore := fun old hold => hsound.shapes key kind old hold
    refine stack_fits (hseen.symm.trans hshape) ?_ hbefore
    intro s hs
    obtain ⟨hevent, -, hkind⟩ := (mem_sightingsAt_iff _ _ _ _).mp hs
    exact ⟨hkind, hcoherent.fits s hevent⟩
  named name number hnumber := by
    have hdefined := (definingBatch?_absorb (builder.batches + 1 : Nat) builder.model events
      name).symm.trans hnumber
    have hseen := shape?_absorb (builder.batches + 1 : Nat) builder.model events name .object
    cases hknown : builder.model.definingBatch? name with
    | some old =>
        rw [hknown, Option.some_or, Option.some.injEq] at hdefined
        subst hdefined
        obtain ⟨hle, shape, hshape⟩ := hsound.named name old hknown
        rw [hshape, stack_some] at hseen
        refine ⟨?_, _, hseen⟩
        simp only [Builder.committed]
        omega
    | none =>
        rw [hknown, Option.none_or] at hdefined
        by_cases hregistered : Event.registered name ∈ events
        · rw [if_pos hregistered, Option.some.injEq] at hdefined
          obtain ⟨s, hs, hkey, hkind⟩ := hcoherent.seen name hregistered
          have hmem : s ∈ sightingsAt name .object events :=
            (mem_sightingsAt_iff _ _ _ _).mpr ⟨hs, hkey, hkind⟩
          obtain ⟨shape, hshape⟩ := exists_stack_of_mem hmem (builder.model.shape? name .object)
          exact ⟨Int.le_of_eq hdefined.symm, shape, hseen.trans hshape⟩
        · rw [if_neg hregistered] at hdefined
          cases hdefined

/-- Every builder that batches lead to is sound. -/
theorem Builder.Reachable.sound {builder : Builder} (hreached : builder.Reachable) :
    builder.Sound := by
  induction hreached with
  | start =>
      constructor
      · intro key kind shape hshape
        cases hshape
      · intro name number hnumber
        cases hnumber
  | @added builder hreached naming strict examples ih =>
      cases hadded : builder.addBatch naming strict examples with
      | mk result after =>
          cases result with
          | error failure =>
              rw [Builder.addBatch_error hadded]
              refine ⟨ih.shapes, fun name number hnumber => ?_⟩
              obtain ⟨hle, hshape⟩ := ih.named name number hnumber
              exact ⟨by simp only; omega, hshape⟩
          | ok root =>
              obtain ⟨houtcome, -, rfl⟩ := Builder.addBatch_ok hadded
              exact ih.committed (way_coherent houtcome) root

end Exemplar
