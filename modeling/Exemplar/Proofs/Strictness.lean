import Exemplar.Proofs.Reachable

/-!
# What strict batches refuse

A strict batch is checked while it is merged, against a working copy that it has
already changed and in which new types come up on the way.  The outcome can
nevertheless be told from the model as it was before the batch.

`Model.Redefines` says when a value would change a type of that model.  `Halfway` is
the invariant of the working copy: as long as nothing was refused, it knows the types
of the model as the model does, and all other types are of the batch itself.  So the
next event is refused exactly when it redefines a type of the model
(`conflict?_eq_none_iff`), and `Halfway.outcome` carries this through a batch.

`strict_batch` sums up: which batches are refused, in three equivalent ways, what the
refusal reports, and that a batch which is not refused does what it would do otherwise.
-/

namespace Exemplar

/-! ## Redefinitions -/

/-- A value that would change a type of a model: an object of a named type that has a field
which the type does not have, or that does not carry a field which the type requires. -/
def Model.Redefines (model : Model) (s : Sighting) : Prop :=
  model.isNamed s.key = true ∧ s.kind = .object ∧
    ∃ shape, model.shape? s.key .object = some shape ∧
      ((∃ field ∈ s.names, field ∉ shape.keys) ∨
        ∃ field, shape.requires field = true ∧ s.carries field = false)

/-- A sighting changes a shape if it has a new field, or lacks a required one. -/
theorem changes_ne_nil_iff (old : Shape) (s : Sighting) :
    old.changes s.shape ≠ [] ↔
      (∃ field ∈ s.names, field ∉ old.keys) ∨
        ∃ field, old.requires field = true ∧ s.carries field = false := by
  have hadded : old.added s.shape ≠ [] ↔ ∃ field ∈ s.names, field ∉ old.keys := by
    simp [Shape.added, List.filter_eq_nil_iff, s.keys_shape, ← old.contains_iff]
  have hdemoted : old.demoted s.shape ≠ [] ↔
      ∃ field, old.requires field = true ∧ s.carries field = false := by
    simp only [Shape.demoted, ne_eq, List.filter_eq_nil_iff, s.requires_shape, Bool.and_eq_true,
      Bool.not_eq_true', Classical.not_forall, Classical.not_not]
    constructor
    · intro hgiven
      obtain ⟨field, -, hchange⟩ := hgiven
      exact ⟨field, hchange⟩
    · intro hgiven
      obtain ⟨field, hrequired, hlacking⟩ := hgiven
      exact ⟨field, Shape.mem_keys_of_requires hrequired, hrequired, hlacking⟩
  rw [Shape.changes, ne_eq, List.append_eq_nil_iff, Classical.not_and_iff_not_or_not, or_comm]
  exact or_congr hadded hdemoted

/-! ## The working copy of a strict batch -/

/-- A working copy in the next batch of a builder that has not redefined any type so far. -/
structure Halfway (builder : Builder) (current : Model) : Prop where
  shapes : ∀ key kind shape, current.shape? key kind = some shape → shape.Fits kind
  known : ∀ name, builder.model.isNamed name = true →
    current.shape? name .object = builder.model.shape? name .object ∧
      current.definingBatch? name = builder.model.definingBatch? name
  fresh : ∀ name (definedIn : Int), builder.model.isNamed name = false →
    current.definingBatch? name = some definedIn → definedIn = (builder.batches + 1 : Nat)

/-- What a strict batch reports when it is refused. -/
structure Builder.Reports (builder : Builder) (conflict : Redefinition) : Prop where
  defined : builder.model.definingBatch? conflict.name = some conflict.definedIn
  current : conflict.batch = (builder.batches + 1 : Nat)
  earlier : conflict.definedIn < conflict.batch

namespace Halfway

variable {builder : Builder} {current : Model} {s : Sighting} (hsound : builder.Sound)
  (hhalf : Halfway builder current)

/-- A strict batch starts with the model as it is. -/
theorem start {builder : Builder} (hsound : builder.Sound) : Halfway builder builder.model where
  shapes := hsound.shapes
  known _ _ := ⟨rfl, rfl⟩
  fresh name definedIn hunknown hdefined := by
    rw [isNamed_eq_isSome, hdefined] at hunknown
    cases hunknown

include hsound hhalf

/-- A refused value changes a shape of a type that the model has from an earlier batch. -/
theorem of_conflict {naming : Naming} {strict : Bool} {conflict : Redefinition}
    (hconflict : (Event.sighted s).conflict? (builder.nextBatch naming strict) current =
      some conflict) :
    conflict.name = s.key ∧ builder.Reports conflict ∧
      ∃ old, current.shape? s.key s.kind = some old ∧ old.changes s.shape ≠ [] := by
  obtain ⟨old, hold, hrefusal⟩ := Option.bind_eq_some_iff.mp hconflict
  cases hchanges : old.changes s.shape with
  | nil =>
      rw [hchanges] at hrefusal
      cases hrefusal
  | cons field later =>
      rw [hchanges] at hrefusal
      obtain ⟨definedIn, hdefined, hcheck⟩ := Option.bind_eq_some_iff.mp hrefusal
      split at hcheck
      · rename_i hother
        simp only [Bool.and_eq_true, bne_iff_ne] at hother
        cases hcheck
        have hnamed : builder.model.isNamed s.key = true := by
          cases hknown : builder.model.isNamed s.key with
          | true => rfl
          | false => exact absurd (hhalf.fresh s.key definedIn hknown hdefined) hother.2
        have hmodel := (hhalf.known s.key hnamed).2.symm.trans hdefined
        exact ⟨rfl, ⟨hmodel, rfl, hsound.earlier hmodel⟩, old, hold, by simp [hchanges]⟩
      · cases hcheck

/-- **The next event.**  Halfway through a strict batch the next value is refused exactly when
it redefines a type of the model. -/
theorem conflict?_eq_none_iff (naming : Naming) (hs : s.shape.Fits s.kind) :
    (Event.sighted s).conflict? (builder.nextBatch naming true) current = none ↔
      ¬ builder.model.Redefines s := by
  constructor
  · intro hnone hredefines
    obtain ⟨hnamed, hkind, shape, hshape, hchange⟩ := hredefines
    obtain ⟨hsame, hbatch⟩ := hhalf.known s.key hnamed
    obtain ⟨definedIn, hdefined⟩ := Option.isSome_iff_exists.mp hnamed
    have hchanges := (changes_ne_nil_iff shape s).mpr hchange
    obtain ⟨field, later, hform⟩ := List.exists_cons_of_ne_nil hchanges
    have hother := Int.ne_of_lt (hsound.earlier hdefined)
    have hcurrent : current.definingBatch? s.key = some definedIn := hbatch.trans hdefined
    simp [Event.conflict?, Model.refusal?, hkind, hsame, hshape, hform, hcurrent,
      Builder.nextBatch] at hnone
    exact hother hnone
  · intro hkeeps
    cases hconflict : (Event.sighted s).conflict? (builder.nextBatch naming true) current with
    | none => rfl
    | some conflict =>
        obtain ⟨hname, hreports, old, hold, hchanges⟩ := hhalf.of_conflict hsound hconflict
        have hnamed : builder.model.isNamed s.key = true :=
          Option.isSome_iff_exists.mpr ⟨_, hname ▸ hreports.defined⟩
        have hkind : s.kind = .object := by
          by_cases hkind : s.kind = .object
          · exact hkind
          · exact absurd ((hhalf.shapes _ _ _ hold).changes_eq_nil hs hkind) hchanges
        rw [hkind, (hhalf.known s.key hnamed).1] at hold
        exact absurd ⟨hnamed, hkind, old, hold, (changes_ne_nil_iff old s).mp hchanges⟩ hkeeps

/-- A value that redefines nothing leaves the working copy halfway. -/
theorem sighted (hs : s.shape.Fits s.kind) (hkeeps : ¬ builder.model.Redefines s) :
    Halfway builder ((Event.sighted s).effect (builder.batches + 1 : Nat) current) where
  shapes key kind shape hshape := by
    rw [Event.effect, Model.shape?_setShape] at hshape
    by_cases hhere : s.key = key ∧ s.kind = kind
    · rw [if_pos hhere, Option.some.injEq] at hshape
      obtain ⟨rfl, rfl⟩ := hhere
      rw [← hshape]
      exact Sighting.onto_fits hs fun old hold => hhalf.shapes _ _ old hold
    · rw [if_neg hhere] at hshape
      exact hhalf.shapes key kind shape hshape
  known name hnamed := by
    obtain ⟨hsame, hbatch⟩ := hhalf.known name hnamed
    refine ⟨?_, hbatch⟩
    rw [Event.effect, Model.shape?_setShape]
    by_cases hhere : s.key = name ∧ s.kind = .object
    · obtain ⟨rfl, hkind⟩ := hhere
      obtain ⟨definedIn, hdefined⟩ := Option.isSome_iff_exists.mp hnamed
      obtain ⟨-, shape, hshape⟩ := hsound.named s.key definedIn hdefined
      have hstays : shape.join s.shape = shape := by
        rw [Shape.join_eq_self_iff]
        by_cases hchanges : shape.changes s.shape = []
        · exact hchanges
        · exact absurd ⟨hnamed, hkind, shape, hshape, (changes_ne_nil_iff shape s).mp hchanges⟩
            hkeeps
      rw [if_pos ⟨rfl, hkind⟩, hkind, hsame, hshape, Sighting.onto, hstays]
    · rw [if_neg hhere, hsame]
  fresh name definedIn hunknown hdefined := hhalf.fresh name definedIn hunknown hdefined

omit hsound in
/-- A name of the batch leaves the types of the model alone. -/
theorem registered (name : Name) :
    Halfway builder ((Event.registered name).effect (builder.batches + 1 : Nat) current) := by
  have hshapes : ((Event.registered name).effect (builder.batches + 1 : Nat) current).shapes =
      current.shapes := by
    simp only [Event.effect, Model.register]
    split <;> rfl
  have hshape : ∀ key kind, ((Event.registered name).effect (builder.batches + 1 : Nat)
      current).shape? key kind = current.shape? key kind := by
    intro key kind
    simp only [Model.shape?, Model.kinds, hshapes]
  have hbatch : ∀ other, ((Event.registered name).effect (builder.batches + 1 : Nat)
      current).definingBatch? other =
        if name = other ∧ current.isNamed name = false then
          some ((builder.batches + 1 : Nat) : Int) else current.definingBatch? other :=
    fun other => current.definingBatch?_register name other _
  constructor
  · intro key kind shape hfound
    exact hhalf.shapes key kind shape ((hshape key kind).symm.trans hfound)
  · intro other hnamed
    obtain ⟨hsame, hdefined⟩ := hhalf.known other hnamed
    refine ⟨(hshape other .object).trans hsame, ?_⟩
    have htaken : ¬ (name = other ∧ current.isNamed name = false) := by
      intro hgiven
      obtain ⟨rfl, hfree⟩ := hgiven
      rw [isNamed_eq_isSome, hdefined, ← isNamed_eq_isSome, hnamed] at hfree
      cases hfree
    rw [hbatch, if_neg htaken, hdefined]
  · intro other definedIn hunknown hdefined
    rw [hbatch] at hdefined
    split at hdefined
    · exact (Option.some.inj hdefined).symm
    · exact hhalf.fresh other definedIn hunknown hdefined

end Halfway

/-- How some events of a strict batch end: nothing redefines a type of the model, or something
does and is refused. -/
inductive StrictOutcome (builder : Builder) (naming : Naming) (current : Model)
    (events : List Event) : Prop
  | passed (hkeeps : ∀ s, Event.sighted s ∈ events → ¬ builder.model.Redefines s)
      (hhalfway : Halfway builder (current.absorb (builder.batches + 1 : Nat) events))
      (hresult : events.foldlM (Event.apply (builder.nextBatch naming true)) current =
        .ok (current.absorb (builder.batches + 1 : Nat) events))
  | refused {s : Sighting} {conflict : Redefinition} (hseen : Event.sighted s ∈ events)
      (hredefines : builder.model.Redefines s) (hreports : builder.Reports conflict)
      (hresult : events.foldlM (Event.apply (builder.nextBatch naming true)) current =
        .error (.redefinition conflict))

/-- An event that passes leaves the outcome to the later ones. -/
theorem StrictOutcome.cons {builder : Builder} {naming : Naming} {current : Model} {event : Event}
    {rest : List Event}
    (hnone : event.conflict? (builder.nextBatch naming true) current = none)
    (hkeeps : ∀ s, event = .sighted s → ¬ builder.model.Redefines s)
    (hrest : StrictOutcome builder naming (event.effect (builder.batches + 1 : Nat) current) rest) :
    StrictOutcome builder naming current (event :: rest) := by
  have hgo : (event :: rest).foldlM (Event.apply (builder.nextBatch naming true)) current =
      rest.foldlM (Event.apply (builder.nextBatch naming true))
        (event.effect (builder.batches + 1 : Nat) current) := by
    rw [List.foldlM_cons]
    simp only [Event.apply, hnone]
    rfl
  cases hrest with
  | passed hlater hhalfway hresult =>
      refine .passed ?_ hhalfway (hgo.trans hresult)
      intro s hs
      rcases List.mem_cons.mp hs with heq | hmem
      · exact hkeeps s heq.symm
      · exact hlater s hmem
  | refused hseen hredefines hreports hresult =>
      exact .refused (List.mem_cons_of_mem event hseen) hredefines hreports (hgo.trans hresult)

/-- **A strict batch, event by event.** -/
theorem Halfway.outcome {builder : Builder} (hsound : builder.Sound) (naming : Naming)
    {events : List Event} (hfits : ∀ s, Event.sighted s ∈ events → s.shape.Fits s.kind)
    {current : Model} (hhalf : Halfway builder current) :
    StrictOutcome builder naming current events := by
  induction events generalizing current with
  | nil => exact .passed (by simp) hhalf rfl
  | cons event rest ih =>
      have htail := fun s hs => hfits s (List.mem_cons_of_mem event hs)
      cases event with
      | registered name => exact .cons rfl (by simp) (ih htail (hhalf.registered name))
      | sighted s =>
          have hs := hfits s List.mem_cons_self
          have hiff := hhalf.conflict?_eq_none_iff hsound naming hs
          by_cases hredefines : builder.model.Redefines s
          · cases hconflict : (Event.sighted s).conflict? (builder.nextBatch naming true)
                current with
            | none => exact absurd hredefines (hiff.mp hconflict)
            | some conflict =>
                refine .refused List.mem_cons_self hredefines
                  (hhalf.of_conflict hsound hconflict).2.1 ?_
                rw [List.foldlM_cons]
                simp only [Event.apply, hconflict]
                rfl
          · refine .cons (hiff.mpr hredefines) ?_ (ih htail (hhalf.sighted hsound hs hredefines))
            intro t heq
            cases heq
            exact hredefines

/-! ## What a batch that is not strict changes -/

/-- Whether a type requires a field of its objects, or nothing when it does not have the field. -/
def Model.mark? (model : Model) (name : Name) (field : Text) : Option Bool :=
  (model.shape? name .object).bind fun shape => (shape.get? field).map FieldRef.required

/-- A value that redefines a type of the model changes a field of it or the mark of one. -/
theorem mark?_ne_of_redefines {model : Model} {events : List Event} {s : Sighting}
    (hs : Event.sighted s ∈ events) (hredefines : model.Redefines s) (number : BatchNumber) :
    ∃ field, model.mark? s.key field ≠ (model.absorb number events).mark? s.key field := by
  obtain ⟨-, hkind, shape, hshape, hchange⟩ := hredefines
  have hmem : s ∈ sightingsAt s.key .object events :=
    (mem_sightingsAt_iff _ _ _ _).mpr ⟨hs, rfl, hkind⟩
  have hafter := shape?_absorb number model events s.key .object
  rw [hshape, stack_some] at hafter
  have hseen : s.shape ∈ (sightingsAt s.key .object events).map Sighting.shape :=
    List.mem_map_of_mem hmem
  rcases hchange with ⟨field, hfield, hnew⟩ | ⟨field, hrequired, hlacking⟩
  · refine ⟨field, fun hsame => ?_⟩
    have hfound : field ∈ (((sightingsAt s.key .object events).map Sighting.shape).foldl
        Shape.join shape).keys := by
      rw [Shape.keys_foldl_join, List.mem_eraseDups, List.mem_append, List.mem_flatMap]
      refine Or.inr ⟨s.shape, hseen, ?_⟩
      rw [s.keys_shape, List.mem_eraseDups]
      exact hfield
    obtain ⟨ref, href⟩ := (OrderedMap.mem_keys_iff _ field).mp hfound
    have hmissing : shape.get? field = none := by
      cases hold : shape.get? field with
      | none => rfl
      | some old => exact absurd ((shape.mem_keys_iff field).mpr ⟨old, hold⟩) hnew
    simp [Model.mark?, hshape, hafter, href, hmissing] at hsame
  · refine ⟨field, fun hsame => ?_⟩
    have hrelaxed : (((sightingsAt s.key .object events).map Sighting.shape).foldl
        Shape.join shape).requires field = false := by
      rw [Shape.requires_foldl_join, Bool.and_eq_false_iff, List.all_eq_false]
      refine Or.inr ⟨s.shape, hseen, ?_⟩
      simp [s.requires_shape, hlacking]
    simp only [Model.mark?, hshape, hafter, Option.bind_some] at hsame
    simp only [Shape.requires] at hrequired hrelaxed
    cases hold : shape.get? field with
    | none => simp [hold] at hrequired
    | some old =>
        cases hnew : (((sightingsAt s.key .object events).map Sighting.shape).foldl
            Shape.join shape).get? field with
        | none => simp [hold, hnew] at hsame
        | some new => simp_all

/-! ## Batches -/

namespace Builder

/-- Whether samples are refused as a strict batch. -/
def Refuses (builder : Builder) (naming : Naming) (samples : List Sample) : Prop :=
  ∃ conflict, (builder.addBatch naming true { samples }).1 = .error (.redefinition conflict)

variable {builder : Builder} {naming : Naming}

/-- A strict batch that redefines nothing does what a batch that is not strict does. -/
theorem addBatch_of_keeps (hsound : builder.Sound) (htotal : naming.Total)
    {samples : List Sample}
    (hkeeps : ∀ s, Event.sighted s ∈ (naming.way samples).events → ¬ builder.model.Redefines s) :
    builder.addBatch naming true { samples } = builder.addBatch naming false { samples } ∧
      (∃ root, (builder.addBatch naming false { samples }).1 = .ok root) ∧
      ∀ name field, builder.model.isNamed name = true →
        (builder.addBatch naming false { samples }).2.model.mark? name field =
          builder.model.mark? name field := by
  obtain ⟨root, hway⟩ := htotal.way samples
  have houtcome := Walk.outcome_of_eq hway
  have hloose := @addBatch_of_not_strict builder naming { samples } root houtcome rfl
  rw [hloose]
  cases (Halfway.start hsound).outcome hsound naming (way_coherent houtcome).fits with
  | passed hall hhalfway hresult =>
      refine ⟨?_, ⟨root, rfl⟩, ?_⟩
      · rw [addBatch_of_outcome houtcome rfl, hresult]
        rfl
      · intro name field hnamed
        exact congrArg (fun shape => Option.bind shape _) (hhalfway.known name hnamed).1
  | refused hseen hredefines hreports hresult => exact absurd hredefines (hkeeps _ hseen)

/-- A strict batch that redefines something is refused, and a batch that is not strict changes
the mark of a field. -/
theorem addBatch_of_redefines (hsound : builder.Sound) (htotal : naming.Total)
    {samples : List Sample} {s : Sighting} (hs : Event.sighted s ∈ (naming.way samples).events)
    (hredefines : builder.model.Redefines s) :
    builder.Refuses naming samples ∧
      (∀ conflict, (builder.addBatch naming true { samples }).1 = .error (.redefinition conflict) →
        builder.Reports conflict) ∧
      ∃ field, builder.model.mark? s.key field ≠
        (builder.addBatch naming false { samples }).2.model.mark? s.key field := by
  obtain ⟨root, hway⟩ := htotal.way samples
  have houtcome := Walk.outcome_of_eq hway
  have hloose := @addBatch_of_not_strict builder naming { samples } root houtcome rfl
  cases (Halfway.start hsound).outcome hsound naming (way_coherent houtcome).fits with
  | passed hkeeps hhalfway hresult => exact absurd hredefines (hkeeps s hs)
  | @refused t conflict hseen hother hreports hresult =>
      have hstrict : (builder.addBatch naming true { samples }).1 =
          .error (.redefinition conflict) := by
        rw [addBatch_of_outcome houtcome rfl, hresult]
      refine ⟨⟨conflict, hstrict⟩, ?_, ?_⟩
      · intro other hother
        rw [hstrict] at hother
        cases hother
        exact hreports
      · rw [hloose]
        exact mark?_ne_of_redefines hs hredefines (builder.batches + 1 : Nat)

/-- A batch is refused if it shows a value that redefines a type. -/
theorem refuses_iff (hsound : builder.Sound) (htotal : naming.Total) (samples : List Sample) :
    builder.Refuses naming samples ↔
      ∃ s ∈ sightings (naming.way samples).events, builder.model.Redefines s := by
  constructor
  · intro hgiven
    obtain ⟨conflict, hrefused⟩ := hgiven
    by_cases hsome : ∃ s ∈ sightings (naming.way samples).events, builder.model.Redefines s
    · exact hsome
    · obtain ⟨hsame, ⟨root, hroot⟩, -⟩ := addBatch_of_keeps hsound htotal
        fun s hs hredefines => hsome ⟨s, (mem_sightings_iff _ s).mpr hs, hredefines⟩
      rw [hsame, hroot] at hrefused
      cases hrefused
  · intro hgiven
    obtain ⟨s, hs, hredefines⟩ := hgiven
    exact (addBatch_of_redefines hsound htotal ((mem_sightings_iff _ s).mp hs) hredefines).1

/-- Whether a strict batch is refused can be told sample by sample. -/
theorem refuses_iff_single (hsound : builder.Sound) (htotal : naming.Total)
    (samples : List Sample) :
    builder.Refuses naming samples ↔ ∃ sample ∈ samples, builder.Refuses naming [sample] := by
  obtain ⟨root, hway⟩ := htotal.way samples
  have hsingle : ∀ sample, (naming.way [sample]).events = (walk naming [] [] sample).events := by
    intro sample
    obtain ⟨_, halone⟩ := htotal.way [sample]
    simp [halone]
  simp only [refuses_iff hsound htotal, hsingle, hway, mem_sightings_iff, List.mem_flatMap]
  constructor
  · intro hgiven
    obtain ⟨s, ⟨sample, hsample, hs⟩, hredefines⟩ := hgiven
    exact ⟨sample, hsample, s, hs, hredefines⟩
  · intro hgiven
    obtain ⟨sample, hsample, s, hs, hredefines⟩ := hgiven
    exact ⟨s, ⟨sample, hsample, hs⟩, hredefines⟩

/-- A batch that is not refused redefines no type. -/
theorem keeps_of_not_refuses (hsound : builder.Sound) (htotal : naming.Total)
    {samples : List Sample} (hpasses : ¬ builder.Refuses naming samples) :
    ∀ s, Event.sighted s ∈ (naming.way samples).events → ¬ builder.model.Redefines s := by
  intro s hs hredefines
  exact hpasses (addBatch_of_redefines hsound htotal hs hredefines).1

/-- What a strict batch refuses is what would otherwise show in the marks of a type. -/
theorem refuses_iff_mark (hsound : builder.Sound) (htotal : naming.Total)
    (samples : List Sample) :
    builder.Refuses naming samples ↔
      ∃ name field, builder.model.isNamed name = true ∧ builder.model.mark? name field ≠
        (builder.addBatch naming false { samples }).2.model.mark? name field := by
  constructor
  · intro hrefused
    obtain ⟨s, hs, hredefines⟩ := (refuses_iff hsound htotal samples).mp hrefused
    obtain ⟨-, -, field, hchanged⟩ := addBatch_of_redefines hsound htotal
      ((mem_sightings_iff _ s).mp hs) hredefines
    exact ⟨s.key, field, hredefines.1, hchanged⟩
  · intro hgiven
    obtain ⟨name, field, hnamed, hchanged⟩ := hgiven
    by_cases hrefused : builder.Refuses naming samples
    · exact hrefused
    · obtain ⟨-, -, hsame⟩ := addBatch_of_keeps hsound htotal
        (keeps_of_not_refuses hsound htotal hrefused)
      exact absurd (hsame name field hnamed).symm hchanged

/-- **Strict batches.**  Take any builder that batches lead to, and any further samples under a
naming that never fails.

A strict batch of the samples is refused exactly when one of their values redefines a type of
the model; equivalently, when one of the samples alone is refused; equivalently, when the batch
would otherwise add a field to a type of the model or change whether one is required.  The
refusal reports a type of the model with its defining batch, which is earlier than the refused
one.  A batch that is not refused does what it would do otherwise. -/
theorem strict_batch (hreached : builder.Reachable) (htotal : naming.Total)
    (samples : List Sample) :
    (builder.Refuses naming samples ↔
        ∃ s ∈ sightings (naming.way samples).events, builder.model.Redefines s) ∧
      (builder.Refuses naming samples ↔
        ∃ sample ∈ samples, builder.Refuses naming [sample]) ∧
      (builder.Refuses naming samples ↔
        ∃ name field, builder.model.isNamed name = true ∧ builder.model.mark? name field ≠
          (builder.addBatch naming false { samples }).2.model.mark? name field) ∧
      (∀ conflict, (builder.addBatch naming true { samples }).1 = .error (.redefinition conflict) →
        builder.model.definingBatch? conflict.name = some conflict.definedIn ∧
          conflict.batch = (builder.addBatch naming true { samples }).2.batches ∧
          conflict.definedIn < conflict.batch) ∧
      (¬ builder.Refuses naming samples →
        builder.addBatch naming true { samples } = builder.addBatch naming false { samples } ∧
          ∃ root, (builder.addBatch naming false { samples }).1 = .ok root) := by
  have hsound := hreached.sound
  refine ⟨refuses_iff hsound htotal samples, refuses_iff_single hsound htotal samples,
    refuses_iff_mark hsound htotal samples, ?_, ?_⟩
  · intro conflict hrefused
    obtain ⟨s, hs, hredefines⟩ := (refuses_iff hsound htotal samples).mp ⟨conflict, hrefused⟩
    obtain ⟨-, hreports, -⟩ := addBatch_of_redefines hsound htotal
      ((mem_sightings_iff _ s).mp hs) hredefines
    obtain ⟨hdefined, hcurrent, hearlier⟩ := hreports conflict hrefused
    refine ⟨hdefined, hcurrent.trans ?_, hearlier⟩
    rw [addBatch_eq]
    split <;> rfl
  · intro hpasses
    obtain ⟨hsame, hroot, -⟩ := addBatch_of_keeps hsound htotal
      (keeps_of_not_refuses hsound htotal hpasses)
    exact ⟨hsame, hroot⟩

/-- What a builder knows after one person. -/
def person : Builder :=
  (addBatch {} {} false
    { samples := [.object [("id", .scalar .number), ("name", .scalar .string)]] }).2

/-- After a person with a name, a strict batch with one whose name is undefined is refused, and the
report names the batch that defined the type. -/
theorem strict_batch_person :
    let known : Sample := .object [("name", .scalar .null), ("id", .scalar .number)]
    let anonymous : Sample := .object [("id", .scalar .number), ("name", .scalar .undefined)]
    ∃ conflict, (person.addBatch {} true { samples := [known, anonymous] }).1 =
        .error (.redefinition conflict) ∧
      person.model.definingBatch? conflict.name = some conflict.definedIn ∧
      conflict.definedIn < conflict.batch := by
  intro known anonymous
  have hreached : person.Reachable := .added .start {} false _
  have htotal : ({} : Naming).Total := by
    intro generator keypath hgenerator
    cases hgenerator
    exact ⟨_, rfl⟩
  obtain ⟨hredefines, -, -, hreports, -⟩ := strict_batch hreached htotal [known, anonymous]
  have hknown : (person.model.shape? "Root" .object).isSome = true := by decide +kernel
  have hname : ((person.model.shape? "Root" .object).get hknown).requires "name" = true := by
    decide +kernel +revert
  obtain ⟨conflict, hconflict⟩ := hredefines.mpr
    ⟨⟨"Root", .object, [("id", ⟨"RootId", true⟩), ("name", ⟨"RootName", false⟩)]⟩,
      by decide +kernel, by decide +kernel, rfl, _, Option.eq_some_of_isSome hknown,
      Or.inr ⟨"name", hname, by decide +kernel⟩⟩
  obtain ⟨hdefined, -, hearlier⟩ := hreports conflict hconflict
  exact ⟨conflict, hconflict, hdefined, hearlier⟩

end Builder

end Exemplar
