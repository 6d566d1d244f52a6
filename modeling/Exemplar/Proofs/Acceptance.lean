import Exemplar.Proofs.ClosedForm
import Exemplar.Proofs.Position

/-!
# A model accepts what it has learnt from

`Model.Accepts` reads a model as a schema: a sample is accepted at a key when the
shape of its kind is known there, its parts are accepted where the shape sends
them, and no required field is missing.

A shape keeps the key that the first sighting found for a field, so a model accepts
a later sample only if that sample was stored under the same keys.  Events agree
(`Agreeing`) when all sightings at one place do so, and `accepts_of_agreeing` is the
consequence, by induction on the sample, whatever the naming.  Under the standard
naming of ASCII data all events agree, because `partKey` settles the keys;
`accepts_of_run` puts the two together.
-/

namespace Exemplar

/-- **Acceptance.**  A sample fits a model at a key.  Of several members under one name each
must be accepted, and the last decides whether the field is there. -/
inductive Model.Accepts (model : Model) : Keypath → Sample → Prop
  | scalar {key : Keypath} {kind : Scalar}
      (hknown : (model.shape? key (.scalar kind)).isSome = true) : Accepts model key (.scalar kind)
  | array {key : Keypath} {items : List Sample} {shape : Shape} {element : FieldRef}
      (hknown : model.shape? key .array = some shape)
      (helements : shape.element? = some element)
      (hitems : ∀ item ∈ items, Accepts model element.key item) :
      Accepts model key (.array items)
  | object {key : Keypath} {members : List (Text × Sample)} {shape : Shape}
      (hknown : model.shape? key .object = some shape)
      (hfields : ∀ entry ∈ members, shape.contains entry.1 = true)
      (hmembers : ∀ entry ∈ members, ∀ ref, shape.get? entry.1 = some ref →
        Accepts model ref.key entry.2)
      (hcomplete : ∀ field, shape.requires field = true →
        (OrderedMap.valueAt field members.reverse).any Sample.isPresent = true) :
      Accepts model key (.object members)

/-! ## Agreement -/

/-- The sightings at each place find the same keys for the same fields. -/
def Agreeing (events : List Event) : Prop :=
  ∀ s t, Event.sighted s ∈ events → Event.sighted t ∈ events → s.key = t.key → s.kind = t.kind →
    ∀ field first second, s.child? field = some first → t.child? field = some second →
      first = second

/-- What a model that was learnt from agreeing events knows of one sighting. -/
theorem shape_of_agreeing {model : Model} {events : List Event} (hagree : Agreeing events)
    (hlearnt : model.Learnt events)
    {s : Sighting} (hs : Event.sighted s ∈ events) :
    ∃ shape, model.shape? s.key s.kind = some shape ∧
      (∀ field key, s.child? field = some key →
        ∃ ref, shape.get? field = some ref ∧ ref.key = key) ∧
      ∀ field, shape.requires field = true → s.carries field = true := by
  have hmem : s ∈ sightingsAt s.key s.kind events :=
    (mem_sightingsAt_iff _ _ _ _).mpr ⟨hs, rfl, rfl⟩
  obtain ⟨shape, hstack⟩ := exists_stack_of_mem hmem none
  refine ⟨shape, (hlearnt.shapes _ _).trans hstack, ?_, ?_⟩
  · intro field key hkey
    have hfirst := child?_of_stack hstack field
    cases hfound : (sightingsAt s.key s.kind events).findSome? fun t => t.child? field with
    | none =>
        have hnone := List.findSome?_eq_none_iff.mp hfound s hmem
        rw [hkey] at hnone
        cases hnone
    | some other =>
        obtain ⟨t, ht, hother⟩ := List.exists_of_findSome?_eq_some hfound
        obtain ⟨hevent, hsameKey, hsameKind⟩ := (mem_sightingsAt_iff _ _ _ _).mp ht
        have heq : other = key :=
          hagree t s hevent hs hsameKey hsameKind field other key hother hkey
        rw [hfound, heq, Shape.child?] at hfirst
        obtain ⟨ref, href, hrefKey⟩ := Option.map_eq_some_iff.mp hfirst
        exact ⟨ref, href, hrefKey⟩
  · intro field hrequired
    rw [requires_of_stack hstack field, List.all_eq_true] at hrequired
    exact hrequired s hmem

/-- **Agreement is enough.**  A model that was learnt from agreeing events accepts every sample
whose walk is among them. -/
theorem accepts_of_agreeing {model : Model} {events : List Event} (hagree : Agreeing events)
    (hlearnt : model.Learnt events)
    {naming : Naming} {enclosing : List Keypath} {keypath key : Keypath} {sample : Sample}
    (houtcome : (walk naming enclosing keypath sample).outcome = .ok key)
    (hevents : ∀ event ∈ (walk naming enclosing keypath sample).events, event ∈ events) :
    model.Accepts key sample := by
  induction sample using Sample.ind generalizing enclosing keypath key with
  | scalar kind =>
      have hwalk := walk_scalar_eq_iff.mp (Walk.eq_mk_iff.mp houtcome)
      have hs := hevents _ (by rw [hwalk.2]; exact List.mem_singleton_self _)
      obtain ⟨shape, hshape, -, -⟩ := shape_of_agreeing hagree hlearnt hs
      exact .scalar (Option.isSome_iff_exists.mpr ⟨shape, hshape⟩)
  | array items ih =>
      obtain ⟨element, inner, -, helement, hitems, hwalk⟩ :=
        walk_array_eq_iff.mp (Walk.eq_mk_iff.mp houtcome)
      obtain ⟨hcomplete, rfl⟩ := walkItems_eq_iff.mp hitems
      rw [hwalk] at hevents
      have hs := hevents _ (List.mem_append_right _ (List.mem_singleton_self _))
      obtain ⟨shape, hshape, hfields, -⟩ := shape_of_agreeing hagree hlearnt hs
      obtain ⟨ref, href, hkey⟩ := hfields elementMark element rfl
      refine .array hshape href fun item hmem => ?_
      obtain ⟨found, hfound⟩ := hcomplete item hmem
      have hsame : found = element := Except.ok.inj ((keyAt_of_walk hfound).symm.trans helement)
      rw [hkey, ← hsame]
      refine ih item hmem hfound fun event hevent => hevents event ?_
      exact List.mem_append_left _ (List.mem_flatMap.mpr ⟨item, hmem, hevent⟩)
  | object members ih =>
      obtain ⟨name, inner, fields, -, -, hmembers, hwalk⟩ :=
        walk_object_eq_iff.mp (Walk.eq_mk_iff.mp houtcome)
      obtain ⟨child, hcomplete, rfl, rfl⟩ := walkMembers_eq_iff.mp hmembers
      rw [hwalk] at hevents
      have hs := hevents _ (List.mem_append_right _ (List.mem_append_right _
        (List.mem_singleton_self _)))
      obtain ⟨shape, hshape, hfields, hcarries⟩ := shape_of_agreeing hagree hlearnt hs
      have hentry : ∀ entry ∈ members, ∃ ref, shape.get? entry.1 = some ref ∧
          ref.key = child entry.1 := by
        intro entry hmem
        exact hfields entry.1 (child entry.1) (child?_fieldsOf key .object child hmem)
      refine .object hshape ?_ ?_ ?_
      · intro entry hmem
        obtain ⟨ref, href, -⟩ := hentry entry hmem
        simp [OrderedMap.contains, href]
      · intro entry hmem ref href
        obtain ⟨other, hother, hkey⟩ := hentry entry hmem
        obtain rfl : other = ref := Option.some.inj (hother.symm.trans href)
        rw [hkey]
        refine ih entry hmem (hcomplete entry hmem) fun event hevent => hevents event ?_
        refine List.mem_append_right _ (List.mem_append_left _ ?_)
        exact List.mem_flatMap.mpr ⟨entry, hmem, hevent⟩
      · intro field hrequired
        have hcarried := hcarries field hrequired
        rw [Sighting.carries, ref?_fieldsOf] at hcarried
        simpa [Option.any_map, Function.comp_def] using hcarried

/-! ## Runs under the standard naming -/

/-- Values that are stored under one key have their parts in the same places. -/
theorem agreeing_of_standard {events : List Event}
    (hstandard : ∀ s, Event.sighted s ∈ events → s.IsStandard) : Agreeing events := by
  have hchild : ∀ (s : Sighting) field key, s.IsStandard → s.child? field = some key →
      key = partKey s.key (partPosition s.kind s.key field) := by
    intro s field key hs hkey
    obtain ⟨ref, href, rfl⟩ := Option.map_eq_some_iff.mp hkey
    exact hs.parts (field, ref) (List.mem_reverse.mp (OrderedMap.mem_of_valueAt href))
  intro s t hs ht hsameKey hsameKind field first second hfirst hsecond
  rw [hchild s field first (hstandard s hs) hfirst,
    hchild t field second (hstandard t ht) hsecond, hsameKey, hsameKind]

/-- A batch of ASCII data under the standard naming. -/
structure Delivery.IsStandard (delivery : Delivery) : Prop where
  standard : ∃ root, delivery.naming = Naming.standard root ∧
    Text.IsAsciiIdentifier (rootName root)
  ascii : ∀ sample ∈ delivery.examples.samples, ∀ name ∈ sample.memberNames, name.IsAscii

/-- All that a standard batch sees stands at a standard position. -/
theorem Delivery.IsStandard.sighting {delivery : Delivery} (hdelivery : delivery.IsStandard)
    {s : Sighting} (hs : Event.sighted s ∈ delivery.events) : s.IsStandard := by
  obtain ⟨⟨root, hnaming, hroot⟩, hascii⟩ := hdelivery
  rw [Delivery.events, hnaming] at hs
  exact (way_standard hroot hascii).2 s hs

/-- **Soundness of inference.**  After batches that all succeeded on a new builder, each of them
ASCII data under the standard naming with whatever root and strictness, the model accepts every
sample of every batch at the root that the batch returned. -/
theorem accepts_of_run {calls : List (Delivery × Name)} {builder : Builder}
    (hrun : Builder.Run {} calls builder) (hstandard : ∀ call ∈ calls, call.1.IsStandard) :
    ∀ call ∈ calls, ∀ sample ∈ call.1.examples.samples,
      builder.model.Accepts call.2 sample := by
  have hagree : Agreeing (history calls) := by
    refine agreeing_of_standard fun s hs => ?_
    obtain ⟨call, hcall, hevent⟩ := List.mem_flatMap.mp hs
    exact (hstandard call hcall).sighting hevent
  intro call hcall sample hsample
  have hway := Walk.eq_mk_iff.mp (hrun.outcome_eq call hcall)
  obtain ⟨hroot, hcomplete, hevents⟩ := Naming.way_eq_iff.mp hway
  obtain ⟨key, hkey⟩ := hcomplete sample hsample
  have hsame : key = call.2 := Except.ok.inj ((keyAt_of_walk hkey).symm.trans hroot)
  rw [← hsame]
  refine accepts_of_agreeing hagree hrun.learnt hkey ?_
  intro event hevent
  refine List.mem_flatMap.mpr ⟨call, hcall, ?_⟩
  rw [Delivery.events, hevents]
  exact List.mem_flatMap.mpr ⟨sample, hsample, hevent⟩

/-- A root whose nameless member cannot take its name, and one below which it can. -/
def nodes : List (Delivery × Name) :=
  [({ naming := .standard (some "Node")
      examples := { samples := [.object [("_", .object [("id", .scalar .number)]),
        ("node", .array [.scalar .null])]] } }, "Node"),
   ({ naming := .standard (some "node"), strict := true
      examples := { samples := [.object [("_", .object [("node", .array []),
        ("_", .object [])])], .scalar .string] } }, "node")]

/-- Both batches are taken, and their examples are accepted under the keys of their roots. -/
theorem accepts_nodes :
    ∃ builder, Builder.Run {} nodes builder ∧
      ∀ call ∈ nodes, ∀ sample ∈ call.1.examples.samples,
        builder.model.Accepts call.2 sample := by
  have hrun : ∃ builder, Builder.Run {} nodes builder :=
    ⟨_, .step (by decide +kernel) (.step (by decide +kernel) (.nil _))⟩
  obtain ⟨builder, hrun⟩ := hrun
  refine ⟨builder, hrun, accepts_of_run hrun (List.forall_mem_cons.mpr ⟨?_,
    List.forall_mem_singleton.mpr ?_⟩)⟩
  · exact ⟨⟨some "Node", rfl, by decide⟩, by decide⟩
  · exact ⟨⟨some "node", rfl, by decide⟩, by decide⟩

end Exemplar
