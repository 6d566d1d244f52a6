import Exemplar.Proofs.Growth
import Exemplar.Proofs.Strictness

/-!
# Batches that are added again

A batch that was committed once can be added again at any later time.  It teaches
nothing new then, and even a strict batch is not refused, whatever other batches came
in between.

`Model.Knows` says that an event has nothing to add to a model.  A model knows an event
right after it (`Event.knows_effect`) and goes on knowing it when it grows
(`Model.Knows.grows`), so that after a batch it knows all events of that batch for good
(`Model.knows_absorb`).  An event that a model knows is not refused and changes nothing
(`Model.Knows.apply_eq`).
-/

namespace Exemplar

/-! ## Events that a model knows -/

/-- That an event has nothing to add: its name is one of a type, or its value has only fields that
the shape at its place has, and carries all that the shape requires. -/
def Model.Knows (model : Model) : Event → Prop
  | .registered name => model.isNamed name = true
  | .sighted s => ∃ shape, model.shape? s.key s.kind = some shape ∧
      (∀ field ∈ s.names, field ∈ shape.keys) ∧
      ∀ field, shape.requires field = true → s.carries field = true

namespace Sighting

/-- The shape of a sighting has a field for each name that was seen. -/
theorem mem_keys_onto (s : Sighting) (before : Option Shape) {field : Text}
    (hfield : field ∈ s.names) : field ∈ (s.onto before).keys := by
  have hshape : field ∈ s.shape.keys := by
    rw [s.keys_shape, List.mem_eraseDups]
    exact hfield
  cases before with
  | none => exact hshape
  | some old =>
      rw [onto, Shape.keys_join_eq_eraseDups, List.mem_eraseDups]
      exact List.mem_append_right old.keys hshape

/-- A field that is still required was carried by the latest value. -/
theorem carries_of_requires_onto (s : Sighting) (before : Option Shape) {field : Text}
    (hrequired : (s.onto before).requires field = true) : s.carries field = true := by
  rw [← s.requires_shape]
  cases before with
  | none => exact hrequired
  | some old =>
      rw [onto, Shape.requires_join, Bool.and_eq_true] at hrequired
      exact hrequired.2

end Sighting

/-- An event is known right after it. -/
theorem Event.knows_effect (number : BatchNumber) (model : Model) (event : Event) :
    (event.effect number model).Knows event := by
  cases event with
  | registered name =>
      exact (isNamed_absorb_iff number model [.registered name] name).mpr
        (Or.inr (List.mem_singleton_self _))
  | sighted s =>
      refine ⟨s.onto (model.shape? s.key s.kind), ?_, ?_, ?_⟩
      · rw [effect, Model.shape?_setShape, if_pos ⟨rfl, rfl⟩]
      · exact fun field hfield => s.mem_keys_onto _ hfield
      · exact fun field hrequired => s.carries_of_requires_onto _ hrequired

namespace Model

/-- What a model knows it goes on knowing. -/
theorem Knows.grows {old new : Model} {event : Event} (hknows : old.Knows event)
    (hgrows : old.Grows new) : new.Knows event := by
  cases event with
  | registered name =>
      have hmem : name ∈ old.named.keys := (old.named.contains_iff name).mp hknows
      have hkept : name ∈ new.named.keys := (hgrows.named.map Prod.fst).subset hmem
      exact (new.named.contains_iff name).mpr hkept
  | sighted s =>
      obtain ⟨shape, hshape, hfields, hcarried⟩ := hknows
      obtain ⟨grown, hgrown, hmore⟩ := hgrows.shapes _ _ shape hshape
      refine ⟨grown, hgrown, ?_, ?_⟩
      · exact fun field hfield => hmore.fields.subset (hfields field hfield)
      · exact fun field hrequired => hcarried field (hmore.marks field hrequired)

/-- After some events a model knows them all. -/
theorem knows_absorb (number : BatchNumber) (model : Model) (events : List Event) :
    ∀ event ∈ events, (model.absorb number events).Knows event := by
  induction events generalizing model with
  | nil => exact fun event hevent => absurd hevent List.not_mem_nil
  | cons first rest ih =>
      intro event hevent
      rcases List.mem_cons.mp hevent with rfl | hmem
      · exact (event.knows_effect number model).grows (grows_absorb number _ rest)
      · exact ih (first.effect number model) event hmem

/-- To set a shape that is there changes nothing. -/
theorem setShape_eq_self {model : Model} {key : Keypath} {kind : Kind} {shape : Shape}
    (hshape : model.shape? key kind = some shape) : model.setShape key kind shape = model := by
  have hkinds : model.shapes.get? key = some (model.kinds key) := by
    cases hfound : model.shapes.get? key with
    | none => simp [shape?, kinds, hfound] at hshape
    | some found => simp [kinds, hfound]
  rw [setShape, OrderedMap.insert_eq_self hshape, OrderedMap.insert_eq_self hkinds]

/-- **A known event.**  It is not refused in any batch, and it changes nothing. -/
theorem Knows.apply_eq {model : Model} {event : Event} (hknows : model.Knows event)
    (batch : Batch) : event.apply batch model = .ok model := by
  cases event with
  | registered name =>
      have hnamed : model.isNamed name = true := hknows
      simp [Event.apply, Event.conflict?, Event.effect, register, hnamed]
  | sighted s =>
      obtain ⟨shape, hshape, hfields, hcarried⟩ := hknows
      have hchanges : shape.changes s.shape = [] := by
        refine Classical.byContradiction fun hsome => ?_
        rcases (changes_ne_nil_iff shape s).mp hsome with ⟨field, hfield, hnew⟩ | ⟨field, hboth⟩
        · exact hnew (hfields field hfield)
        · have hcarries := hcarried field hboth.1
          rw [hboth.2] at hcarries
          cases hcarries
      have hstays : s.onto (some shape) = shape :=
        (Shape.join_eq_self_iff shape s.shape).mpr hchanges
      simp [Event.apply, Event.conflict?, Event.effect, refusal?, hshape, hchanges, hstays,
        setShape_eq_self hshape]

/-- Events that a model knows pass through it without a trace, strict or not. -/
theorem foldlM_apply_of_knows {model : Model} {events : List Event}
    (hknown : ∀ event ∈ events, model.Knows event) (batch : Batch) :
    events.foldlM (Event.apply batch) model = .ok model := by
  induction events with
  | nil => rfl
  | cons event rest ih =>
      obtain ⟨hhead, htail⟩ := List.forall_mem_cons.mp hknown
      rw [List.foldlM_cons, hhead.apply_eq batch]
      exact ih htail

end Model

/-! ## Batches -/

namespace Builder

/-- **Added again.**  Once a batch has succeeded, the same examples under the same naming can be
added at any later time, strict or not and whatever batches came in between.  The batch succeeds
with the same root, which becomes the latest one, and nothing else in the model changes. -/
theorem batch_added_again {builder first : Builder} {naming : Naming} {strict : Bool}
    {examples : Examples} {root : Name}
    (hfirst : builder.addBatch naming strict examples = (.ok root, first))
    (between : List Delivery) (again : Bool) :
    let later := first.afterAll between
    root ∈ later.model.roots ∧
      later.addBatch naming again examples =
        (.ok root,
          { model := { later.model with roots := later.model.roots.erase root ++ [root] }
            batches := later.batches + 1 }) := by
  intro later
  obtain ⟨houtcome, hwhole, rfl⟩ := addBatch_ok hfirst
  have hgrows :=
    grows_afterAll (builder.committed (naming.way examples.samples).events root) between
  have hknown : ∀ event ∈ (naming.way examples.samples).events, later.model.Knows event := by
    intro event hevent
    have hthen := Model.knows_absorb (builder.batches + 1 : Nat) builder.model _ event hevent
    exact (hthen.grows (Model.grows_addRoot _ root)).grows hgrows
  refine ⟨hgrows.roots root ?_, ?_⟩
  · exact List.mem_append_right _ (List.mem_singleton_self root)
  · exact addBatch_eq_ok_iff.mpr ⟨houtcome, hwhole, later.model,
      Model.foldlM_apply_of_knows hknown _, rfl⟩

/-- Batches that make a field of a link optional and add one, that have a root of their own, and
that a link keeps out. -/
def interlude : List Delivery :=
  [{ naming := {}
     examples := { samples := [.object [("next", .scalar .null), ("title", .array [])]] } },
   { naming := { root := some "Node" }, examples := { samples := [.array [.scalar .string]] } },
   { naming := {}, strict := true, examples := { samples := [.object [("name", .object [])]] } }]

/-- The batch of the links once more, and strictly, after batches that changed their type: only the
latest root is another one. -/
theorem batch_added_again_links :
    let later := links.afterAll interlude
    later.model.roots = ["Root".toList, "Node".toList] ∧
      ∃ after, later.addBatch { given := .ofList [("Root.next", "Root")], generator := none } true
          { samples := [.object [("id", .scalar .number),
            ("next", .object [("id", .scalar .number)])]] } = (.ok "Root", after) ∧
        after.model.shapes = later.model.shapes ∧ after.model.named = later.model.named ∧
        after.model.roots = ["Node".toList, "Root".toList] := by
  intro later
  have hfirst : addBatch {} { given := .ofList [("Root.next", "Root")], generator := none } false
      { samples := [.object [("id", .scalar .number),
        ("next", .object [("id", .scalar .number)])]] } = (.ok "Root", links) := rfl
  obtain ⟨-, hagain⟩ := batch_added_again hfirst interlude true
  exact ⟨by decide +kernel, _, hagain, rfl, rfl, by decide +kernel⟩

end Builder

end Exemplar
