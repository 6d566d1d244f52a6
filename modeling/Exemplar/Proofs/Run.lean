import Exemplar.Builder
import Exemplar.Proofs.Shape
import Exemplar.Proofs.Walk.Complete

/-!
# Runs of batches

A caller adds one batch after the other to a builder.  `Builder.Run` is such a
sequence in which every batch succeeds, with the name that each of them returned;
`Builder.Reachable` and `Builder.afterAll` also allow batches that fail.

* `addBatch_ok` says what a batch that succeeds does: the model absorbs the events
  of its walk, and the root becomes the latest one.
* `shape?_absorb`, `keys_kinds_absorb` and `definingBatch?_absorb` say what can be
  asked of a model that has absorbed a list of events.
* `Builder.Run.view_eq` carries such an answer from one batch to a whole run and
  the events of all its batches, its `history`; for a new builder the answers come
  together in `Model.Learnt`.
-/

namespace Exemplar

/-! ## What a model knows after many events -/

/-- The model that results from some events in a batch when nothing is refused. -/
def Model.absorb (number : BatchNumber) (model : Model) (events : List Event) : Model :=
  events.foldl (Event.effect number) model

/-- The sightings of one kind at one key, in the order of events. -/
def sightingsAt (key : Keypath) (kind : Kind) (events : List Event) : List Sighting :=
  (sightings events).filter fun s => decide (s.key = key ∧ s.kind = kind)

/-- The shape that sightings leave at a place, given the one before. -/
def stack (before : Option Shape) (seen : List Sighting) : Option Shape :=
  seen.foldl (fun shape s => some (s.onto shape)) before

/-- No events show nothing. -/
@[simp] theorem sightings_nil : sightings [] = [] := rfl

/-- A registration shows no value. -/
@[simp] theorem sightings_registered (name : Name) (events : List Event) :
    sightings (.registered name :: events) = sightings events := rfl

/-- A sighting is shown. -/
@[simp] theorem sightings_sighted (s : Sighting) (events : List Event) :
    sightings (.sighted s :: events) = s :: sightings events := rfl

/-- Events in a row show their sightings in a row. -/
@[simp] theorem sightings_append (first later : List Event) :
    sightings (first ++ later) = sightings first ++ sightings later := by
  simp [sightings]

/-- The sightings are those among the events. -/
theorem mem_sightings_iff (events : List Event) (s : Sighting) :
    s ∈ sightings events ↔ Event.sighted s ∈ events := by
  rw [sightings, List.mem_filterMap]
  constructor
  · intro hgiven
    obtain ⟨event, hmem, hsighting⟩ := hgiven
    cases event with
    | registered name => simp [Event.sighting?] at hsighting
    | sighted t =>
        obtain rfl : t = s := by simpa [Event.sighting?] using hsighting
        exact hmem
  · intro hmem
    exact ⟨.sighted s, hmem, rfl⟩

/-- Events in a row show what they show at a key in a row. -/
theorem sightingsAt_append (key : Keypath) (kind : Kind) (first later : List Event) :
    sightingsAt key kind (first ++ later) =
      sightingsAt key kind first ++ sightingsAt key kind later := by
  simp [sightingsAt]

/-- The sightings at a key and of a kind are those among the events. -/
theorem mem_sightingsAt_iff (key : Keypath) (kind : Kind) (events : List Event) (s : Sighting) :
    s ∈ sightingsAt key kind events ↔ Event.sighted s ∈ events ∧ s.key = key ∧ s.kind = kind := by
  simp [sightingsAt, mem_sightings_iff]

namespace Sighting

/-- The fields of a sighting stand in the order of their first appearance. -/
theorem keys_shape (s : Sighting) : s.shape.keys = s.names.eraseDups :=
  OrderedMap.keys_ofList s.fields

/-- The fields of a sighting lead where it was seen to lead. -/
theorem child?_shape (s : Sighting) (field : Text) : s.shape.child? field = s.child? field := by
  rw [Shape.child?, shape, OrderedMap.get?_ofList]
  rfl

/-- A sighting requires the fields that all its values carry. -/
theorem requires_shape (s : Sighting) (field : Text) :
    s.shape.requires field = s.carries field := by
  rw [Shape.requires, shape, OrderedMap.get?_ofList]
  rfl

end Sighting

/-- To stack sightings on a shape is to join their shapes to it. -/
theorem stack_some (old : Shape) (seen : List Sighting) :
    stack (some old) seen = some ((seen.map Sighting.shape).foldl Shape.join old) := by
  induction seen generalizing old with
  | nil => rfl
  | cons s rest ih => exact ih (old.join s.shape)

/-- Where there is no shape the first sighting gives one. -/
theorem stack_none_cons (s : Sighting) (rest : List Sighting) :
    stack none (s :: rest) = some ((rest.map Sighting.shape).foldl Shape.join s.shape) :=
  stack_some s.shape rest

/-- There is no shape where nothing was seen. -/
theorem stack_none_eq_none_iff (seen : List Sighting) : stack none seen = none ↔ seen = [] := by
  cases seen with
  | nil => simp [stack]
  | cons s rest => simp [stack_none_cons]

/-- There is a shape where something was seen. -/
theorem exists_stack_of_mem {seen : List Sighting} {s : Sighting} (hmem : s ∈ seen)
    (before : Option Shape) : ∃ shape, stack before seen = some shape := by
  cases seen with
  | nil => exact absurd hmem List.not_mem_nil
  | cons first rest => exact ⟨_, stack_some (first.onto before) rest⟩

/-- A shape at a place is the stack of all sightings there. -/
theorem shape?_absorb (number : BatchNumber) (model : Model) (events : List Event)
    (key : Keypath) (kind : Kind) :
    (model.absorb number events).shape? key kind =
      stack (model.shape? key kind) (sightingsAt key kind events) := by
  induction events generalizing model with
  | nil => rfl
  | cons event rest ih =>
      have htail := ih (event.effect number model)
      cases event with
      | registered name =>
          have hsame : ((Event.registered name).effect number model).shape? key kind =
              model.shape? key kind := by
            simp only [Event.effect, Model.register]
            split <;> rfl
          rw [hsame] at htail
          exact htail
      | sighted s =>
          simp only [Event.effect, Model.shape?_setShape] at htail
          by_cases hhere : s.key = key ∧ s.kind = kind
          · obtain ⟨rfl, rfl⟩ := hhere
            simpa [Model.absorb, sightingsAt, stack, Event.effect] using htail
          · simpa [Model.absorb, sightingsAt, stack, Event.effect, hhere] using htail

/-- Kinds stand at a key in the order in which they were first seen there. -/
theorem keys_kinds_absorb (number : BatchNumber) (model : Model) (events : List Event)
    (key : Keypath) :
    ((model.absorb number events).kinds key).keys =
      ((model.kinds key).keys ++
        ((sightings events).filter fun s => s.key = key).map Sighting.kind).eraseDups := by
  have hstep : ∀ (before : Model) (event : Event),
      ((event.effect number before).kinds key).keys =
        ((before.kinds key).keys ++
          ((sightings [event]).filter fun s => s.key = key).map Sighting.kind).eraseDups := by
    intro before event
    cases event with
    | registered name =>
        have hsame : ((Event.registered name).effect number before).kinds key =
            before.kinds key := by
          simp only [Event.effect, Model.register]
          split <;> rfl
        simp [hsame, eraseDups_of_nodup (before.kinds key).nodup]
    | sighted s =>
        simp only [Event.effect, Model.kinds_setShape]
        by_cases hhere : s.key = key
        · subst hhere
          simp [OrderedMap.keys_insert_eq_eraseDups]
        · simp [hhere, eraseDups_of_nodup (before.kinds key).nodup]
  have hfold := foldl_eraseDups (fun before : Model => (before.kinds key).keys)
    (fun event => ((sightings [event]).filter fun s => s.key = key).map Sighting.kind)
    (fun before => (before.kinds key).nodup) hstep events model
  have hnames : (events.flatMap fun event =>
      ((sightings [event]).filter fun s => decide (s.key = key)).map Sighting.kind) =
      ((sightings events).filter fun s => s.key = key).map Sighting.kind := by
    clear hfold hstep
    induction events with
    | nil => rfl
    | cons event rest ih =>
        rw [List.flatMap_cons, ih, ← List.map_append, ← List.filter_append, ← sightings_append]
        rfl
  rw [hnames] at hfold
  exact hfold

/-- A key is known once something was seen there. -/
theorem mem_keys_shapes_absorb (number : BatchNumber) (model : Model) (events : List Event)
    (key : Keypath) :
    key ∈ (model.absorb number events).shapes.keys ↔
      key ∈ model.shapes.keys ∨ ∃ s ∈ sightings events, s.key = key := by
  induction events generalizing model with
  | nil => simp [Model.absorb]
  | cons event rest ih =>
      have htail := ih (event.effect number model)
      cases event with
      | registered name =>
          have hsame : ((Event.registered name).effect number model).shapes = model.shapes := by
            simp only [Event.effect, Model.register]
            split <;> rfl
          rw [hsame] at htail
          exact htail
      | sighted s =>
          have hhead : key ∈ ((Event.sighted s).effect number model).shapes.keys ↔
              key ∈ model.shapes.keys ∨ s.key = key := by
            simp only [Event.effect, Model.setShape, OrderedMap.mem_keys_iff,
              OrderedMap.get?_insert]
            by_cases hhere : s.key = key <;> simp [hhere]
          refine htail.trans ?_
          simp [hhead, or_assoc]

/-- A type stays with the batch that registered it first. -/
theorem definingBatch?_absorb (number : BatchNumber) (model : Model) (events : List Event)
    (name : Name) :
    (model.absorb number events).definingBatch? name =
      (model.definingBatch? name).or
        (if Event.registered name ∈ events then some number else none) := by
  induction events generalizing model with
  | nil => simp [Model.absorb]
  | cons event rest ih =>
      have htail := ih (event.effect number model)
      cases event with
      | sighted s =>
          simpa [Model.absorb, Event.effect, Model.setShape, Model.definingBatch?] using htail
      | registered other =>
          have hhead : ((Event.registered other).effect number model).definingBatch? name =
              (model.definingBatch? name).or (if other = name then some number else none) := by
            rw [Event.effect, Model.definingBatch?_register]
            by_cases hsame : other = name
            · subst hsame
              cases hknown : model.definingBatch? other <;>
                simp_all [Model.isNamed, Model.definingBatch?, OrderedMap.contains]
            · simp [hsame]
          rw [hhead, Option.or_assoc] at htail
          refine htail.trans ?_
          by_cases hsame : other = name
          · simp [hsame]
          · have hother : ¬ name = other := fun heq => hsame heq.symm
            simp [hsame, hother]

/-- Events add no roots. -/
theorem roots_absorb (number : BatchNumber) (model : Model) (events : List Event) :
    (model.absorb number events).roots = model.roots := by
  induction events generalizing model with
  | nil => rfl
  | cons event rest ih =>
      refine (ih (event.effect number model)).trans ?_
      cases event with
      | sighted s => rfl
      | registered name =>
          simp only [Event.effect, Model.register]
          split <;> rfl

/-- A name is known if a batch defined it. -/
theorem isNamed_eq_isSome (model : Model) (name : Name) :
    model.isNamed name = (model.definingBatch? name).isSome := rfl

/-- Named afterwards are the names of before and those that were registered. -/
theorem isNamed_absorb_iff (number : BatchNumber) (model : Model) (events : List Event)
    (name : Name) :
    (model.absorb number events).isNamed name = true ↔
      model.isNamed name = true ∨ Event.registered name ∈ events := by
  rw [isNamed_eq_isSome, definingBatch?_absorb, isNamed_eq_isSome]
  by_cases hmem : Event.registered name ∈ events <;> simp [hmem]

/-! ## Batches -/

/-- The way of a batch: the root gets its name, and the samples follow one after the other. -/
def Naming.way (naming : Naming) (samples : List Sample) : Walk Name := do
  let root ← .ask (naming.keyAt [] [])
  walkItems naming [] [] samples
  return root

/-- The events of a batch are those of its samples, one after the other, if all of them come to
their ends. -/
theorem Naming.way_eq_iff {naming : Naming} {samples : List Sample} {events : List Event}
    {root : Name} :
    naming.way samples = ⟨events, .ok root⟩ ↔
      naming.keyAt [] [] = .ok root ∧
        (∀ sample ∈ samples, ∃ key, (walk naming [] [] sample).outcome = .ok key) ∧
        events = samples.flatMap fun sample => (walk naming [] [] sample).events := by
  simp only [Naming.way, Walk.bind_eq_iff, Walk.ask_eq_iff, pure, Walk.mk.injEq, Except.ok.injEq]
  constructor
  · intro hgiven
    obtain ⟨_, _, _, ⟨hroot, rfl⟩, ⟨_, _, _, hitems, ⟨rfl, rfl⟩, rfl⟩, rfl⟩ := hgiven
    obtain ⟨hsamples, rfl⟩ := walkItems_eq_iff.mp hitems
    exact ⟨hroot, hsamples, by simp⟩
  · intro hgiven
    obtain ⟨hroot, hsamples, rfl⟩ := hgiven
    have hitems := walkItems_eq_iff.mpr ⟨hsamples, rfl⟩
    exact ⟨_, _, _, ⟨hroot, rfl⟩, ⟨_, _, _, hitems, ⟨rfl, rfl⟩, rfl⟩, by simp⟩

/-- Under a total naming the way of a batch comes to its end. -/
theorem Naming.Total.way {naming : Naming} (htotal : naming.Total) (samples : List Sample) :
    ∃ root, naming.way samples =
      ⟨samples.flatMap fun sample => (walk naming [] [] sample).events, .ok root⟩ := by
  obtain ⟨root, hroot⟩ := keyAt_total htotal [] []
  exact ⟨root, Naming.way_eq_iff.mpr ⟨hroot, fun sample _ => walk_total htotal [] [] sample, rfl⟩⟩

/-- Events that are taken have the effects that they have on any model. -/
theorem foldlM_apply_eq_ok {batch : Batch} {events : List Event} {model after : Model}
    (hok : events.foldlM (Event.apply batch) model = .ok after) :
    after = model.absorb batch.number events := by
  induction events generalizing model with
  | nil => exact (Except.ok.inj hok).symm
  | cons event rest ih =>
      rw [List.foldlM_cons] at hok
      cases hconflict : event.conflict? batch model with
      | some conflict =>
          simp [Event.apply, hconflict, bind, Except.bind] at hok
      | none =>
          simp only [Event.apply, hconflict, bind, Except.bind] at hok
          exact ih hok

/-- A batch that is not strict refuses nothing. -/
theorem foldlM_apply_of_not_strict {batch : Batch} (hloose : batch.strict = false)
    (events : List Event) (model : Model) :
    events.foldlM (Event.apply batch) model = .ok (model.absorb batch.number events) := by
  induction events generalizing model with
  | nil => rfl
  | cons event rest ih =>
      have hconflict : event.conflict? batch model = none := by
        cases event with
        | registered name => rfl
        | sighted s =>
            simp only [Event.conflict?, Option.bind_eq_none_iff]
            intro old _
            cases old.changes s.shape <;> simp [Model.refusal?, hloose]
      rw [List.foldlM_cons]
      simp only [Event.apply, hconflict, bind, Except.bind]
      exact ih (event.effect batch.number model)

/-- A batch is committed by taking the model along its way. -/
theorem commit_eq_run (model : Model) (batch : Batch) (examples : Examples) :
    model.commit batch examples =
      ((batch.naming.way examples.samples).run batch model >>= fun reached =>
        match examples.failure with
        | some failure => .error failure
        | none => .ok (reached.1, reached.2.addRoot reached.1)) := by
  simp only [Model.commit, Naming.way, Walk.run_bind, Walk.run_ask, Walk.run_pure, Batch.keyAt,
    mergeItems_eq_run]
  cases batch.naming.keyAt [] [] with
  | error message => rfl
  | ok root =>
      simp only [mapError_ok, Functor.map, Except.map, bind, Except.bind]
      cases (walkItems batch.naming [] [] examples.samples).run batch model <;> rfl

/-- A batch is committed only when its way comes to its end and so do the examples. -/
theorem commit_ok {model after : Model} {batch : Batch} {examples : Examples} {root : Name}
    (hok : model.commit batch examples = .ok (root, after)) :
    (batch.naming.way examples.samples).outcome = .ok root ∧ examples.failure = none ∧
      after = (model.absorb batch.number (batch.naming.way examples.samples).events).addRoot
        root := by
  rw [commit_eq_run] at hok
  cases hrun : (batch.naming.way examples.samples).run batch model with
  | error failure =>
      rw [hrun] at hok
      cases hok
  | ok reached =>
      obtain ⟨found, last⟩ := reached
      obtain ⟨houtcome, hevents⟩ := Walk.run_ok hrun
      rw [hrun] at hok
      cases hfailure : examples.failure with
      | some failure =>
          simp only [hfailure] at hok
          cases hok
      | none =>
          simp only [hfailure] at hok
          cases hok
          exact ⟨houtcome, rfl, by rw [foldlM_apply_eq_ok hevents]⟩

/-- When the generator and the examples hold out, only a refused event can keep a batch from
being committed. -/
theorem commit_of_outcome {batch : Batch} {examples : Examples} {root : Name}
    (houtcome : (batch.naming.way examples.samples).outcome = .ok root)
    (hwhole : examples.failure = none) (model : Model) :
    model.commit batch examples =
      (fun after => (root, after.addRoot root)) <$>
        (batch.naming.way examples.samples).events.foldlM (Event.apply batch) model := by
  rw [commit_eq_run, Walk.run_of_outcome houtcome, hwhole]
  cases (batch.naming.way examples.samples).events.foldlM (Event.apply batch) model <;> rfl

namespace Builder

/-- The terms of the next batch. -/
def nextBatch (builder : Builder) (naming : Naming) (strict : Bool) : Batch where
  number := (builder.batches + 1 : Nat)
  naming := naming
  strict := strict

/-- A batch is counted, whether its model is kept or not. -/
theorem addBatch_eq (builder : Builder) (naming : Naming) (strict : Bool) (examples : Examples) :
    builder.addBatch naming strict examples =
      match builder.model.commit (builder.nextBatch naming strict) examples with
      | .ok (root, model) => (.ok root, { model, batches := builder.batches + 1 })
      | .error failure => (.error failure, { builder with batches := builder.batches + 1 }) := rfl

/-- The builder after a batch of events that was committed. -/
def committed (builder : Builder) (events : List Event) (root : Name) : Builder where
  model := (builder.model.absorb (builder.batches + 1 : Nat) events).addRoot root
  batches := builder.batches + 1

/-- **What a batch does.**  A batch that succeeds lets the model absorb the events of its way
and makes the root of the way the latest one. -/
theorem addBatch_ok {builder after : Builder} {naming : Naming} {strict : Bool}
    {examples : Examples} {root : Name}
    (hok : builder.addBatch naming strict examples = (.ok root, after)) :
    (naming.way examples.samples).outcome = .ok root ∧ examples.failure = none ∧
      after = builder.committed (naming.way examples.samples).events root := by
  cases hcommit : builder.model.commit (builder.nextBatch naming strict) examples with
  | error failure =>
      rw [addBatch_eq, hcommit] at hok
      cases hok
  | ok reached =>
      obtain ⟨found, model⟩ := reached
      obtain ⟨houtcome, hwhole, rfl⟩ := commit_ok hcommit
      rw [addBatch_eq, hcommit] at hok
      cases hok
      exact ⟨houtcome, hwhole, rfl⟩

/-- When the generator and the examples hold out, a batch goes on to its events. -/
theorem addBatch_of_outcome {naming : Naming} {examples : Examples} {root : Name}
    (houtcome : (naming.way examples.samples).outcome = .ok root)
    (hwhole : examples.failure = none) (builder : Builder) (strict : Bool) :
    builder.addBatch naming strict examples =
      match (naming.way examples.samples).events.foldlM
          (Event.apply (builder.nextBatch naming strict)) builder.model with
      | .ok model => (.ok root, { model := model.addRoot root, batches := builder.batches + 1 })
      | .error failure => (.error failure, { builder with batches := builder.batches + 1 }) := by
  have hcommit : builder.model.commit (builder.nextBatch naming strict) examples =
      (fun after => (root, after.addRoot root)) <$>
        (naming.way examples.samples).events.foldlM
          (Event.apply (builder.nextBatch naming strict)) builder.model :=
    @commit_of_outcome (builder.nextBatch naming strict) examples root houtcome hwhole
      builder.model
  rw [addBatch_eq, hcommit]
  cases (naming.way examples.samples).events.foldlM
    (Event.apply (builder.nextBatch naming strict)) builder.model <;> rfl

/-- **When a batch succeeds.**  It does when the generator and the examples hold out and none of
its events is refused. -/
theorem addBatch_eq_ok_iff {builder after : Builder} {naming : Naming} {strict : Bool}
    {examples : Examples} {root : Name} :
    builder.addBatch naming strict examples = (.ok root, after) ↔
      (naming.way examples.samples).outcome = .ok root ∧ examples.failure = none ∧
        ∃ model, (naming.way examples.samples).events.foldlM
            (Event.apply (builder.nextBatch naming strict)) builder.model = .ok model ∧
          after = { model := model.addRoot root, batches := builder.batches + 1 } := by
  constructor
  · intro hok
    obtain ⟨houtcome, hwhole, -⟩ := addBatch_ok hok
    refine ⟨houtcome, hwhole, ?_⟩
    rw [addBatch_of_outcome houtcome hwhole] at hok
    cases hevents : (naming.way examples.samples).events.foldlM
        (Event.apply (builder.nextBatch naming strict)) builder.model with
    | error failure =>
        rw [hevents] at hok
        cases hok
    | ok model =>
        rw [hevents] at hok
        cases hok
        exact ⟨model, rfl, rfl⟩
  · intro hgiven
    obtain ⟨houtcome, hwhole, model, hevents, rfl⟩ := hgiven
    rw [addBatch_of_outcome houtcome hwhole, hevents]

/-- A batch that is not strict succeeds when the generator and the examples hold out. -/
theorem addBatch_of_not_strict {builder : Builder} {naming : Naming} {examples : Examples}
    {root : Name} (houtcome : (naming.way examples.samples).outcome = .ok root)
    (hwhole : examples.failure = none) :
    builder.addBatch naming false examples =
      (.ok root, builder.committed (naming.way examples.samples).events root) := by
  rw [addBatch_of_outcome houtcome hwhole, foldlM_apply_of_not_strict rfl]
  rfl

end Builder

/-! ## Runs -/

/-- What a caller hands in with one batch. -/
structure Delivery where
  naming : Naming
  strict : Bool := false
  examples : Examples

/-- The events of the batch that a caller hands in. -/
def Delivery.events (delivery : Delivery) : List Event :=
  (delivery.naming.way delivery.examples.samples).events

namespace Builder

/-- Batches that all succeed, each with the name that it returned, lead from one builder to
another. -/
inductive Run : Builder → List (Delivery × Name) → Builder → Prop
  | nil (builder : Builder) : Run builder [] builder
  | cons {builder next after : Builder} {delivery : Delivery} {root : Name}
      {rest : List (Delivery × Name)}
      (hadded : builder.addBatch delivery.naming delivery.strict delivery.examples =
        (.ok root, next))
      (htail : Run next rest after) : Run builder ((delivery, root) :: rest) after

/-- What a new builder can become by batches that succeed or fail. -/
inductive Reachable : Builder → Prop
  | start : Reachable {}
  | added {builder : Builder} (hreached : Reachable builder) (naming : Naming) (strict : Bool)
      (examples : Examples) : Reachable (builder.addBatch naming strict examples).2

/-- What a builder becomes by some batches one after the other, whether they succeed or fail. -/
def afterAll (builder : Builder) (deliveries : List Delivery) : Builder :=
  deliveries.foldl (fun before delivery =>
    (before.addBatch delivery.naming delivery.strict delivery.examples).2) builder

end Builder

/-- The events of all batches of a run. -/
def history (calls : List (Delivery × Name)) : List Event :=
  calls.flatMap fun call => call.1.events

/-- The history of calls begins with that of the first. -/
theorem history_cons (call : Delivery × Name) (rest : List (Delivery × Name)) :
    history (call :: rest) = call.1.events ++ history rest := rfl

namespace Builder.Run

variable {builder after : Builder} {calls : List (Delivery × Name)}

/-- A run goes on with any batch that returns a name. -/
theorem step {delivery : Delivery} {root : Name} {rest : List (Delivery × Name)}
    (hok : (builder.addBatch delivery.naming delivery.strict delivery.examples).1.toOption =
      some root)
    (htail : Run (builder.addBatch delivery.naming delivery.strict delivery.examples).2 rest
      after) : Run builder ((delivery, root) :: rest) after := by
  cases hadded : builder.addBatch delivery.naming delivery.strict delivery.examples with
  | mk result next =>
      rw [hadded] at hok htail
      cases result with
      | error failure => cases hok
      | ok name =>
          cases hok
          exact .cons hadded htail

/-- Each batch of a run has the root that it returned. -/
theorem outcome_eq (hrun : Run builder calls after) :
    ∀ call ∈ calls, (call.1.naming.way call.1.examples.samples).outcome = .ok call.2 := by
  induction hrun with
  | nil builder => simp
  | cons added tail ih =>
      intro call hmem
      rcases List.mem_cons.mp hmem with rfl | hmem
      · exact (addBatch_ok added).1
      · exact ih call hmem

/-- What a run leaves of a view of the model, when each batch extends the view by its events
and the root makes no difference to it. -/
theorem view_eq {α : Type} (hrun : Run builder calls after) (view : Model → α)
    (extend : α → List Event → α)
    (hroot : ∀ (model : Model) (root : Name), view (model.addRoot root) = view model)
    (habsorb : ∀ (number : BatchNumber) (model : Model) (events : List Event),
      view (model.absorb number events) = extend (view model) events)
    (happend : ∀ (seen : α) (first later : List Event),
      extend seen (first ++ later) = extend (extend seen first) later) :
    view after.model = extend (view builder.model) (history calls) := by
  induction hrun with
  | nil builder => exact habsorb 0 builder.model []
  | @cons builder next after delivery root rest hadded htail ih =>
      obtain ⟨-, -, rfl⟩ := addBatch_ok hadded
      have hnext : view (builder.committed delivery.events root).model =
          extend (view builder.model) delivery.events :=
        (hroot _ root).trans (habsorb _ builder.model delivery.events)
      rw [ih, history_cons, happend]
      exact congrArg (extend · (history rest)) hnext

/-- **Shapes after a run.**  The shape at a place is the stack of all sightings there. -/
theorem shape?_eq (hrun : Run builder calls after) (key : Keypath) (kind : Kind) :
    after.model.shape? key kind =
      stack (builder.model.shape? key kind) (sightingsAt key kind (history calls)) := by
  refine hrun.view_eq (fun model => model.shape? key kind)
    (fun shape events => stack shape (sightingsAt key kind events)) (fun _ _ => rfl)
    (fun number model events => shape?_absorb number model events key kind) ?_
  intro shape first later
  rw [sightingsAt_append]
  exact List.foldl_append

/-- The kinds at a key stand in the order of their first appearance. -/
theorem keys_kinds_eq (hrun : Run builder calls after) (key : Keypath) :
    (after.model.kinds key).keys =
      ((builder.model.kinds key).keys ++
        ((sightings (history calls)).filter fun s => s.key = key).map Sighting.kind).eraseDups := by
  refine hrun.view_eq (fun model => (model.kinds key).keys)
    (fun kinds events => (kinds ++
      ((sightings events).filter fun s => s.key = key).map Sighting.kind).eraseDups)
    (fun _ _ => rfl) (fun number model events => keys_kinds_absorb number model events key) ?_
  intro kinds first later
  rw [eraseDups_eraseDups_append, sightings_append, List.filter_append, List.map_append,
    List.append_assoc]

/-- Named in the end are the names of before and those that were registered in between. -/
theorem isNamed_iff (hrun : Run builder calls after) (name : Name) :
    after.model.isNamed name = true ↔
      builder.model.isNamed name = true ∨ Event.registered name ∈ history calls := by
  refine iff_of_eq <| hrun.view_eq (fun model => model.isNamed name = true)
    (fun known events => known ∨ Event.registered name ∈ events) (fun _ _ => rfl)
    (fun number model events => propext (isNamed_absorb_iff number model events name)) ?_
  intro known first later
  rw [List.mem_append, or_assoc]

/-- Stored in the end are the keys of before and those at which something was seen. -/
theorem mem_keys_shapes_iff (hrun : Run builder calls after) (key : Keypath) :
    key ∈ after.model.shapes.keys ↔
      key ∈ builder.model.shapes.keys ∨ ∃ s ∈ sightings (history calls), s.key = key := by
  refine iff_of_eq <| hrun.view_eq (fun model => key ∈ model.shapes.keys)
    (fun known events => known ∨ ∃ s ∈ sightings events, s.key = key) (fun _ _ => rfl)
    (fun number model events => propext (mem_keys_shapes_absorb number model events key)) ?_
  intro known first later
  simp only [sightings_append, List.mem_append, or_and_right, exists_or, or_assoc]

end Builder.Run

/-- A model that has learnt from some events and from nothing else. -/
structure Model.Learnt (model : Model) (events : List Event) : Prop where
  shapes : ∀ key kind, model.shape? key kind = stack none (sightingsAt key kind events)
  kinds : ∀ key, (model.kinds key).keys =
    (((sightings events).filter fun s => s.key = key).map Sighting.kind).eraseDups
  keys : ∀ key, key ∈ model.shapes.keys ↔ ∃ s ∈ sightings events, s.key = key
  names : ∀ name, model.isNamed name = true ↔ Event.registered name ∈ events

/-- **What a run teaches.**  A new builder learns from the events of all batches. -/
theorem Builder.Run.learnt {builder : Builder} {calls : List (Delivery × Name)}
    (hrun : Builder.Run {} calls builder) : builder.model.Learnt (history calls) where
  shapes key kind := hrun.shape?_eq key kind
  kinds key := by simpa [Model.kinds] using hrun.keys_kinds_eq key
  keys key := (hrun.mem_keys_shapes_iff key).trans (by simp)
  names name := by
    simpa [Model.isNamed, OrderedMap.contains] using hrun.isNamed_iff name

end Exemplar
