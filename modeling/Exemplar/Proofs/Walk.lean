import Exemplar.Batch

/-!
# The walk through a sample, apart from the model

`merge` does two things at once: it goes through a sample and finds a key for
every position, and it changes a model on the way.  Which positions it visits
and which keys they get depends on the naming and on the sample alone, never on
the model.  This file takes the two apart.

* `Event` is one thing that happens on the way: a name is registered, or a value
  has been seen as of some kind at some key (`Sighting`).
* `walk` lists the events of a sample in the order in which they are completed,
  up to the first failure of the generator, if there is one.
* `Event.apply` is what one event does to a model in a batch.
* `merge_eq_run` and `mergeItems_eq_run` put both together again: to merge a
  sample is to apply the events of its walk, one after the other.

Everything about many merges can thus be stated about one list of events.
-/

namespace Exemplar

/-- To prove something of all samples, prove it of arrays from their items and
of objects from their members. -/
@[elab_as_elim]
theorem Sample.ind {P : Sample → Prop} (scalar : ∀ s, P (.scalar s))
    (array : ∀ items : List Sample, (∀ item ∈ items, P item) → P (.array items))
    (object : ∀ members : List (Text × Sample),
      (∀ entry ∈ members, P entry.2) → P (.object members)) (sample : Sample) : P sample := by
  refine @Sample.rec P (fun items => ∀ item ∈ items, P item)
    (fun members => ∀ entry ∈ members, P entry.2) (fun entry => P entry.2)
    scalar array object ?_ ?_ ?_ ?_ ?_ sample
  · intro item hitem
    exact absurd hitem List.not_mem_nil
  · intro item rest hhead htail other hother
    rcases List.mem_cons.mp hother with rfl | hmem
    · exact hhead
    · exact htail other hmem
  · intro entry hentry
    exact absurd hentry List.not_mem_nil
  · intro entry rest hhead htail other hother
    rcases List.mem_cons.mp hother with rfl | hmem
    · exact hhead
    · exact htail other hmem
  · intro member sample hsample
    exact hsample

/-! ## Sightings and events -/

/-- A value that was seen as of a kind at a key.  Its fields stand as often and in the
order in which the value has them; each carries the key its part was stored under. -/
structure Sighting where
  key : Keypath
  kind : Kind
  fields : List (Text × FieldRef) := []
deriving DecidableEq, Repr

namespace Sighting

/-- The names of the fields, in order and as often as they stand. -/
def names (s : Sighting) : List Text :=
  s.fields.map Prod.fst

/-- What a sighting says of a field; of several entries under one name the last decides. -/
def ref? (s : Sighting) (field : Text) : Option FieldRef :=
  OrderedMap.valueAt field s.fields.reverse

/-- The key that a sighting found for the values of a field. -/
def child? (s : Sighting) (field : Text) : Option Keypath :=
  (s.ref? field).map FieldRef.key

/-- Whether a sighting has a field with a value other than `undefined`. -/
def carries (s : Sighting) (field : Text) : Bool :=
  (s.ref? field).any FieldRef.required

/-- The fields of a sighting as a shape. -/
def shape (s : Sighting) : Shape :=
  OrderedMap.ofList s.fields

/-- The shape at the place of a sighting afterwards, given the one before. -/
def onto (s : Sighting) : Option Shape → Shape
  | none => s.shape
  | some old => old.join s.shape

end Sighting

/-- One thing that happens to a model while a sample is merged into it. -/
inductive Event where
  | registered (name : Name)
  | sighted (sighting : Sighting)
deriving DecidableEq, Repr

/-- The sighting of an event that is one. -/
def Event.sighting? : Event → Option Sighting
  | registered _ => none
  | sighted s => some s

/-- The sightings among some events. -/
def sightings (events : List Event) : List Sighting :=
  events.filterMap Event.sighting?

/-- The change of a type of an earlier batch for which a strict batch is refused. -/
def Model.refusal? (model : Model) (batch : Batch) (key : Keypath) :
    List Text → Option Redefinition
  | [] => none
  | field :: _ => (model.definingBatch? key).bind fun definedIn =>
      if batch.strict && definedIn != batch.number then
        some ⟨key, definedIn, batch.number, field⟩
      else none

/-- The check fails with the conflict for which a change is refused. -/
theorem checkRedefinition_eq (model : Model) (batch : Batch) (key : Keypath)
    (changes : List Text) :
    model.checkRedefinition batch key changes =
      match model.refusal? batch key changes with
      | some conflict => .error (.redefinition conflict)
      | none => .ok () := by
  cases changes with
  | nil => rfl
  | cons field later =>
      cases hdefined : model.definingBatch? key with
      | none => simp [Model.checkRedefinition, Model.refusal?, hdefined]
      | some definedIn =>
          by_cases hstrict : (batch.strict && definedIn != batch.number) = true
          · simp [Model.checkRedefinition, Model.refusal?, hdefined, -Bool.and_eq_true, hstrict]
          · simp [Model.checkRedefinition, Model.refusal?, hdefined, -Bool.and_eq_true, hstrict]

namespace Event

/-- The change for which a strict batch refuses an event. -/
def conflict? (batch : Batch) (model : Model) : Event → Option Redefinition
  | registered _ => none
  | sighted s => (model.shape? s.key s.kind).bind fun old =>
      model.refusal? batch s.key (old.changes s.shape)

/-- What an event makes of a model when nothing is refused. -/
def effect (number : BatchNumber) (model : Model) : Event → Model
  | registered name => model.register name number
  | sighted s => model.setShape s.key s.kind (s.onto (model.shape? s.key s.kind))

/-- What an event does to a model in a batch. -/
def apply (batch : Batch) (model : Model) (event : Event) : Except BatchError Model :=
  match event.conflict? batch model with
  | some conflict => .error (.redefinition conflict)
  | none => .ok (event.effect batch.number model)

end Event

/-- To record a value is to apply its sighting. -/
theorem record_eq_apply (batch : Batch) (model : Model) (s : Sighting) :
    model.record batch s.key s.kind s.shape = (Event.sighted s).apply batch model := by
  cases hold : model.shape? s.key s.kind with
  | none => simp [Model.record, Event.apply, Event.conflict?, Event.effect, Sighting.onto, hold]
  | some old =>
      simp only [Model.record, Event.apply, Event.conflict?, Event.effect, Sighting.onto, hold,
        Option.bind_some, checkRedefinition_eq]
      cases model.refusal? batch s.key (old.changes s.shape) <;> rfl

/-! ## Walks -/

/-- An answer is taken over, whatever a failure would have become. -/
theorem mapError_ok {α ε δ : Type} (change : ε → δ) (found : α) :
    (Except.ok found : Except ε α).mapError change = .ok found := rfl

/-- The events of a way through samples, and what was found at its end or why it ended early. -/
structure Walk (α : Type) where
  events : List Event
  outcome : Except Text α

namespace Walk

variable {α β : Type}

/-- A walk that registers a name. -/
def register (name : Name) : Walk Unit :=
  ⟨[.registered name], .ok ()⟩

/-- A walk that ends with a sighting, at the key of it. -/
def sight (s : Sighting) : Walk Keypath :=
  ⟨[.sighted s], .ok s.key⟩

/-- A walk without events that asks for a name. -/
def ask (answer : Except Text α) : Walk α :=
  ⟨[], answer⟩

/-- Go on with another walk unless the first one ended early. -/
def andThen (first : Walk α) (next : α → Walk β) : Walk β :=
  match first.outcome with
  | .ok found => ⟨first.events ++ (next found).events, (next found).outcome⟩
  | .error message => ⟨first.events, .error message⟩

instance : Monad Walk where
  pure found := ⟨[], .ok found⟩
  bind := andThen

/-- Take a model along a walk. -/
def run (batch : Batch) (walk : Walk α) (model : Model) : Except BatchError (α × Model) := do
  let model ← walk.events.foldlM (Event.apply batch) model
  let found ← walk.outcome.mapError .naming
  return (found, model)

/-- To run nothing changes nothing. -/
theorem run_pure (batch : Batch) (found : α) (model : Model) :
    (pure found : Walk α).run batch model = .ok (found, model) := rfl

/-- A sighting is recorded. -/
theorem run_sight (batch : Batch) (s : Sighting) (model : Model) :
    (sight s).run batch model =
      (fun after => (s.key, after)) <$> model.record batch s.key s.kind s.shape := by
  rw [record_eq_apply]
  simp only [run, sight, List.foldlM_cons, List.foldlM_nil]
  cases (Event.sighted s).apply batch model <;> rfl

/-- To run a question is to answer it, or to fail with its message. -/
theorem run_ask (batch : Batch) (answer : Except Text α) (model : Model) :
    (ask answer).run batch model =
      (fun found => (found, model)) <$> answer.mapError BatchError.naming := by
  cases answer <;> rfl

/-- A model goes along two walks in a row by going along one and then along the other. -/
theorem run_bind (batch : Batch) (first : Walk α) (next : α → Walk β) (model : Model) :
    (first >>= next).run batch model =
      first.run batch model >>= fun reached => (next reached.1).run batch reached.2 := by
  obtain ⟨events, outcome⟩ := first
  cases outcome with
  | error message =>
      simp only [run, bind, andThen]
      cases events.foldlM (Event.apply batch) model <;> rfl
  | ok found =>
      simp only [run, bind, andThen, List.foldlM_append]
      cases events.foldlM (Event.apply batch) model <;> rfl

/-- A model comes to the end of a walk when the generator does and no event is refused. -/
theorem run_of_outcome {walk : Walk α} {found : α} (houtcome : walk.outcome = .ok found)
    (batch : Batch) (model : Model) :
    walk.run batch model =
      (fun after => (found, after)) <$> walk.events.foldlM (Event.apply batch) model := by
  rw [run, houtcome]
  cases walk.events.foldlM (Event.apply batch) model <;> rfl

/-- A run that succeeds is of a walk that comes to its end, and takes all its events. -/
theorem run_ok {batch : Batch} {walk : Walk α} {model after : Model} {found : α}
    (hok : walk.run batch model = .ok (found, after)) :
    walk.outcome = .ok found ∧ walk.events.foldlM (Event.apply batch) model = .ok after := by
  rw [run] at hok
  cases hevents : walk.events.foldlM (Event.apply batch) model with
  | error failure =>
      rw [hevents] at hok
      cases hok
  | ok reached =>
      rw [hevents] at hok
      cases houtcome : walk.outcome with
      | error message =>
          rw [houtcome] at hok
          cases hok
      | ok last =>
          rw [houtcome] at hok
          cases hok
          exact ⟨rfl, rfl⟩

end Walk

mutual

/-- The way of a sample at a keypath below positions with the `enclosing` keys; it ends with
the key under which the sample is stored. -/
def walk (naming : Naming) (enclosing : List Keypath) (keypath : Keypath) :
    Sample → Walk Keypath
  | .scalar scalar => do
      let key ← .ask (naming.keyAt enclosing keypath)
      .sight { key, kind := .scalar scalar }
  | .array items => do
      let key ← .ask (naming.keyAt enclosing keypath)
      let element ← .ask (naming.keyAt (key :: enclosing) (elementKeypath key))
      walkItems naming (key :: enclosing) (elementKeypath key) items
      .sight { key, kind := .array, fields := [(elementMark, { key := element })] }
  | .object members => do
      let name ← .ask (naming.nameAt enclosing keypath)
      let key := name.getD keypath
      if name.isSome then .register key
      let fields ← walkMembers naming (key :: enclosing) key members
      .sight { key, kind := .object, fields }

/-- The way of samples that are all found at one keypath. -/
def walkItems (naming : Naming) (enclosing : List Keypath) (keypath : Keypath) :
    List Sample → Walk Unit
  | [] => return ()
  | item :: rest => do
      let _ ← walk naming enclosing keypath item
      walkItems naming enclosing keypath rest

/-- The way of the members of an object; it ends with the fields they are. -/
def walkMembers (naming : Naming) (enclosing : List Keypath) (parent : Keypath) :
    List (Text × Sample) → Walk (List (Text × FieldRef))
  | [] => return []
  | (member, sample) :: rest => do
      let child ← walk naming enclosing (childKeypath parent member) sample
      let later ← walkMembers naming enclosing parent rest
      return (member, { key := child, required := sample.isPresent }) :: later

end

/-! ## Merging is applying the events of the walk -/

/-- To merge items is to run a walk over them, if that is so for each of them. -/
private theorem mergeItems_eq_of_items {batch : Batch} {items : List Sample}
    (hitems : ∀ item ∈ items, ∀ enclosing keypath model, merge batch enclosing keypath item model =
      (walk batch.naming enclosing keypath item).run batch model)
    (enclosing : List Keypath) (keypath : Keypath) (model : Model) :
    mergeItems batch enclosing keypath items model =
      Prod.snd <$> (walkItems batch.naming enclosing keypath items).run batch model := by
  induction items generalizing model with
  | nil => rfl
  | cons item rest ih =>
      have hhead := hitems item List.mem_cons_self enclosing keypath model
      have htail := ih fun other hmem => hitems other (List.mem_cons_of_mem item hmem)
      simp only [mergeItems, walkItems, Walk.run_bind, hhead]
      cases (walk batch.naming enclosing keypath item).run batch model with
      | error failure => rfl
      | ok reached => exact htail reached.2

/-- To merge members is to run a walk over them, if that is so for each of them. -/
private theorem mergeMembers_eq_of_members {batch : Batch} {members : List (Text × Sample)}
    (hmembers : ∀ entry ∈ members, ∀ enclosing keypath model,
      merge batch enclosing keypath entry.2 model =
        (walk batch.naming enclosing keypath entry.2).run batch model)
    (enclosing : List Keypath) (parent : Keypath) (seen : Shape) (model : Model) :
    mergeMembers batch enclosing parent members seen model =
      (fun reached => (reached.1.foldl (fun shape entry => shape.insert entry.1 entry.2) seen,
        reached.2)) <$> (walkMembers batch.naming enclosing parent members).run batch model := by
  induction members generalizing seen model with
  | nil => rfl
  | cons entry rest ih =>
      obtain ⟨member, sample⟩ := entry
      have hhead := hmembers (member, sample) List.mem_cons_self enclosing
        (childKeypath parent member) model
      have htail := ih fun other hmem => hmembers other (List.mem_cons_of_mem _ hmem)
      simp only [mergeMembers, walkMembers, Walk.run_bind, hhead]
      cases (walk batch.naming enclosing (childKeypath parent member) sample).run batch model with
      | error failure => rfl
      | ok reached =>
          obtain ⟨child, after⟩ := reached
          have hrest := htail
            (seen.insert member { key := child, required := sample.isPresent }) after
          simp only [bind, Except.bind] at hrest ⊢
          rw [hrest]
          cases (walkMembers batch.naming enclosing parent rest).run batch after <;> rfl

/-- To merge an object is to run a walk over its members and to see it. -/
private theorem mergeMembers_record_eq_of_members {batch : Batch}
    {members : List (Text × Sample)}
    (hmembers : ∀ entry ∈ members, ∀ enclosing keypath model,
      merge batch enclosing keypath entry.2 model =
        (walk batch.naming enclosing keypath entry.2).run batch model)
    (enclosing : List Keypath) (key : Keypath) (model : Model) :
    (do
      let (seen, model) ← mergeMembers batch (key :: enclosing) key members .empty model
      return (key, ← model.record batch key .object seen)) =
    Walk.run batch (do
      let fields ← walkMembers batch.naming (key :: enclosing) key members
      .sight { key, kind := .object, fields }) model := by
  simp only [Walk.run_bind, Walk.run_sight, mergeMembers_eq_of_members hmembers]
  cases (walkMembers batch.naming (key :: enclosing) key members).run batch model <;> rfl

/-- **Merging is walking.**  To merge a sample into a model is to take the model along the way
of the sample. -/
theorem merge_eq_run (batch : Batch) (enclosing : List Keypath) (keypath : Keypath)
    (sample : Sample) (model : Model) :
    merge batch enclosing keypath sample model =
      (walk batch.naming enclosing keypath sample).run batch model := by
  induction sample using Sample.ind generalizing enclosing keypath model with
  | scalar s =>
      simp only [merge, walk, Walk.run_bind, Walk.run_ask, Walk.run_sight, Batch.keyAt]
      cases batch.naming.keyAt enclosing keypath <;> rfl
  | array items hitems =>
      simp only [merge, walk, Walk.run_bind, Walk.run_ask, Walk.run_sight, Batch.keyAt,
        mergeItems_eq_of_items hitems]
      cases batch.naming.keyAt enclosing keypath with
      | error message => rfl
      | ok key =>
          simp only [mapError_ok, Functor.map, Except.map, bind, Except.bind]
          cases batch.naming.keyAt (key :: enclosing) (elementKeypath key) with
          | error message => rfl
          | ok element =>
              simp only [mapError_ok]
              cases (walkItems batch.naming (key :: enclosing) (elementKeypath key) items).run
                batch model <;> rfl
  | object members hmembers =>
      have hrest := mergeMembers_record_eq_of_members hmembers enclosing
      simp only [merge, walk, Walk.run_bind, Walk.run_ask, Batch.nameAt]
      cases batch.naming.nameAt enclosing keypath with
      | error message => rfl
      | ok name =>
          cases name with
          | none => exact hrest keypath model
          | some name => exact hrest name (model.register name batch.number)

/-- Merging samples one after the other is taking the model along their ways. -/
theorem mergeItems_eq_run (batch : Batch) (enclosing : List Keypath) (keypath : Keypath)
    (items : List Sample) (model : Model) :
    mergeItems batch enclosing keypath items model =
      Prod.snd <$> (walkItems batch.naming enclosing keypath items).run batch model :=
  mergeItems_eq_of_items (fun item _ enclosing keypath model =>
    merge_eq_run batch enclosing keypath item model) enclosing keypath model

end Exemplar
