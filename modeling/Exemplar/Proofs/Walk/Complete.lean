import Exemplar.Proofs.Walk

/-!
# Walks that come to their end

A walk ends early only when the generator fails.  Here is what it looks like
otherwise, one statement for each kind of sample.  The statements are
equivalences, so they serve both to build a complete walk from its parts and to
take one apart: `walk_scalar_eq_iff`, `walk_array_eq_iff`, `walk_object_eq_iff`,
`walkItems_eq_iff` and `walkMembers_eq_iff`.

`keyAt_of_walk` says that the key at the end belongs to the position alone, not
to the sample found there, and `walk_total` that nothing can go wrong under a naming
that never fails.
-/

namespace Exemplar

/-- A walk in two parts comes to its end if both do, one after the other. -/
theorem Walk.bind_eq_iff {α β : Type} {first : Walk α} {next : α → Walk β}
    {events : List Event} {last : β} :
    first >>= next = ⟨events, .ok last⟩ ↔
      ∃ before found after, first = ⟨before, .ok found⟩ ∧ next found = ⟨after, .ok last⟩ ∧
        events = before ++ after := by
  obtain ⟨before, outcome⟩ := first
  constructor
  · intro heq
    cases outcome with
    | error message => cases heq
    | ok found =>
        cases hnext : next found with
        | mk after reached =>
            simp only [bind, Walk.andThen, hnext, Walk.mk.injEq] at heq
            obtain ⟨rfl, rfl⟩ := heq
            exact ⟨before, found, after, rfl, hnext, rfl⟩
  · intro hwalk
    obtain ⟨_, found, after, hfirst, hnext, rfl⟩ := hwalk
    cases hfirst
    simp only [bind, Walk.andThen, hnext]

/-- A walk is its events and its outcome. -/
theorem Walk.eq_mk_iff {α : Type} {walk : Walk α} {found : α} :
    walk.outcome = .ok found ↔ walk = ⟨walk.events, .ok found⟩ :=
  ⟨fun houtcome => by rw [← houtcome], fun heq => congrArg Walk.outcome heq⟩

/-- A walk that is written down shows its outcome. -/
theorem Walk.outcome_of_eq {α : Type} {walk : Walk α} {events : List Event} {found : α}
    (heq : walk = ⟨events, .ok found⟩) : walk.outcome = .ok found :=
  congrArg Walk.outcome heq

/-- A question comes to its end if it has an answer, without any events. -/
theorem Walk.ask_eq_iff {α : Type} {answer : Except Text α} {events : List Event} {found : α} :
    Walk.ask answer = ⟨events, .ok found⟩ ↔ answer = .ok found ∧ events = [] := by
  simp [Walk.ask, and_comm, eq_comm]

section

variable {naming : Naming} {enclosing : List Keypath} {keypath key : Keypath}
  {events : List Event}

/-- The name of a position is the one resolved for it, unless that was generated and is taken. -/
theorem nameAt_eq_ok_iff {name : Option Name} :
    naming.nameAt enclosing keypath = .ok name ↔
      ∃ found, naming.resolve keypath = .ok found ∧ name = found.filter fun text =>
        !(enclosing.contains text && !naming.given.contains keypath) := by
  rw [Naming.nameAt]
  cases naming.resolve keypath with
  | error message => simp [bind, Except.bind]
  | ok found => simp [bind, Except.bind, pure, Except.pure, eq_comm]

/-- The key of a position is its name, or its keypath when it has none. -/
theorem keyAt_eq_ok_iff :
    naming.keyAt enclosing keypath = .ok key ↔
      ∃ name, naming.nameAt enclosing keypath = .ok name ∧ key = name.getD keypath := by
  rw [Naming.keyAt]
  cases naming.nameAt enclosing keypath with
  | error message => simp [Functor.map, Except.map]
  | ok name => simp [Functor.map, Except.map, eq_comm]

/-- A walk over a scalar sees it at its key. -/
theorem walk_scalar_eq_iff {s : Scalar} :
    walk naming enclosing keypath (.scalar s) = ⟨events, .ok key⟩ ↔
      naming.keyAt enclosing keypath = .ok key ∧
        events = [.sighted { key, kind := .scalar s }] := by
  simp only [walk, Walk.bind_eq_iff, Walk.ask_eq_iff, Walk.sight, Walk.mk.injEq,
    Except.ok.injEq]
  constructor
  · intro hwalk
    obtain ⟨_, _, _, ⟨hkey, rfl⟩, ⟨rfl, rfl⟩, rfl⟩ := hwalk
    exact ⟨hkey, rfl⟩
  · intro hwalk
    obtain ⟨hkey, rfl⟩ := hwalk
    exact ⟨_, _, _, ⟨hkey, rfl⟩, ⟨rfl, rfl⟩, rfl⟩

/-- A walk over an array asks for two keys, goes over the items, and sees the array. -/
theorem walk_array_eq_iff {items : List Sample} :
    walk naming enclosing keypath (.array items) = ⟨events, .ok key⟩ ↔
      ∃ element inner, naming.keyAt enclosing keypath = .ok key ∧
        naming.keyAt (key :: enclosing) (elementKeypath key) = .ok element ∧
        walkItems naming (key :: enclosing) (elementKeypath key) items = ⟨inner, .ok ()⟩ ∧
        events = inner ++
          [.sighted { key, kind := .array, fields := [(elementMark, { key := element })] }] := by
  simp only [walk, Walk.bind_eq_iff, Walk.ask_eq_iff, Walk.sight, Walk.mk.injEq,
    Except.ok.injEq]
  constructor
  · intro hwalk
    obtain ⟨_, _, _, ⟨hkey, rfl⟩, ⟨_, element, _, ⟨helement, rfl⟩, ⟨inner, _, _, hitems,
      ⟨rfl, rfl⟩, rfl⟩, rfl⟩, rfl⟩ := hwalk
    exact ⟨element, inner, hkey, helement, hitems, rfl⟩
  · intro hwalk
    obtain ⟨element, inner, hkey, helement, hitems, rfl⟩ := hwalk
    exact ⟨_, _, _, ⟨hkey, rfl⟩, ⟨_, element, _, ⟨helement, rfl⟩, ⟨inner, _, _, hitems,
      ⟨rfl, rfl⟩, rfl⟩, rfl⟩, rfl⟩

/-- What an object at a position does before its members are looked at. -/
def registration (name : Option Name) : List Event :=
  name.toList.map Event.registered

/-- A walk over an object asks for its name, goes over the members, and sees the object. -/
private theorem walk_object_eq (members : List (Text × Sample)) :
    walk naming enclosing keypath (.object members) = (do
      let name ← .ask (naming.nameAt enclosing keypath)
      let key := name.getD keypath
      let _ ← (⟨registration name, .ok ()⟩ : Walk Unit)
      let fields ← walkMembers naming (key :: enclosing) key members
      .sight { key, kind := .object, fields }) := by
  rw [walk]
  congr 1
  funext name
  cases name with
  | some name => rfl
  | none =>
      change walkMembers naming (keypath :: enclosing) keypath members >>= _ =
        (⟨[], .ok ()⟩ : Walk Unit) >>= _
      simp [bind, Walk.andThen]

/-- It comes to its end if there is an answer and the members come to theirs. -/
theorem walk_object_eq_iff {members : List (Text × Sample)} :
    walk naming enclosing keypath (.object members) = ⟨events, .ok key⟩ ↔
      ∃ name inner fields, naming.nameAt enclosing keypath = .ok name ∧
        key = name.getD keypath ∧
        walkMembers naming (key :: enclosing) key members = ⟨inner, .ok fields⟩ ∧
        events = registration name ++ (inner ++ [.sighted { key, kind := .object, fields }]) := by
  simp only [walk_object_eq, Walk.bind_eq_iff, Walk.ask_eq_iff, Walk.sight, Walk.mk.injEq,
    Except.ok.injEq]
  constructor
  · intro hwalk
    obtain ⟨_, name, _, ⟨hname, rfl⟩, ⟨_, _, _, ⟨rfl, -⟩, ⟨inner, fields, _, hmembers,
      ⟨rfl, rfl⟩, rfl⟩, rfl⟩, rfl⟩ := hwalk
    exact ⟨name, inner, fields, hname, rfl, hmembers, rfl⟩
  · intro hwalk
    obtain ⟨name, inner, fields, hname, rfl, hmembers, rfl⟩ := hwalk
    exact ⟨_, name, _, ⟨hname, rfl⟩, ⟨_, (), _, ⟨rfl, trivial⟩, ⟨inner, fields, _, hmembers,
      ⟨rfl, rfl⟩, rfl⟩, rfl⟩, rfl⟩

/-- **The key belongs to the position.**  It does not depend on the sample found there. -/
theorem keyAt_of_walk {sample : Sample}
    (hwalk : (walk naming enclosing keypath sample).outcome = .ok key) :
    naming.keyAt enclosing keypath = .ok key := by
  have hwhole := Walk.eq_mk_iff.mp hwalk
  cases sample with
  | scalar s => exact (walk_scalar_eq_iff.mp hwhole).1
  | array items =>
      obtain ⟨-, -, hkey, -⟩ := walk_array_eq_iff.mp hwhole
      exact hkey
  | object members =>
      obtain ⟨name, -, -, hname, hkey, -⟩ := walk_object_eq_iff.mp hwhole
      exact keyAt_eq_ok_iff.mpr ⟨name, hname, hkey⟩

/-- A walk over items comes to its end if each of them does. -/
theorem walkItems_eq_iff {items : List Sample} :
    walkItems naming enclosing keypath items = ⟨events, .ok ()⟩ ↔
      (∀ item ∈ items, ∃ key, (walk naming enclosing keypath item).outcome = .ok key) ∧
        events = items.flatMap fun item => (walk naming enclosing keypath item).events := by
  induction items generalizing events with
  | nil => simp [walkItems, pure, eq_comm]
  | cons item rest ih =>
      simp only [walkItems, Walk.bind_eq_iff, ih, List.forall_mem_cons, List.flatMap_cons]
      constructor
      · intro hwalk
        obtain ⟨before, key, _, hitem, ⟨hrest, rfl⟩, rfl⟩ := hwalk
        rw [hitem]
        exact ⟨⟨⟨key, rfl⟩, hrest⟩, rfl⟩
      · intro hwalk
        obtain ⟨⟨⟨key, hitem⟩, hrest⟩, rfl⟩ := hwalk
        exact ⟨_, key, _, by rw [← hitem], ⟨hrest, rfl⟩, rfl⟩

/-- The fields of an object whose members are stored under the keys `child`. -/
def fieldsOf (child : Text → Keypath) (members : List (Text × Sample)) : List (Text × FieldRef) :=
  members.map fun entry => (entry.1, { key := child entry.1, required := entry.2.isPresent })

/-- Of several members under one name the last one says whether the field is carried. -/
theorem ref?_fieldsOf (key : Keypath) (kind : Kind) (child : Text → Keypath)
    (members : List (Text × Sample)) (field : Text) :
    Sighting.ref? { key, kind, fields := fieldsOf child members } field =
      (OrderedMap.valueAt field members.reverse).map fun sample =>
        { key := child field, required := sample.isPresent } := by
  rw [Sighting.ref?, fieldsOf, ← List.map_reverse]
  exact OrderedMap.valueAt_map
    (fun field (sample : Sample) =>
      ({ key := child field, required := sample.isPresent } : FieldRef)) _ _

/-- A field leads where its member is stored. -/
theorem child?_fieldsOf (key : Keypath) (kind : Kind) (child : Text → Keypath)
    {members : List (Text × Sample)} {entry : Text × Sample} (hmem : entry ∈ members) :
    Sighting.child? { key, kind, fields := fieldsOf child members } entry.1 =
      some (child entry.1) := by
  have hvalue : (OrderedMap.valueAt entry.1 members.reverse).isSome = true := by
    rw [OrderedMap.valueAt_isSome_iff]
    exact List.mem_map.mpr ⟨entry, List.mem_reverse.mpr hmem, rfl⟩
  obtain ⟨sample, hsample⟩ := Option.isSome_iff_exists.mp hvalue
  rw [Sighting.child?, ref?_fieldsOf, hsample]
  rfl

/-- A walk over members comes to its end if each of them does, and collects their keys. -/
theorem walkMembers_eq_iff {parent : Keypath} {members : List (Text × Sample)}
    {fields : List (Text × FieldRef)} :
    walkMembers naming enclosing parent members = ⟨events, .ok fields⟩ ↔
      ∃ child : Text → Keypath,
        (∀ entry ∈ members,
          (walk naming enclosing (childKeypath parent entry.1) entry.2).outcome =
            .ok (child entry.1)) ∧
        events = (members.flatMap fun entry =>
          (walk naming enclosing (childKeypath parent entry.1) entry.2).events) ∧
        fields = fieldsOf child members := by
  induction members generalizing events fields with
  | nil => simp [walkMembers, fieldsOf, pure, eq_comm]
  | cons entry rest ih =>
      obtain ⟨member, sample⟩ := entry
      simp only [walkMembers, Walk.bind_eq_iff, ih, List.forall_mem_cons, List.flatMap_cons]
      constructor
      · intro hwalk
        obtain ⟨before, key, _, hsample,
          ⟨_, _, _, ⟨child, hrest, rfl, rfl⟩, hlast, rfl⟩, rfl⟩ := hwalk
        cases hlast
        -- A later member of the same name has the key of this one, so one function serves both.
        have hsame : ∀ entry ∈ rest, entry.1 = member → child entry.1 = key := by
          intro entry hmem hname
          have hfirst := keyAt_of_walk (congrArg Walk.outcome hsample)
          have hlater := keyAt_of_walk (hrest entry hmem)
          rw [hname] at hlater
          rw [hname]
          exact Except.ok.inj (hlater.symm.trans hfirst)
        refine ⟨fun field => if field = member then key else child field, ⟨?_, ?_⟩, ?_, ?_⟩
        · simp [hsample]
        · intro entry hmem
          rw [hrest entry hmem]
          by_cases hname : entry.1 = member
          · simp only [hname, if_true, ← hsame entry hmem hname]
          · simp only [hname, if_false]
        · simp [hsample]
        · simp only [fieldsOf, List.map_cons, if_true, List.cons.injEq, true_and]
          refine List.map_congr_left fun entry hmem => ?_
          by_cases hname : entry.1 = member
          · simp [hname, ← hsame entry hmem hname]
          · simp [hname]
      · intro hwalk
        obtain ⟨child, ⟨hsample, hrest⟩, rfl, rfl⟩ := hwalk
        exact ⟨_, child member, _, by rw [← hsample],
          ⟨_, _, _, ⟨child, hrest, rfl, rfl⟩, rfl, rfl⟩, by simp⟩

end

/-! ## Total namings -/

/-- A naming whose generator never fails. -/
def Naming.Total (naming : Naming) : Prop :=
  ∀ generator keypath, naming.generator = some generator →
    ∃ name, generator.propose keypath = .ok name

section

variable {naming : Naming} (htotal : naming.Total)
include htotal

/-- A naming that answers everything gives every position a name or none. -/
theorem nameAt_total (enclosing : List Keypath) (keypath : Keypath) :
    ∃ name, naming.nameAt enclosing keypath = .ok name := by
  have hresolve : ∃ name, naming.resolve keypath = .ok name := by
    unfold Naming.resolve
    cases properName (naming.given.get? keypath) with
    | some name =>
        by_cases hroot : keypath.isEmpty = true
        · exact ⟨_, by simp [hroot]; rfl⟩
        · exact ⟨_, by simp [hroot]; rfl⟩
    | none =>
        cases hgenerator : naming.generator with
        | none =>
            by_cases hroot : keypath.isEmpty = true
            · exact ⟨_, by simp [hroot]; rfl⟩
            · exact ⟨_, by simp [hroot]; rfl⟩
        | some generator =>
            obtain ⟨name, hname⟩ := htotal generator keypath hgenerator
            by_cases hroot : keypath.isEmpty = true
            · exact ⟨_, by simp [hroot, hname]; rfl⟩
            · exact ⟨_, by simp [hroot, hname]; rfl⟩
  obtain ⟨name, hname⟩ := hresolve
  exact ⟨_, nameAt_eq_ok_iff.mpr ⟨name, hname, rfl⟩⟩

/-- A naming that answers everything gives every position a key. -/
theorem keyAt_total (enclosing : List Keypath) (keypath : Keypath) :
    ∃ key, naming.keyAt enclosing keypath = .ok key := by
  obtain ⟨name, hname⟩ := nameAt_total htotal enclosing keypath
  exact ⟨_, keyAt_eq_ok_iff.mpr ⟨name, hname, rfl⟩⟩

/-- **Total namings.**  A walk under a naming that never fails comes to its end. -/
theorem walk_total (enclosing : List Keypath) (keypath : Keypath) (sample : Sample) :
    ∃ key, (walk naming enclosing keypath sample).outcome = .ok key := by
  induction sample using Sample.ind generalizing enclosing keypath with
  | scalar kind =>
      obtain ⟨key, hkey⟩ := keyAt_total htotal enclosing keypath
      exact ⟨key, Walk.outcome_of_eq (walk_scalar_eq_iff.mpr ⟨hkey, rfl⟩)⟩
  | array items ih =>
      obtain ⟨key, hkey⟩ := keyAt_total htotal enclosing keypath
      obtain ⟨element, helement⟩ := keyAt_total htotal (key :: enclosing) (elementKeypath key)
      have hcomplete := fun item hmem => ih item hmem (key :: enclosing) (elementKeypath key)
      exact ⟨key, Walk.outcome_of_eq (walk_array_eq_iff.mpr
        ⟨element, _, hkey, helement, walkItems_eq_iff.mpr ⟨hcomplete, rfl⟩, rfl⟩)⟩
  | object members ih =>
      obtain ⟨name, hname⟩ := nameAt_total htotal enclosing keypath
      let key := name.getD keypath
      let child := fun field =>
        ((naming.keyAt (key :: enclosing) (childKeypath key field)).toOption).getD key
      have hcomplete : ∀ entry ∈ members,
          (walk naming (key :: enclosing) (childKeypath key entry.1) entry.2).outcome =
            .ok (child entry.1) := by
        intro entry hmem
        obtain ⟨found, hfound⟩ := ih entry hmem (key :: enclosing) (childKeypath key entry.1)
        have hsame : child entry.1 = found := by
          simp only [child, keyAt_of_walk hfound]
          rfl
        rw [hfound, hsame]
      exact ⟨key, Walk.outcome_of_eq (walk_object_eq_iff.mpr
        ⟨name, _, _, hname, rfl, walkMembers_eq_iff.mpr ⟨child, hcomplete, rfl, rfl⟩, rfl⟩)⟩

end

end Exemplar
