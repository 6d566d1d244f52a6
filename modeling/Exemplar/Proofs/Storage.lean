import Exemplar.Proofs.Position

/-!
# Where a batch stores its samples

Every sample of a batch and every part of one, at whatever depth, is stored under some
key, below the keys of the samples around it.  `Naming.Stores` says so from the root
down, one step for each part, without a word about events or models.

Events are listed the other way round, each value after its parts.  `walk_parts` is what
a whole walk comes to at one level: the walks of the parts, and then one sighting, which
shows the sample (`Sighting.Shows`).  From it follow both directions of the
correspondence: what is stored is seen (`Naming.Stores.seen`), and what is seen was stored
(`exists_stores_of_sighted`).
-/

namespace Exemplar

namespace Sample

/-- The fields under which the parts of a sample stand, as often as they do.  An array has the
field of its elements even when it is empty. -/
def fields : Sample → List Text
  | scalar _ => []
  | array _ => [elementMark]
  | object members => members.map Prod.fst

/-- A sample holds another one under a field. -/
inductive Holds : Sample → Text → Sample → Prop
  | item {items : List Sample} {item : Sample} (hmem : item ∈ items) :
      Holds (.array items) elementMark item
  | member {members : List (Text × Sample)} {entry : Text × Sample} (hmem : entry ∈ members) :
      Holds (.object members) entry.1 entry.2

/-- To prove something of all samples, prove it of each from its parts. -/
@[elab_as_elim]
theorem ind_parts {P : Sample → Prop}
    (step : ∀ sample, (∀ field part, sample.Holds field part → P part) → P sample)
    (sample : Sample) : P sample := by
  induction sample using Sample.ind with
  | scalar kind =>
      refine step _ fun field part hheld => ?_
      cases hheld
  | array items ih =>
      refine step _ fun field part hheld => ?_
      cases hheld with
      | item hmem => exact ih part hmem
  | object members ih =>
      refine step _ fun field part hheld => ?_
      cases hheld with
      | member hmem => exact ih _ hmem

end Sample

/-- **Storage.**  A batch stores a sample under a key, below the keys of the samples around it,
the nearest first. -/
inductive Naming.Stores (naming : Naming) (samples : List Sample) :
    List Keypath → Keypath → Sample → Prop
  | root {sample : Sample} {key : Keypath} (hgiven : sample ∈ samples)
      (hkey : naming.keyAt [] [] = .ok key) : Stores naming samples [] key sample
  | part {enclosing : List Keypath} {key child : Keypath} {sample part : Sample} {field : Text}
      (hstored : Stores naming samples enclosing key sample) (hheld : sample.Holds field part)
      (hkey : naming.keyAt (key :: enclosing) (partPosition sample.kind key field) = .ok child) :
      Stores naming samples (key :: enclosing) child part

/-- A sighting shows a sample below some keys: its fields lead where the parts are stored. -/
structure Sighting.Shows (s : Sighting) (naming : Naming) (enclosing : List Keypath)
    (sample : Sample) : Prop where
  kind : s.kind = sample.kind
  names : s.names = sample.fields
  parts : ∀ entry ∈ s.fields,
    naming.keyAt (s.key :: enclosing) (partPosition s.kind s.key entry.1) = .ok entry.2.key

/-- A field of a sample leads to one key, that of its position. -/
theorem Sighting.Shows.child?_eq_some_iff {s : Sighting} {naming : Naming}
    {enclosing : List Keypath} {sample : Sample} (hshows : s.Shows naming enclosing sample)
    (field : Text) (child : Keypath) :
    s.child? field = some child ↔ field ∈ sample.fields ∧
      naming.keyAt (s.key :: enclosing) (partPosition s.kind s.key field) = .ok child := by
  have hled : ∀ found, s.child? field = some found →
      naming.keyAt (s.key :: enclosing) (partPosition s.kind s.key field) = .ok found := by
    intro found hfound
    obtain ⟨ref, href, rfl⟩ := Option.map_eq_some_iff.mp hfound
    exact hshows.parts (field, ref) (List.mem_reverse.mp (OrderedMap.mem_of_valueAt href))
  have hknown : (s.child? field).isSome = true ↔ field ∈ sample.fields := by
    rw [← hshows.names, Sighting.child?, Option.isSome_map, Sighting.ref?,
      OrderedMap.valueAt_isSome_iff, List.map_reverse, List.mem_reverse]
    rfl
  constructor
  · intro hchild
    exact ⟨hknown.mp (by rw [hchild]; rfl), hled child hchild⟩
  · intro hgiven
    obtain ⟨hfield, hkey⟩ := hgiven
    obtain ⟨found, hfound⟩ := Option.isSome_iff_exists.mp (hknown.mpr hfield)
    rw [hfound, Except.ok.inj ((hled found hfound).symm.trans hkey)]

/-! ## One level of a walk -/

section

variable {naming : Naming} {enclosing : List Keypath} {keypath key : Keypath} {sample : Sample}

/-- **One level.**  A walk that came to its end went to the end of the walk of every part, and
what was seen on it is what was seen of the parts and one sighting that shows the sample. -/
theorem walk_parts (houtcome : (walk naming enclosing keypath sample).outcome = .ok key) :
    (∀ field part, sample.Holds field part → ∃ child,
      (walk naming (key :: enclosing) (partPosition sample.kind key field) part).outcome =
        .ok child) ∧
    ∃ s : Sighting, s.key = key ∧ s.Shows naming enclosing sample ∧
      ∀ t, Event.sighted t ∈ (walk naming enclosing keypath sample).events ↔
        t = s ∨ ∃ field part, sample.Holds field part ∧ Event.sighted t ∈
          (walk naming (key :: enclosing) (partPosition sample.kind key field) part).events := by
  have hwalk := Walk.eq_mk_iff.mp houtcome
  cases sample with
  | scalar kind =>
      obtain ⟨-, hevents⟩ := walk_scalar_eq_iff.mp hwalk
      refine ⟨fun field part hheld => ?_, { key, kind := .scalar kind }, rfl,
        ⟨rfl, rfl, by simp⟩, fun t => ?_⟩
      · cases hheld
      rw [hevents, List.mem_singleton, Event.sighted.injEq]
      refine ⟨.inl, fun hseen => hseen.elim id ?_⟩
      rintro ⟨_, _, hheld, -⟩
      cases hheld
  | array items =>
      obtain ⟨element, inner, -, helement, hitems, hevents⟩ := walk_array_eq_iff.mp hwalk
      obtain ⟨hcomplete, rfl⟩ := walkItems_eq_iff.mp hitems
      refine ⟨fun field part hheld => ?_,
        { key, kind := .array, fields := [(elementMark, { key := element })] }, rfl,
        ⟨rfl, rfl, List.forall_mem_singleton.mpr helement⟩, fun t => ?_⟩
      · cases hheld with
        | item hmem => exact hcomplete part hmem
      rw [hevents, List.mem_append, List.mem_singleton, Event.sighted.injEq, List.mem_flatMap,
        or_comm]
      refine or_congr_right ⟨?_, ?_⟩
      · rintro ⟨item, hmem, hseen⟩
        exact ⟨elementMark, item, .item hmem, hseen⟩
      · rintro ⟨_, item, hheld, hseen⟩
        cases hheld with
        | item hmem => exact ⟨item, hmem, hseen⟩
  | object members =>
      obtain ⟨name, inner, fields, -, -, hmembers, hevents⟩ := walk_object_eq_iff.mp hwalk
      obtain ⟨child, hcomplete, rfl, rfl⟩ := walkMembers_eq_iff.mp hmembers
      refine ⟨fun field part hheld => ?_,
        { key, kind := .object, fields := fieldsOf child members }, rfl, ⟨rfl, ?_, ?_⟩,
        fun t => ?_⟩
      · cases hheld with
        | member hmem => exact ⟨_, hcomplete _ hmem⟩
      · simp [Sighting.names, fieldsOf, Sample.fields]
      · intro field hfield
        obtain ⟨entry, hmem, rfl⟩ := List.mem_map.mp hfield
        exact keyAt_of_walk (hcomplete entry hmem)
      have hregistered : Event.sighted t ∉ registration name := by simp [registration]
      rw [hevents, List.mem_append, List.mem_append, List.mem_singleton, Event.sighted.injEq,
        List.mem_flatMap, or_iff_right hregistered, or_comm]
      refine or_congr_right ⟨?_, ?_⟩
      · rintro ⟨entry, hmem, hseen⟩
        exact ⟨entry.1, entry.2, .member hmem, hseen⟩
      · rintro ⟨_, _, hheld, hseen⟩
        cases hheld with
        | member hmem => exact ⟨_, hmem, hseen⟩

/-! ## Storage and sightings -/

variable {samples : List Sample} {root : Name}

/-- What is stored was walked through, to the end, on the way of the batch. -/
theorem Naming.Stores.exists_walk (hstored : naming.Stores samples enclosing key sample)
    (hway : (naming.way samples).outcome = .ok root) :
    ∃ keypath, (walk naming enclosing keypath sample).outcome = .ok key ∧
      ∀ s, Event.sighted s ∈ (walk naming enclosing keypath sample).events →
        Event.sighted s ∈ (naming.way samples).events := by
  induction hstored with
  | @root sample key hgiven hkey =>
      obtain ⟨-, hcomplete, hevents⟩ := Naming.way_eq_iff.mp (Walk.eq_mk_iff.mp hway)
      obtain ⟨found, hfound⟩ := hcomplete sample hgiven
      obtain rfl : found = key := Except.ok.inj ((keyAt_of_walk hfound).symm.trans hkey)
      refine ⟨[], hfound, fun s hs => ?_⟩
      rw [hevents]
      exact List.mem_flatMap.mpr ⟨sample, hgiven, hs⟩
  | @part enclosing key child sample part field _ hheld hkey ih =>
      obtain ⟨keypath, houtcome, hseen⟩ := ih
      obtain ⟨hcomplete, s, -, -, hsighted⟩ := walk_parts houtcome
      obtain ⟨found, hfound⟩ := hcomplete field part hheld
      obtain rfl : found = child := Except.ok.inj ((keyAt_of_walk hfound).symm.trans hkey)
      exact ⟨_, hfound, fun t ht => hseen t ((hsighted t).mpr (.inr ⟨field, part, hheld, ht⟩))⟩

/-- What is stored is seen. -/
theorem Naming.Stores.seen (hstored : naming.Stores samples enclosing key sample)
    (hway : (naming.way samples).outcome = .ok root) :
    ∃ s, Event.sighted s ∈ (naming.way samples).events ∧ s.key = key ∧
      s.Shows naming enclosing sample := by
  obtain ⟨keypath, houtcome, hseen⟩ := hstored.exists_walk hway
  obtain ⟨-, s, hkey, hshows, hsighted⟩ := walk_parts houtcome
  exact ⟨s, hseen s ((hsighted s).mpr (.inl rfl)), hkey, hshows⟩

/-- Below a stored sample, what is seen was stored. -/
theorem exists_stores_of_walk (hstored : naming.Stores samples enclosing key sample)
    (houtcome : (walk naming enclosing keypath sample).outcome = .ok key) {s : Sighting}
    (hs : Event.sighted s ∈ (walk naming enclosing keypath sample).events) :
    ∃ above shown, naming.Stores samples above s.key shown ∧ s.Shows naming above shown := by
  induction sample using Sample.ind_parts generalizing enclosing keypath key with
  | step sample ih =>
      obtain ⟨hcomplete, own, rfl, hshows, hsighted⟩ := walk_parts houtcome
      rcases (hsighted s).mp hs with rfl | ⟨field, part, hheld, hseen⟩
      · exact ⟨enclosing, sample, hstored, hshows⟩
      · obtain ⟨child, hchild⟩ := hcomplete field part hheld
        exact ih field part hheld (hstored.part hheld (keyAt_of_walk hchild)) hchild hseen

/-- What is seen was stored. -/
theorem exists_stores_of_sighted (hway : (naming.way samples).outcome = .ok root) {s : Sighting}
    (hs : Event.sighted s ∈ (naming.way samples).events) :
    ∃ above shown, naming.Stores samples above s.key shown ∧ s.Shows naming above shown := by
  obtain ⟨hroot, hcomplete, hevents⟩ := Naming.way_eq_iff.mp (Walk.eq_mk_iff.mp hway)
  rw [hevents] at hs
  obtain ⟨sample, hmem, hsample⟩ := List.mem_flatMap.mp hs
  obtain ⟨key, hkey⟩ := hcomplete sample hmem
  exact exists_stores_of_walk (.root hmem (keyAt_of_walk hkey)) hkey hsample

end

end Exemplar
