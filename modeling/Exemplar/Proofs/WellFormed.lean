import Exemplar.Proofs.Acyclic
import Exemplar.Proofs.Reachable
import Exemplar.Proofs.Storage

/-!
# Builders are well formed

Inside a batch a model is not well formed: a type is registered before its members
are looked at, and its shape is stored after theirs.  After every batch it is, and
`Builder.WellFormed` says in which respects.

The parts of a value are seen before the value itself, so that a walk that came to its
end has a sighting for every key to which the members of its objects lead, whatever the
naming (`Grounded`).  A builder takes over only whole walks (`WellFormed.committed`),
and a batch that fails leaves nothing but its number (`WellFormed.failed`).
-/

namespace Exemplar

/-! ## Keys are never empty -/

/-- The name that the caller or the generator has for a keypath. -/
def Naming.chosen (naming : Naming) (keypath : Keypath) : Except Text (Option Name) :=
  match properName (naming.given.get? keypath), naming.generator with
  | some name, _ => .ok (some name)
  | none, some generator => properName <$> generator.propose keypath
  | none, none => .ok none

/-- The name of a position is the chosen one; only the root has another one if none is chosen. -/
theorem resolve_eq (naming : Naming) (keypath : Keypath) :
    naming.resolve keypath =
      (fun name : Option Name => if keypath = [] then
        some (name.getD ((properName naming.root).getD defaultRootName)) else name) <$>
        naming.chosen keypath := by
  unfold Naming.resolve Naming.chosen
  cases properName (naming.given.get? keypath) with
  | some name => cases keypath <;> rfl
  | none =>
      cases naming.generator with
      | none => cases keypath <;> rfl
      | some generator =>
          dsimp only
          cases generator.propose keypath with
          | error message => rfl
          | ok proposed => cases keypath <;> rfl

/-- Proper names are not empty. -/
theorem ne_nil_of_properName {name : Option Name} {text : Name}
    (hproper : properName name = some text) : text ≠ [] := by
  obtain ⟨-, hnonempty⟩ := Option.filter_eq_some_iff.mp hproper
  simpa using hnonempty

/-- Chosen names are not empty. -/
theorem ne_nil_of_chosen {naming : Naming} {keypath : Keypath} {text : Name}
    (hchosen : naming.chosen keypath = .ok (some text)) : text ≠ [] := by
  unfold Naming.chosen at hchosen
  split at hchosen
  case h_1 given hgiven =>
    cases hchosen
    exact ne_nil_of_properName hgiven
  case h_2 generator hgiven hgenerator =>
    cases hproposed : generator.propose keypath with
    | error message =>
        rw [hproposed] at hchosen
        cases hchosen
    | ok proposed =>
        rw [hproposed] at hchosen
        exact ne_nil_of_properName (Except.ok.inj hchosen)
  case h_3 => cases hchosen

/-- A name is not empty, and the root has one. -/
theorem resolve_spec {naming : Naming} {keypath : Keypath} {name : Option Name}
    (hresolve : naming.resolve keypath = .ok name) :
    (∀ text, name = some text → text ≠ []) ∧ (keypath = [] → name.isSome = true) := by
  rw [resolve_eq] at hresolve
  cases hchosen : naming.chosen keypath with
  | error message =>
      rw [hchosen] at hresolve
      cases hresolve
  | ok found =>
      rw [hchosen] at hresolve
      obtain rfl := Except.ok.inj hresolve
      by_cases hroot : keypath = []
      · have hdefault : (properName naming.root).getD defaultRootName ≠ [] := by
          cases hproper : properName naming.root with
          | none => decide
          | some text => exact ne_nil_of_properName hproper
        simp only [hroot, if_true, Option.isSome_some, implies_true, and_true]
        intro text htext
        cases found with
        | none => exact Option.some.inj htext ▸ hdefault
        | some other => exact Option.some.inj htext ▸ ne_nil_of_chosen hchosen
      · simp only [hroot, if_false, false_implies, and_true]
        intro text htext
        exact ne_nil_of_chosen (htext ▸ hchosen)

/-- The key of a position is not empty; at the root nothing is around it. -/
theorem ne_nil_of_keyAt {naming : Naming} {enclosing : List Keypath} {keypath key : Keypath}
    (hkey : naming.keyAt enclosing keypath = .ok key) (hplace : keypath = [] → enclosing = []) :
    key ≠ [] := by
  obtain ⟨name, hname, rfl⟩ := keyAt_eq_ok_iff.mp hkey
  obtain ⟨found, hresolve, rfl⟩ := nameAt_eq_ok_iff.mp hname
  obtain ⟨hnonempty, hroot⟩ := resolve_spec hresolve
  cases hkept : found.filter fun text =>
      !(enclosing.contains text && !naming.given.contains keypath) with
  | some text => exact hnonempty text (Option.filter_eq_some_iff.mp hkept).1
  | none =>
      intro hempty
      have hempty : keypath = [] := hempty
      obtain ⟨text, rfl⟩ := Option.isSome_iff_exists.mp (hroot hempty)
      simp [hplace hempty] at hkept

/-! ## Grounded events -/

/-- Events in which no key is empty, and the members of objects lead to keys where something was
seen. -/
structure Grounded (events : List Event) : Prop where
  nonempty : ∀ s, Event.sighted s ∈ events → s.key ≠ [] ∧ ∀ field ∈ s.fields, field.2.key ≠ []
  members : ∀ s, Event.sighted s ∈ events → s.kind = .object → ∀ field ∈ s.fields,
    ∃ t, Event.sighted t ∈ events ∧ t.key = field.2.key

/-- Grounded events in a row are grounded. -/
theorem Grounded.flatMap {α : Type} {xs : List α} {events : α → List Event}
    (hall : ∀ x ∈ xs, Grounded (events x)) : Grounded (xs.flatMap events) where
  nonempty s hs := by
    obtain ⟨x, hx, hmem⟩ := List.mem_flatMap.mp hs
    exact (hall x hx).nonempty s hmem
  members s hs hkind field hfield := by
    obtain ⟨x, hx, hmem⟩ := List.mem_flatMap.mp hs
    obtain ⟨t, ht, hkey⟩ := (hall x hx).members s hmem hkind field hfield
    exact ⟨t, List.mem_flatMap.mpr ⟨x, hx, ht⟩, hkey⟩

/-- A value adds its own sighting to the events of its parts, perhaps with a name in front. -/
theorem Grounded.sighted {inner : List Event} (hinner : Grounded inner) {s : Sighting}
    (hkey : s.key ≠ []) (hfields : ∀ field ∈ s.fields, field.2.key ≠ [])
    (hmembers : s.kind = .object → ∀ field ∈ s.fields,
      ∃ t, Event.sighted t ∈ inner ∧ t.key = field.2.key) (name : Option Name) :
    Grounded (registration name ++ (inner ++ [.sighted s])) := by
  have hsplit : ∀ t, Event.sighted t ∈ registration name ++ (inner ++ [.sighted s]) →
      Event.sighted t ∈ inner ∨ t = s := by
    intro t ht
    simpa [registration] using ht
  have hkept : ∀ t, Event.sighted t ∈ inner →
      Event.sighted t ∈ registration name ++ (inner ++ [.sighted s]) := by
    intro t ht
    exact List.mem_append_right _ (List.mem_append_left _ ht)
  constructor
  · intro t ht
    rcases hsplit t ht with hmem | rfl
    · exact hinner.nonempty t hmem
    · exact ⟨hkey, hfields⟩
  · intro t ht hkind field hfield
    rcases hsplit t ht with hmem | rfl
    · obtain ⟨other, hother, hsame⟩ := hinner.members t hmem hkind field hfield
      exact ⟨other, hkept other hother, hsame⟩
    · obtain ⟨other, hother, hsame⟩ := hmembers hkind field hfield
      exact ⟨other, hkept other hother, hsame⟩

/-- On a walk that came to its end something was seen at its key. -/
theorem exists_sighted_of_walk {naming : Naming} {enclosing : List Keypath}
    {keypath key : Keypath} {sample : Sample}
    (houtcome : (walk naming enclosing keypath sample).outcome = .ok key) :
    ∃ s, Event.sighted s ∈ (walk naming enclosing keypath sample).events ∧ s.key = key := by
  obtain ⟨-, s, hkey, -, hsighted⟩ := walk_parts houtcome
  exact ⟨s, (hsighted s).mpr (.inl rfl), hkey⟩

/-- A walk that comes to its end is grounded. -/
theorem walk_grounded {naming : Naming} {enclosing : List Keypath} {keypath key : Keypath}
    {sample : Sample} (hplace : keypath = [] → enclosing = [])
    (houtcome : (walk naming enclosing keypath sample).outcome = .ok key) :
    Grounded (walk naming enclosing keypath sample).events := by
  have hnone : Grounded [] := ⟨by simp, by simp⟩
  induction sample using Sample.ind generalizing enclosing keypath key with
  | scalar kind =>
      obtain ⟨hkey, hevents⟩ := walk_scalar_eq_iff.mp (Walk.eq_mk_iff.mp houtcome)
      rw [hevents]
      exact hnone.sighted (s := { key, kind := .scalar kind }) (ne_nil_of_keyAt hkey hplace)
        (by simp) (by simp) none
  | array items ih =>
      obtain ⟨element, inner, hkey, helement, hitems, hevents⟩ :=
        walk_array_eq_iff.mp (Walk.eq_mk_iff.mp houtcome)
      obtain ⟨hcomplete, rfl⟩ := walkItems_eq_iff.mp hitems
      have hbelow : elementKeypath key ≠ [] := by simp [elementKeypath, elementMark]
      have hinner := Grounded.flatMap fun item hmem =>
        (hcomplete item hmem).elim fun _ hfound =>
          ih item hmem (fun hempty => absurd hempty hbelow) hfound
      have hfield : element ≠ [] := ne_nil_of_keyAt helement fun hempty => absurd hempty hbelow
      rw [hevents]
      exact hinner.sighted (ne_nil_of_keyAt hkey hplace) (by simpa using hfield) (by simp) none
  | object members ih =>
      obtain ⟨name, inner, fields, hname, hkey, hmembers, hevents⟩ :=
        walk_object_eq_iff.mp (Walk.eq_mk_iff.mp houtcome)
      obtain ⟨child, hcomplete, rfl, rfl⟩ := walkMembers_eq_iff.mp hmembers
      have hnonempty : key ≠ [] :=
        ne_nil_of_keyAt (keyAt_eq_ok_iff.mpr ⟨name, hname, hkey⟩) hplace
      have hbelow : ∀ field, childKeypath key field ≠ [] := by
        intro field
        simp [childKeypath, hnonempty]
      have hinner := Grounded.flatMap fun entry hmem =>
        ih entry hmem (fun hempty => absurd hempty (hbelow _)) (hcomplete entry hmem)
      have hseen : ∀ field ∈ fieldsOf child members, ∃ t, Event.sighted t ∈
          (members.flatMap fun entry =>
            (walk naming (key :: enclosing) (childKeypath key entry.1) entry.2).events) ∧
          t.key = field.2.key := by
        intro field hfield
        obtain ⟨entry, hmem, rfl⟩ := List.mem_map.mp hfield
        obtain ⟨t, ht, hsame⟩ := exists_sighted_of_walk (hcomplete entry hmem)
        exact ⟨t, List.mem_flatMap.mpr ⟨entry, hmem, ht⟩, hsame⟩
      rw [hevents]
      refine hinner.sighted hnonempty (fun field hfield => ?_) (fun _ => hseen) name
      obtain ⟨t, ht, hsame⟩ := hseen field hfield
      exact hsame ▸ (hinner.nonempty t ht).1

/-- So is a batch, whose root is not empty. -/
theorem way_grounded {naming : Naming} {samples : List Sample} {root : Name}
    (houtcome : (naming.way samples).outcome = .ok root) :
    root ≠ [] ∧ Grounded (naming.way samples).events := by
  obtain ⟨hroot, hcomplete, hevents⟩ := Naming.way_eq_iff.mp (Walk.eq_mk_iff.mp houtcome)
  rw [hevents]
  exact ⟨ne_nil_of_keyAt hroot fun _ => rfl, Grounded.flatMap fun sample hmem =>
    (hcomplete sample hmem).elim fun _ hfound => walk_grounded (fun _ => rfl) hfound⟩

/-! ## What events leave of a model -/

namespace Model

/-- Something is known of a key that has a shape of some kind. -/
theorem has_iff (model : Model) (key : Keypath) :
    model.has key = true ↔ ∃ kind shape, model.shape? key kind = some shape := by
  have hkinds : model.has key = true ↔ ∃ kind, kind ∈ (model.kinds key).keys := by
    rw [has, OrderedMap.isEmpty, OrderedMap.keys]
    cases (model.kinds key).entries <;> simp
  simp only [hkinds, OrderedMap.mem_keys_iff, shape?]

/-- What is known of a key stays known, and what was seen becomes known. -/
theorem has_absorb {model : Model} {events : List Event} {key : Keypath} (number : BatchNumber)
    (hgiven : model.has key = true ∨ ∃ s, Event.sighted s ∈ events ∧ s.key = key) :
    (model.absorb number events).has key = true := by
  rcases hgiven with hknown | ⟨s, hs, rfl⟩
  · obtain ⟨kind, shape, hshape⟩ := (has_iff model key).mp hknown
    refine (has_iff _ key).mpr ⟨kind, ?_⟩
    rw [shape?_absorb, hshape, stack_some]
    exact ⟨_, rfl⟩
  · refine (has_iff _ s.key).mpr ⟨s.kind, ?_⟩
    rw [shape?_absorb]
    exact exists_stack_of_mem ((mem_sightingsAt_iff _ _ _ _).mpr ⟨hs, rfl, rfl⟩) _

/-- A field leads where it led before, or where a sighting has it. -/
theorem child?_absorb {model : Model} {number : BatchNumber} {events : List Event} {key : Keypath}
    {kind : Kind} {shape : Shape} {field : Text} {child : Keypath}
    (hshape : (model.absorb number events).shape? key kind = some shape)
    (hchild : shape.child? field = some child) :
    (∃ old, model.shape? key kind = some old ∧ old.child? field = some child) ∨
      ∃ s, Event.sighted s ∈ events ∧ s.kind = kind ∧ ∃ entry ∈ s.fields, entry.2.key = child := by
  rw [shape?_absorb] at hshape
  rw [child?_stack hshape, Option.or_eq_some_iff] at hchild
  rcases hchild with hbefore | ⟨-, hseen⟩
  · exact .inl (Option.bind_eq_some_iff.mp hbefore)
  · obtain ⟨s, hs, hled⟩ := List.exists_of_findSome?_eq_some hseen
    obtain ⟨hevent, -, hkind⟩ := (mem_sightingsAt_iff _ _ _ _).mp hs
    obtain ⟨ref, href, rfl⟩ := Option.map_eq_some_iff.mp hled
    exact .inr ⟨s, hevent, hkind, (field, ref),
      List.mem_reverse.mp (OrderedMap.mem_of_valueAt href), rfl⟩

/-- New types stand behind the old ones, all of them with the number of the batch. -/
theorem values_named_absorb (number : BatchNumber) (model : Model) (events : List Event) :
    ∃ count, (model.absorb number events).named.values =
      model.named.values ++ List.replicate count number := by
  induction events generalizing model with
  | nil => exact ⟨0, by simp [absorb]⟩
  | cons event rest ih =>
      have hhead : ∃ fresh, (event.effect number model).named.values =
          model.named.values ++ List.replicate fresh number := by
        cases event with
        | sighted s => exact ⟨0, by simp [Event.effect, setShape]⟩
        | registered name =>
            by_cases hknown : model.isNamed name = true
            · exact ⟨0, by simp [Event.effect, register, hknown]⟩
            · have hnew : name ∉ model.named.keys := fun hmem =>
                hknown ((model.named.contains_iff name).mpr hmem)
              refine ⟨1, ?_⟩
              rw [Event.effect, register, if_neg hknown]
              exact OrderedMap.values_insert_of_not_mem hnew number
      obtain ⟨fresh, hfresh⟩ := hhead
      obtain ⟨count, hcount⟩ := ih (event.effect number model)
      refine ⟨fresh + count, hcount.trans ?_⟩
      rw [hfresh, List.append_assoc, List.replicate_append_replicate]

end Model

/-! ## The invariant -/

/-- What a caller can rely on after any batches. -/
structure Builder.WellFormed (builder : Builder) : Prop where
  /-- No key is empty, whether something is stored there, a field leads there or it is a root. -/
  nonempty : ∀ key, key ∈ builder.model.shapes.keys ∨ (∃ parent, builder.model.Leads parent key) ∨
    key ∈ builder.model.roots → key ≠ []
  /-- Something is known of every stored key. -/
  known : ∀ key ∈ builder.model.shapes.keys, builder.model.has key = true
  /-- Objects of every named type were seen. -/
  objects : ∀ name, builder.model.isNamed name = true →
    ∃ shape, builder.model.shape? name .object = some shape
  /-- Values without parts have no fields. -/
  scalars : ∀ key kind shape, builder.model.shape? key (.scalar kind) = some shape →
    shape = .empty
  /-- Arrays have the field for their elements, which is required, and no other. -/
  arrays : ∀ key shape, builder.model.shape? key .array = some shape →
    ∃ element, shape = .ofElement element
  /-- Something is known of the values of every member of an object. -/
  members : ∀ key shape, builder.model.shape? key .object = some shape →
    ∀ field ref, shape.get? field = some ref → builder.model.has ref.key = true
  /-- Types were defined by batches that were tried. -/
  numbers : ∀ number : Int, number ∈ builder.model.named.values →
    1 ≤ number ∧ number ≤ builder.batches
  /-- Types stand in the order of the batches that defined them. -/
  numbers_sorted : builder.model.named.values.Pairwise (· ≤ ·)
  /-- No root stands twice. -/
  roots_nodup : builder.model.roots.Nodup

/-- The shape of a scalar kind has no fields. -/
theorem Shape.Fits.eq_empty {kind : Scalar} {shape : Shape} (hfits : shape.Fits (.scalar kind)) :
    shape = .empty := by
  obtain ⟨hkeys, -⟩ := hfits [] rfl
  exact OrderedMap.ext_get? hkeys fun field => by
    rw [OrderedMap.get?_empty, ← Option.not_isSome_iff_eq_none]
    intro hsome
    have hmem := (shape.contains_iff field).mp hsome
    rw [hkeys] at hmem
    exact List.not_mem_nil hmem

/-- The shape of arrays has an element and nothing else. -/
theorem Shape.Fits.eq_ofElement {shape : Shape} (hfits : shape.Fits .array) :
    ∃ element, shape = .ofElement element := by
  obtain ⟨hkeys, hrequired⟩ := hfits [elementMark] rfl
  have hmark := hrequired elementMark (List.mem_singleton_self _)
  obtain ⟨⟨element, mark⟩, href⟩ :=
    (shape.mem_keys_iff elementMark).mp (hkeys ▸ List.mem_singleton_self _)
  obtain rfl : mark = true := by simpa [Shape.requires, href] using hmark
  refine ⟨element, OrderedMap.ext_get? hkeys fun field => ?_⟩
  rw [Shape.ofElement, OrderedMap.get?_insert]
  by_cases hsame : elementMark = field
  · rw [if_pos hsame, ← hsame, href]
  · rw [if_neg hsame, OrderedMap.get?_empty, ← Option.not_isSome_iff_eq_none]
    intro hsome
    have hmem := (shape.contains_iff field).mp hsome
    rw [hkeys, List.mem_singleton] at hmem
    exact hsame hmem.symm

/-- The new builder is well-formed. -/
theorem Builder.WellFormed.start : Builder.WellFormed {} where
  nonempty key hkey := by
    rcases hkey with hkey | ⟨parent, hleads⟩ | hkey
    · cases hkey
    · cases hleads
    · cases hkey
  known key hkey := by cases hkey
  objects name hname := by cases hname
  scalars key kind shape hshape := by cases hshape
  arrays key shape hshape := by cases hshape
  members key shape hshape := by cases hshape
  numbers number hnumber := by cases hnumber
  numbers_sorted := .nil
  roots_nodup := .nil

/-- A batch that fails uses up its number. -/
theorem Builder.WellFormed.failed {builder : Builder} (hwell : builder.WellFormed) :
    Builder.WellFormed { builder with batches := builder.batches + 1 } :=
  { hwell with
    numbers := fun number hnumber => by
      obtain ⟨hfirst, hlast⟩ := hwell.numbers number hnumber
      exact ⟨hfirst, by simp only; omega⟩ }

/-- **A committed batch.**  A batch that succeeds leaves a builder well formed. -/
theorem Builder.WellFormed.committed {builder : Builder} (hwell : builder.WellFormed)
    {events : List Event} {root : Name} (hsound : (builder.committed events root).Sound)
    (hgrounded : Grounded events) (hroot : root ≠ []) :
    (builder.committed events root).WellFormed where
  nonempty key hkey := by
    rcases hkey with hkey | ⟨parent, hleads⟩ | hkey
    · rcases (mem_keys_shapes_absorb _ _ _ _).mp hkey with hbefore | ⟨s, hs, rfl⟩
      · exact hwell.nonempty key (.inl hbefore)
      · exact (hgrounded.nonempty s ((mem_sightings_iff _ _).mp hs)).1
    · obtain ⟨kind, shape, field, hshape, hchild⟩ := Model.leads_iff_child?.mp hleads
      rcases Model.child?_absorb hshape hchild with ⟨old, hold, hled⟩ | ⟨s, hs, -, hentry⟩
      · exact hwell.nonempty key
          (.inr (.inl ⟨parent, Model.leads_iff_child?.mpr ⟨kind, old, field, hold, hled⟩⟩))
      · obtain ⟨entry, hentry, rfl⟩ := hentry
        exact (hgrounded.nonempty s hs).2 entry hentry
    · rcases List.mem_append.mp hkey with hbefore | hlast
      · rw [roots_absorb] at hbefore
        exact hwell.nonempty key (.inr (.inr (List.mem_of_mem_erase hbefore)))
      · exact List.mem_singleton.mp hlast ▸ hroot
  known key hkey := by
    refine Model.has_absorb _ ?_
    rcases (mem_keys_shapes_absorb _ _ _ _).mp hkey with hbefore | ⟨s, hs, hsame⟩
    · exact .inl (hwell.known key hbefore)
    · exact .inr ⟨s, (mem_sightings_iff _ _).mp hs, hsame⟩
  objects name hname := by
    rw [isNamed_eq_isSome] at hname
    obtain ⟨number, hnumber⟩ := Option.isSome_iff_exists.mp hname
    exact (hsound.named name number hnumber).2
  scalars key kind shape hshape := (hsound.shapes key _ shape hshape).eq_empty
  arrays key shape hshape := (hsound.shapes key _ shape hshape).eq_ofElement
  members key shape hshape field ref href := by
    have hchild : shape.child? field = some ref.key := by rw [Shape.child?, href]; rfl
    refine Model.has_absorb _ ?_
    rcases Model.child?_absorb hshape hchild with ⟨old, hold, hled⟩ | ⟨s, hs, hkind, hentry⟩
    · obtain ⟨before, hbefore, hsame⟩ := Option.map_eq_some_iff.mp hled
      exact .inl (hsame ▸ hwell.members key old hold field before hbefore)
    · obtain ⟨entry, hmem, hsame⟩ := hentry
      exact .inr (hsame ▸ hgrounded.members s hs hkind entry hmem)
  numbers number hnumber := by
    obtain ⟨count, hvalues⟩ :=
      Model.values_named_absorb (builder.batches + 1 : Nat) builder.model events
    have hmem : number ∈ builder.model.named.values ++
        List.replicate count ((builder.batches + 1 : Nat) : Int) := hvalues ▸ hnumber
    simp only [Builder.committed]
    rcases List.mem_append.mp hmem with hbefore | hnew
    · obtain ⟨hfirst, hlast⟩ := hwell.numbers number hbefore
      omega
    · have hsame := List.eq_of_mem_replicate hnew
      omega
  numbers_sorted := by
    obtain ⟨count, hvalues⟩ :=
      Model.values_named_absorb (builder.batches + 1 : Nat) builder.model events
    refine hvalues.symm ▸ List.pairwise_append.mpr ⟨hwell.numbers_sorted, ?_, ?_⟩
    · exact List.pairwise_replicate.mpr (.inr (Int.le_refl _))
    · intro old hold new hnew
      have hlast : (old : Int) ≤ builder.batches := (hwell.numbers old hold).2
      obtain rfl := List.eq_of_mem_replicate hnew
      exact Int.le_trans hlast (Int.ofNat_le.mpr (Nat.le_succ builder.batches))
  roots_nodup := by
    have hroots : (builder.model.roots.erase root ++ [root]).Nodup := by
      have hgone : root ∉ builder.model.roots.erase root := hwell.roots_nodup.not_mem_erase
      have hapart : ∀ other ∈ builder.model.roots.erase root, other ≠ root :=
        fun other hother heq => hgone (heq ▸ hother)
      simpa [List.nodup_append] using ⟨hwell.roots_nodup.erase root, hapart⟩
    rwa [← roots_absorb (builder.batches + 1 : Nat) builder.model events] at hroots

/-- **One batch.**  Whether it succeeds or fails, a batch leaves a builder well formed. -/
theorem Builder.Reachable.wellFormed {builder : Builder} (hreached : builder.Reachable) :
    builder.WellFormed := by
  induction hreached with
  | start => exact .start
  | @added builder hreached naming strict examples ih =>
      have hsound := (hreached.added naming strict examples).sound
      cases hadded : builder.addBatch naming strict examples with
      | mk result after =>
          rw [hadded] at hsound
          cases result with
          | error failure =>
              rw [Builder.addBatch_error hadded]
              exact ih.failed
          | ok root =>
              obtain ⟨houtcome, -, rfl⟩ := Builder.addBatch_ok hadded
              obtain ⟨hroot, hgrounded⟩ := way_grounded houtcome
              exact ih.committed hsound hgrounded hroot

/-! ## After any batches -/

namespace Builder

/-- What the batches that are added to a builder answer, one after the other. -/
def answers (builder : Builder) : List Delivery → List (Except BatchError Name)
  | [] => []
  | delivery :: rest =>
      let (answer, next) := builder.addBatch delivery.naming delivery.strict delivery.examples
      answer :: next.answers rest

/-- Batches lead on from builders that batches lead to. -/
theorem Reachable.afterAll {builder : Builder} (hreached : builder.Reachable)
    (deliveries : List Delivery) : (builder.afterAll deliveries).Reachable := by
  induction deliveries generalizing builder with
  | nil => exact hreached
  | cons delivery rest ih =>
      exact ih (hreached.added delivery.naming delivery.strict delivery.examples)

/-- The latest root is the one that the latest successful batch returned. -/
theorem getLast?_roots_afterAll (builder : Builder) (deliveries : List Delivery) :
    (builder.afterAll deliveries).model.roots.getLast? =
      ((builder.answers deliveries).filterMap Except.toOption).getLast?.or
        builder.model.roots.getLast? := by
  induction deliveries generalizing builder with
  | nil => simp [afterAll, answers]
  | cons delivery rest ih =>
      cases hadded : builder.addBatch delivery.naming delivery.strict delivery.examples with
      | mk answer next =>
          have hrest := ih next
          simp only [afterAll, List.foldl_cons, answers, hadded] at hrest ⊢
          rw [hrest]
          cases answer with
          | error failure =>
              rw [addBatch_error hadded]
              rfl
          | ok root =>
              obtain ⟨-, -, rfl⟩ := addBatch_ok hadded
              rw [committed, Model.getLast?_roots_addRoot]
              simp [Except.toOption, List.getLast?_cons]

/-- **Every builder is well formed.**  After whatever batches on a new builder, under any namings
and whether they succeed or fail, the builder is well formed, and its latest root is the one that
the latest successful batch returned. -/
theorem wellFormed_afterAll (deliveries : List Delivery) :
    let builder := afterAll {} deliveries
    builder.WellFormed ∧ builder.model.roots.getLast? =
      ((answers {} deliveries).filterMap Except.toOption).getLast? := by
  refine ⟨(Reachable.start.afterAll deliveries).wellFormed, ?_⟩
  rw [getLast?_roots_afterAll]
  exact Option.or_none

-- The last of these batches is refused, so that its root comes not once more.
example : (afterAll {} sharedNames).model.roots = ["Tree".toList, "tree".toList] := by
  decide +kernel

end Builder

end Exemplar
