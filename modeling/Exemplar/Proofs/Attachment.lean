import Exemplar.Proofs.Acceptance
import Exemplar.Proofs.Storage

/-!
# Which parts stay attached

Each value of a kind at a key stores its parts of a field somewhere, and the record of the
kind at the key refers to one place only: the one where the first such value stored them.
What a later value stored elsewhere is in the model, but detached from its parent.

The place depends on the keys around the value through one question alone, whether a
generated name is taken there.  `keyAt_eq_iff` says so of one position, and
`parts_attached_iff` draws the consequence for a batch on a new builder: all parts are
attached exactly when no name is taken around one value and free around another of the same
kind and key.  Then the model also accepts every sample of the batch
(`accepts_of_attached`).

The keys around values of one key can differ when a caller gives one name to several
positions, and then parts do get detached: `item_detached` shows it for a member and
`parts_attached_iff_catalogue` for the elements of an array.
-/

namespace Exemplar

/-- Where the record of a kind at a key sends the values of a field. -/
def Model.child? (model : Model) (key : Keypath) (kind : Kind) (field : Text) : Option Keypath :=
  (model.shape? key kind).bind fun shape => shape.child? field

/-- A batch stores, under a key and below the keys around it, a value of a kind whose parts of a
field are stored under a child key.  For an empty array it is where they would be. -/
def Naming.Places (naming : Naming) (samples : List Sample) (enclosing : List Keypath)
    (key : Keypath) (kind : Kind) (field : Text) (child : Keypath) : Prop :=
  ∃ sample, naming.Stores samples enclosing key sample ∧ sample.kind = kind ∧
    field ∈ sample.fields ∧
    naming.keyAt (key :: enclosing) (partPosition kind key field) = .ok child

/-- Every part of a batch is stored where the record of its parent sends it. -/
def Model.Attaches (model : Model) (naming : Naming) (samples : List Sample) : Prop :=
  ∀ enclosing key kind field child, naming.Places samples enclosing key kind field child →
    model.child? key kind field = some child

/-- The name that the generator, and not the caller, has for a keypath, if it is another text. -/
def Naming.Generates (naming : Naming) (keypath : Keypath) (name : Name) : Prop :=
  naming.resolve keypath = .ok (some name) ∧ naming.given.contains keypath = false ∧
    name ≠ keypath

/-! ## Keys below different keys -/

section

variable {naming : Naming} {keypath : Keypath}

/-- **When two keys agree.**  A position has the same key below some keys as below others
exactly when a name generated for it is taken among both or among neither. -/
theorem keyAt_eq_iff {above other : List Keypath} {first second : Keypath}
    (hfirst : naming.keyAt above keypath = .ok first)
    (hsecond : naming.keyAt other keypath = .ok second) :
    first = second ↔
      ∀ name, naming.Generates keypath name → (name ∈ above ↔ name ∈ other) := by
  obtain ⟨_, hone, rfl⟩ := keyAt_eq_ok_iff.mp hfirst
  obtain ⟨found, hresolve, rfl⟩ := nameAt_eq_ok_iff.mp hone
  obtain ⟨_, hanother, rfl⟩ := keyAt_eq_ok_iff.mp hsecond
  obtain ⟨again, hagain, rfl⟩ := nameAt_eq_ok_iff.mp hanother
  obtain rfl : found = again := Except.ok.inj (hresolve.symm.trans hagain)
  unfold Naming.Generates
  rw [hresolve]
  cases found with
  | none => simp
  | some name =>
      cases hgiven : naming.given.contains keypath with
      | true => simp
      | false =>
          have hkey : ∀ enclosing : List Keypath,
              ((some name).filter fun text => !(enclosing.contains text && !false)).getD keypath =
                if name ∈ enclosing then keypath else name := by
            intro enclosing
            by_cases htaken : name ∈ enclosing <;> simp [Option.filter, htaken]
          rw [hkey, hkey]
          by_cases habove : name ∈ above <;> by_cases hother : name ∈ other <;>
            simp [habove, hother, eq_comm]

end

/-! ## Places and records -/

section

variable {naming : Naming} {samples : List Sample} {root : Name} {key child : Keypath}
  {kind : Kind} {field : Text}

/-- The places of a batch are the children of its sightings. -/
theorem exists_places_iff (hway : (naming.way samples).outcome = .ok root) :
    (∃ enclosing, naming.Places samples enclosing key kind field child) ↔
      ∃ s, Event.sighted s ∈ (naming.way samples).events ∧ s.key = key ∧ s.kind = kind ∧
        s.child? field = some child := by
  constructor
  · rintro ⟨enclosing, sample, hstored, rfl, hfield, hkey⟩
    obtain ⟨s, hs, rfl, hshows⟩ := hstored.seen hway
    rw [← hshows.kind] at hkey
    exact ⟨s, hs, rfl, hshows.kind, (hshows.child?_eq_some_iff field child).mpr ⟨hfield, hkey⟩⟩
  · rintro ⟨s, hs, rfl, rfl, hchild⟩
    obtain ⟨above, shown, hstored, hshows⟩ := exists_stores_of_sighted hway hs
    obtain ⟨hfield, hkey⟩ := (hshows.child?_eq_some_iff field child).mp hchild
    exact ⟨above, shown, hstored, hshows.kind.symm, hfield, hkey⟩

/-- Records send all values of a field to one key, so sightings agree exactly when nothing is
detached. -/
theorem agreeing_iff_attached {model : Model} {events : List Event}
    (hlearnt : model.Learnt events) :
    Agreeing events ↔ ∀ s, Event.sighted s ∈ events → ∀ field child,
      s.child? field = some child → model.child? s.key s.kind field = some child := by
  constructor
  · intro hagree s hs field child hchild
    obtain ⟨shape, hshape, hfields, -⟩ := shape_of_agreeing hagree hlearnt hs
    obtain ⟨ref, href, rfl⟩ := hfields field child hchild
    rw [Model.child?, hshape, Option.bind_some, Shape.child?, href]
    rfl
  · intro hattached s t hs ht hkey hkind field first second hfirst hsecond
    have hone := hattached s hs field first hfirst
    have hother := hattached t ht field second hsecond
    rw [← hkey, ← hkind, hone] at hother
    exact Option.some.inj hother

end

/-- A member of an accepted object is accepted where the record of objects sends it. -/
theorem Model.Accepts.member {model : Model} {key child : Keypath}
    {members : List (Text × Sample)} {entry : Text × Sample}
    (haccepts : model.Accepts key (.object members)) (hmem : entry ∈ members)
    (hchild : model.child? key .object entry.1 = some child) : model.Accepts child entry.2 := by
  cases haccepts with
  | object hknown hfields hmembers hcomplete =>
      rw [Model.child?, hknown, Option.bind_some] at hchild
      obtain ⟨ref, href, rfl⟩ := Option.map_eq_some_iff.mp hchild
      exact hmembers entry hmem ref href

/-- A sample is accepted only at a key where its kind is known. -/
theorem Model.Accepts.known {model : Model} {key : Keypath} {sample : Sample}
    (haccepts : model.Accepts key sample) : (model.shape? key sample.kind).isSome = true := by
  cases haccepts with
  | scalar hknown => exact hknown
  | array hknown => exact Option.isSome_iff_exists.mpr ⟨_, hknown⟩
  | object hknown => exact Option.isSome_iff_exists.mpr ⟨_, hknown⟩

namespace Builder

variable {naming : Naming} {strict : Bool} {examples : Examples} {root : Name} {after : Builder}

/-- What a new builder has learnt from one batch. -/
theorem learnt_of_addBatch (hok : addBatch {} naming strict examples = (.ok root, after)) :
    after.model.Learnt (naming.way examples.samples).events := by
  have hrun : Run {} [({ naming, strict, examples }, root)] after := .cons hok (.nil after)
  simpa [history, Delivery.events] using hrun.learnt

/-- Nothing is detached exactly when the events of the batch agree. -/
theorem attaches_iff_agreeing (hok : addBatch {} naming strict examples = (.ok root, after)) :
    after.model.Attaches naming examples.samples ↔
      Agreeing (naming.way examples.samples).events := by
  have hway := (addBatch_ok hok).1
  rw [agreeing_iff_attached (learnt_of_addBatch hok)]
  constructor
  · intro hattached s hs field child hchild
    obtain ⟨enclosing, hplace⟩ := (exists_places_iff hway).mpr ⟨s, hs, rfl, rfl, hchild⟩
    exact hattached enclosing _ _ field child hplace
  · intro hattached enclosing key kind field child hplace
    obtain ⟨s, hs, rfl, rfl, hchild⟩ := (exists_places_iff hway).mp ⟨enclosing, hplace⟩
    exact hattached s hs field child hchild

/-- A model from which nothing is detached accepts all samples that it has learnt from. -/
theorem accepts_of_attached (hok : addBatch {} naming strict examples = (.ok root, after))
    (hattached : after.model.Attaches naming examples.samples) :
    ∀ sample ∈ examples.samples, after.model.Accepts root sample := by
  intro sample hmem
  have hagree := (attaches_iff_agreeing hok).mp hattached
  obtain ⟨hroot, hcomplete, hevents⟩ :=
    Naming.way_eq_iff.mp (Walk.eq_mk_iff.mp (addBatch_ok hok).1)
  obtain ⟨key, hkey⟩ := hcomplete sample hmem
  obtain rfl : key = root := Except.ok.inj ((keyAt_of_walk hkey).symm.trans hroot)
  refine accepts_of_agreeing hagree (learnt_of_addBatch hok) hkey fun event hevent => ?_
  rw [hevents]
  exact List.mem_flatMap.mpr ⟨sample, hmem, hevent⟩

/-- **What is attached.**  After a batch on a new builder, whatever its naming, every part is
where the record of its parent sends it exactly when the following holds: around any two values
of one kind and key, a name generated for the position of a part is taken in both or neither. -/
theorem parts_attached_iff (hok : addBatch {} naming strict examples = (.ok root, after)) :
    after.model.Attaches naming examples.samples ↔
      ∀ above other key kind field first second,
        naming.Places examples.samples above key kind field first →
        naming.Places examples.samples other key kind field second →
        ∀ name, naming.Generates (partPosition kind key field) name →
          (name ∈ key :: above ↔ name ∈ key :: other) := by
  have hway := (addBatch_ok hok).1
  rw [attaches_iff_agreeing hok]
  constructor
  · intro hagree above other key kind field first second hfirst hsecond
    obtain ⟨s, hs, rfl, rfl, hone⟩ := (exists_places_iff hway).mp ⟨above, hfirst⟩
    obtain ⟨t, ht, hkey, hkind, hother⟩ := (exists_places_iff hway).mp ⟨other, hsecond⟩
    have hsame := hagree s t hs ht hkey.symm hkind.symm field first second hone hother
    obtain ⟨-, -, -, -, hfirst⟩ := hfirst
    obtain ⟨-, -, -, -, hsecond⟩ := hsecond
    exact (keyAt_eq_iff hfirst hsecond).mp hsame
  · intro hnames s t hs ht hkey hkind field first second hfirst hsecond
    obtain ⟨above, hone⟩ := (exists_places_iff hway).mpr ⟨s, hs, rfl, rfl, hfirst⟩
    obtain ⟨other, hother⟩ :=
      (exists_places_iff hway).mpr ⟨t, ht, hkey.symm, hkind.symm, hsecond⟩
    have hgenerated := hnames above other _ _ field first second hone hother
    obtain ⟨-, -, -, -, hone⟩ := hone
    obtain ⟨-, -, -, -, hother⟩ := hother
    exact (keyAt_eq_iff hone hother).mpr hgenerated

/-- A naming under which an order is of the type that the generator has for the item of a part,
and the part in the order is of the same type as the one beside it. -/
def catalogue : Naming where
  given := .ofList [("Root.order", "PartItem"), ("PartItem.part", "Part"), ("Root.part", "Part")]

/-- The elements of two lists of one name, where only those of the second may take the name that is
meant for both: not all parts are attached. -/
theorem parts_attached_iff_catalogue :
    let samples : List Sample := [.object [("order", .object [("part", .array [.scalar .string])]),
      ("part", .array [.scalar .number])]]
    ∃ after, addBatch {} catalogue false { samples } = (.ok "Root", after) ∧
      ¬ after.model.Attaches catalogue samples := by
  intro samples
  have hok : addBatch {} catalogue false { samples } = (.ok "Root", _) := rfl
  have hroot : catalogue.Stores samples [] "Root" _ := .root List.mem_cons_self rfl
  have horder : catalogue.Stores samples ["Root"] "PartItem" _ :=
    hroot.part (.member List.mem_cons_self) rfl
  have hordered : catalogue.Stores samples ["PartItem", "Root"] "Part" (.array [.scalar .string]) :=
    horder.part (.member List.mem_cons_self) rfl
  have hbeside : catalogue.Stores samples ["Root"] "Part" (.array [.scalar .number]) :=
    hroot.part (.member (List.mem_cons_of_mem _ List.mem_cons_self)) rfl
  have htaken : catalogue.Places samples ["PartItem", "Root"] "Part" .array elementMark "Part[]" :=
    ⟨_, hordered, rfl, List.mem_singleton_self _, rfl⟩
  have hfree : catalogue.Places samples ["Root"] "Part" .array elementMark "PartItem" :=
    ⟨_, hbeside, rfl, List.mem_singleton_self _, rfl⟩
  have hgenerated : catalogue.Generates (partPosition .array "Part" elementMark) "PartItem" :=
    ⟨rfl, rfl, by decide⟩
  refine ⟨_, hok, fun hattached => ?_⟩
  have hsame := (parts_attached_iff hok).mp hattached _ _ _ _ _ _ _ htaken hfree _ hgenerated
  exact absurd (hsame.mp (by decide)) (by decide)

/-- **A detached part.**  The item of the second part is stored as an order, while the record of
parts goes on to refer to where the first item is; so the model does not accept its sample. -/
theorem item_detached :
    let sample : Sample := .object [("order", .object [("part", .object
      [("item", .scalar .string)])]), ("part", .object [("item", .object
        [("size", .scalar .number)])])]
    ∃ after, addBatch {} catalogue false { samples := [sample] } = (.ok "Root", after) ∧
      catalogue.Places [sample] ["Root"] "Part" .object "item" "PartItem" ∧
      after.model.child? "Part" .object "item" = some "Part.item".toList ∧
      ¬ after.model.Accepts "Root" sample := by
  intro sample
  have hok : addBatch {} catalogue false { samples := [sample] } = (.ok "Root", _) := rfl
  have hroot : catalogue.Stores [sample] [] "Root" _ := .root List.mem_cons_self rfl
  have hpart : catalogue.Stores [sample] ["Root"] "Part" _ :=
    hroot.part (.member (List.mem_cons_of_mem _ List.mem_cons_self)) rfl
  refine ⟨_, hok, ⟨_, hpart, rfl, List.mem_singleton_self _, rfl⟩, by decide +kernel, ?_⟩
  intro haccepts
  have hbeside : Model.Accepts _ "Part" _ :=
    haccepts.member (List.mem_cons_of_mem _ List.mem_cons_self) (by decide +kernel)
  have hitem : Model.Accepts _ "Part.item" _ :=
    hbeside.member List.mem_cons_self (by decide +kernel)
  exact absurd hitem.known (by decide +kernel)

end Builder

end Exemplar
