import Exemplar.Proofs.Acceptance
import Exemplar.Proofs.Expansion
import Mathlib.Data.Prod.Lex

/-!
# Standard names close no cycles

A name that an enclosing position has already is given up, but only the positions of
one descent are looked at, while the fields of a model come from many descents, with
different roots.  That they still never close a cycle has to do with the keys alone.
A step down to a part adds words, and then the key of the part is heavier; or it adds
none, and then the key goes through three stages, each of them once: a root that is
spelled unlike its name, the name, and ever longer paths below it (`stage`).  Weight
and stage together grow on every step (`rank_lt_partKey`).  In a model that standard
batches have built they therefore grow along every field (`Model.Rising`); a batch that
fails leaves the model as it was.

So nothing that is rendered from such a model is cut off at a name.
-/

namespace Exemplar

/-! ## What grows on the way down -/

/-- How far a key has come among those of its weight: a root that is no name yet, a name, and
then paths by their length. -/
def stage (key : Keypath) : Nat :=
  if '.' ∈ key then key.length + 2 else if standardTypeName key = some key then 1 else 0

/-- A name ranks no higher than by its length. -/
theorem stage_le (key : Keypath) : stage key ≤ key.length + 2 := by
  unfold stage
  split
  · omega
  · split <;> omega

/-- A path ranks by its length. -/
theorem stage_of_path {key : Keypath} (hpath : '.' ∈ key) : stage key = key.length + 2 :=
  if_pos hpath

/-- A name is past the first stage. -/
theorem stage_pos_of_name {name : Name} (hself : standardTypeName name = some name) :
    0 < stage name := by
  unfold stage
  split
  · omega
  · exact Nat.one_pos

/-- A root that is spelled unlike its name is at the first stage. -/
theorem stage_of_other_name {key : Keypath} {name : Name} (hplain : '.' ∉ key)
    (hname : standardTypeName key = some name) (hother : name ≠ key) : stage key = 0 := by
  have hself : standardTypeName key ≠ some key := by
    intro hself
    exact hother (Option.some.inj (hname.symm.trans hself))
  rw [stage, if_neg hplain, if_neg hself]

/-- The weight of a key, and its stage among the keys of that weight. -/
def rank (key : Keypath) : Nat ×ₗ Nat :=
  toLex (weight key, stage key)

/-- Keys rank by their weight, and among keys of one weight by their stage. -/
theorem rank_lt_iff (key child : Keypath) :
    rank key < rank child ↔
      weight key < weight child ∨ weight key = weight child ∧ stage key < stage child :=
  Prod.Lex.toLex_lt_toLex

/-- The position of a part is longer than the key around it. -/
theorem length_lt_partPosition (kind : Kind) {key : Keypath} (field : Text)
    (hnonempty : key ≠ []) : key.length < (partPosition kind key field).length := by
  have hchild : childKeypath key field = key ++ '.' :: field := by
    simp [childKeypath, hnonempty]
  cases kind <;> simp [partPosition, hchild, elementKeypath, elementMark]

/-- A part weighs as much as its position, under whatever key it is stored. -/
theorem weight_partKey {key position : Keypath} (hascii : Text.IsAscii position) :
    weight (partKey key position) = weight position := by
  unfold partKey
  cases hname : standardTypeName position with
  | none => rfl
  | some name =>
      have hweight := (standardTypeName_spec hascii hname).2.2.2
      dsimp only
      split
      · rfl
      · exact hweight

/-- A part that adds no word is stored at a later stage. -/
theorem stage_lt_partKey {key position : Keypath} (hascii : Text.IsAscii position)
    (hsame : standardTypeName position = standardTypeName key) (hpath : '.' ∈ position)
    (hlonger : key.length < position.length) : stage key < stage (partKey key position) := by
  have hposition : stage key < stage position := by
    have hle := stage_le key
    rw [stage_of_path hpath]
    omega
  cases hname : standardTypeName position with
  | none =>
      have hpart : partKey key position = position := by simp [partKey, hname]
      rwa [hpart]
  | some name =>
      have hkey : standardTypeName key = some name := hsame.symm.trans hname
      by_cases hgiven : name = key ∨ '.' ∈ key
      · have hpart : partKey key position = position := by simp [partKey, hname, hkey, hgiven]
        rwa [hpart]
      · have hpart : partKey key position = name := by simp [partKey, hname, hgiven]
        obtain ⟨hother, hplain⟩ := not_or.mp hgiven
        rw [hpart, stage_of_other_name hplain hkey hother]
        exact stage_pos_of_name (standardTypeName_spec hascii hname).2.2.1

/-- **One step down.**  The rank of a part is higher than that of the value around it. -/
theorem rank_lt_partKey (kind : Kind) {key : Keypath} {field : Text} (hnonempty : key ≠ [])
    (hascii : Text.IsAscii key) (hfield : field.IsAscii) :
    rank key < rank (partKey key (partPosition kind key field)) := by
  obtain ⟨-, hposition, hstep⟩ := partPosition_spec kind hnonempty hascii hfield
  have hlonger := length_lt_partPosition kind field hnonempty
  rw [rank_lt_iff, weight_partKey hposition]
  rcases hstep with hheavier | ⟨hweight, hsame, hpath⟩
  · exact Or.inl hheavier
  · exact Or.inr ⟨hweight, stage_lt_partKey hposition hsame hpath hlonger⟩

/-- What a standard sighting leads to has a higher rank. -/
theorem Sighting.IsStandard.rank_lt {s : Sighting} (hstandard : s.IsStandard) {field : Text}
    {child : Keypath} (hchild : s.child? field = some child) : rank s.key < rank child := by
  obtain ⟨⟨enclosing, hposition⟩, hascii, hparts⟩ := hstandard
  obtain ⟨ref, href, rfl⟩ := Option.map_eq_some_iff.mp hchild
  have hentry : (field, ref) ∈ s.fields := List.mem_reverse.mp (OrderedMap.mem_of_valueAt href)
  rw [hparts _ hentry]
  exact rank_lt_partKey s.kind hposition.nonempty hposition.ascii (hascii _ hentry)

/-! ## Models -/

/-- A field leads to a key if it is that of some shape. -/
theorem Model.leads_iff_child? {model : Model} {key child : Keypath} :
    model.Leads key child ↔
      ∃ kind shape field, model.shape? key kind = some shape ∧ shape.child? field = some child := by
  rw [Model.leads_iff]
  constructor
  · intro hgiven
    obtain ⟨⟨kind, shape⟩, hentry, ⟨field, ref⟩, hfield, rfl⟩ := hgiven
    refine ⟨kind, shape, field, ((model.kinds key).mem_entries_iff kind shape).mp hentry, ?_⟩
    rw [Shape.child?, (shape.mem_entries_iff field ref).mp hfield]
    rfl
  · intro hgiven
    obtain ⟨kind, shape, field, hshape, hchild⟩ := hgiven
    obtain ⟨ref, href, rfl⟩ := Option.map_eq_some_iff.mp hchild
    exact ⟨(kind, shape), ((model.kinds key).mem_entries_iff kind shape).mpr hshape,
      (field, ref), (shape.mem_entries_iff field ref).mpr href, rfl⟩

/-- A field of a stack leads where it led before, or else where the first sighting with that field
led. -/
theorem child?_stack {before : Option Shape} {seen : List Sighting} {shape : Shape}
    (hstack : stack before seen = some shape) (field : Text) :
    shape.child? field =
      (before.bind fun old => old.child? field).or (seen.findSome? fun s => s.child? field) := by
  cases before with
  | none => rw [child?_of_stack hstack, Option.bind_none, Option.none_or]
  | some old =>
      rw [stack_some, Option.some.injEq] at hstack
      rw [← hstack, Shape.child?_foldl_join, List.findSome?_map, Option.bind_some]
      simp only [Function.comp_def, Sighting.child?_shape]

/-- A model in which every field leads to a key of higher rank. -/
def Model.Rising (model : Model) : Prop :=
  ∀ key child, model.Leads key child → rank key < rank child

/-- A model in which every field leads to a higher rank has no cycle. -/
theorem Model.Rising.acyclic {model : Model} (hrising : model.Rising) : model.Acyclic :=
  Model.not_transGen_of_rank rank hrising

/-- Standard sightings leave no other fields. -/
theorem Model.Rising.absorb {model : Model} (hrising : model.Rising) (number : BatchNumber)
    {events : List Event} (hstandard : ∀ s, Event.sighted s ∈ events → s.IsStandard) :
    (model.absorb number events).Rising := by
  intro key child hleads
  obtain ⟨kind, shape, field, hshape, hchild⟩ := Model.leads_iff_child?.mp hleads
  rw [shape?_absorb] at hshape
  rw [child?_stack hshape, Option.or_eq_some_iff] at hchild
  rcases hchild with hbefore | ⟨-, hseen⟩
  · obtain ⟨old, hold, hled⟩ := Option.bind_eq_some_iff.mp hbefore
    exact hrising key child (Model.leads_iff_child?.mpr ⟨kind, old, field, hold, hled⟩)
  · obtain ⟨s, hs, hled⟩ := List.exists_of_findSome?_eq_some hseen
    obtain ⟨hevent, rfl, -⟩ := (mem_sightingsAt_iff _ _ _ _).mp hs
    exact (hstandard s hevent).rank_lt hled

/-- **One batch.**  A standard batch keeps fields rising, whether it succeeds or fails. -/
theorem Delivery.IsStandard.rising {delivery : Delivery} (hdelivery : delivery.IsStandard)
    {builder : Builder} (hrising : builder.model.Rising) :
    (builder.addBatch delivery.naming delivery.strict delivery.examples).2.model.Rising := by
  cases hadded : builder.addBatch delivery.naming delivery.strict delivery.examples with
  | mk result after =>
      cases result with
      | error failure =>
          rw [Builder.addBatch_error hadded]
          exact hrising
      | ok root =>
          obtain ⟨-, -, rfl⟩ := Builder.addBatch_ok hadded
          have hmore := hrising.absorb (builder.batches + 1 : Nat) fun s => hdelivery.sighting
          -- a new root is no field
          exact hmore

/-- Standard batches keep all fields leading to higher ranks. -/
theorem rising_afterAll {deliveries : List Delivery}
    (hstandard : ∀ delivery ∈ deliveries, delivery.IsStandard) {builder : Builder}
    (hrising : builder.model.Rising) : (builder.afterAll deliveries).model.Rising := by
  induction deliveries generalizing builder with
  | nil => exact hrising
  | cons delivery rest ih =>
      obtain ⟨hfirst, hrest⟩ := List.forall_mem_cons.mp hstandard
      exact ih hrest (hfirst.rising hrising)

/-- **No cycles.**  After whatever batches on a new builder, each of them ASCII data under the
standard naming with whatever root, no key of the model can be reached from itself, and the type
of every key is spelled out in inlined mode without any name in it. -/
theorem acyclic_of_standard {deliveries : List Delivery}
    (hstandard : ∀ delivery ∈ deliveries, delivery.IsStandard) :
    let model := (Builder.afterAll {} deliveries).model
    model.Acyclic ∧
      ∀ key, ∃ expr, model.expand? true key = some expr ∧ expr.references = [] := by
  intro model
  have hempty : ({} : Builder).model.Rising := fun key child hleads => by cases hleads
  have hacyclic : model.Acyclic := (rising_afterAll hstandard hempty).acyclic
  refine ⟨hacyclic, fun key => ?_⟩
  obtain ⟨expr, hexpr⟩ := Model.expandWithin_of_guarded hacyclic.guarded true [] key
  have hfound := hexpr _ (Nat.le_refl _)
  exact ⟨expr, hfound, (hacyclic.from key).references_eq_nil hfound⟩

/-- Two roots, the second of which is no name and leads to the first by members that have no
word in their names; then a strict batch that a type of the first one keeps out. -/
def sharedNames : List Delivery :=
  [{ naming := .standard (some "Tree")
     examples := { samples := [.object [("tree", .array [.object [("tree", .array [])]]),
       ("_", .object [("_", .object [("id", .scalar .null)])])]] } },
   { naming := .standard (some "tree")
     examples := { samples := [.object [("_", .array [.object []])],
       .object [("$", .object [("_", .scalar .string)])]] } },
   { naming := .standard (some "Tree")
     strict := true
     examples := { samples := [.object [("leaves", .array [])]] } }]

/-- The strict batch fails and leaves the model of the other two, which has no cycle, so that
nothing in it is left as a name. -/
theorem acyclic_sharedNames :
    let model := (Builder.afterAll {} sharedNames).model
    model = (Builder.afterAll {} (sharedNames.take 2)).model ∧ model.Acyclic ∧
      ∀ key, ∃ expr, model.expand? true key = some expr ∧ expr.references = [] := by
  refine ⟨by decide +kernel, acyclic_of_standard ?_⟩
  simp only [sharedNames, List.forall_mem_cons, List.not_mem_nil, false_implies, implies_true,
    and_true]
  refine ⟨⟨⟨some "Tree", rfl, ?_⟩, ?_⟩, ⟨⟨some "tree", rfl, ?_⟩, ?_⟩, ⟨some "Tree", rfl, ?_⟩, ?_⟩
  all_goals decide

end Exemplar
