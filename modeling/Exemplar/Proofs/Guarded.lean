import Exemplar.Proofs.Lessons
import Exemplar.Proofs.StandardName.Letters
import Mathlib.Order.WithBot

/-!
# Standard names guard every cycle

Models of ASCII data under the standard naming are acyclic, because a name is its own name and as
heavy as the keypath that it is for.  Outside of ASCII neither holds, and less is shown: every
cycle of fields, if there is one, passes through a named type.  That is enough for programs to be
written.

Objects are named where they are stored under a plain key (`isNamed_afterAll_iff_stores`).  What
goes on below a key without a name is therefore an array, and then its elements are heavier, or
an object that is stored under a path.  The parts of such an object are no lighter; they have a
name, which no path is, or a longer path (`guardRank_lt`).
-/

namespace Exemplar

/-- A batch whose caller names nothing but perhaps the root, in ASCII.  The members may be called
whatever they are. -/
def Delivery.UsesStandard (delivery : Delivery) : Prop :=
  ∃ root, delivery.naming = Naming.standard root ∧ Text.IsAsciiIdentifier (rootName root)

instance (text : Text) : Decidable text.IsPlain :=
  decidable_of_iff ('.' ∉ text ∧ ¬ elementMark <:+ text)
    ⟨fun hplain => ⟨hplain.1, hplain.2⟩, fun hplain => ⟨hplain.noDot, hplain.noMark⟩⟩

/-- The keypath of a part is no plain name. -/
theorem not_isPlain_below {key : Keypath} (hnonempty : key ≠ []) (step : Step) :
    ¬ Text.IsPlain (step.below key) := by
  rw [Step.below_eq_append hnonempty]
  intro hplain
  cases step with
  | member name => exact hplain.noDot (by simp [Step.spelling])
  | element => exact hplain.noMark (List.suffix_append key elementMark)

/-! ## Which objects are registered -/

/-- Events in which a name is registered exactly when it is plain and an object is seen under
it. -/
def Registering (events : List Event) : Prop :=
  ∀ name, Event.registered name ∈ events ↔
    Text.IsPlain name ∧ ∃ s, Event.sighted s ∈ events ∧ s.key = name ∧ s.kind = .object

/-- Several runs of such events are such events. -/
theorem Registering.flatMap {α : Type} {xs : List α} {events : α → List Event}
    (hall : ∀ x ∈ xs, Registering (events x)) : Registering (xs.flatMap events) := by
  intro name
  simp only [List.mem_flatMap]
  constructor
  · rintro ⟨x, hx, hname⟩
    obtain ⟨hplain, s, hs, hhere⟩ := (hall x hx name).mp hname
    exact ⟨hplain, s, ⟨x, hx, hs⟩, hhere⟩
  · rintro ⟨hplain, s, ⟨x, hx, hs⟩, hhere⟩
    exact ⟨x, hx, (hall x hx name).mpr ⟨hplain, s, hs, hhere⟩⟩

/-- A value adds its own sighting, with a name in front when it is an object with a plain key. -/
theorem Registering.sighted {inner : List Event} (hinner : Registering inner) {s : Sighting}
    (name : Option Name)
    (hname : ∀ own, name = some own ↔ Text.IsPlain own ∧ s.key = own ∧ s.kind = .object) :
    Registering (registration name ++ (inner ++ [.sighted s])) := by
  intro other
  have hregistered : Event.registered other ∈ registration name ++ (inner ++ [.sighted s]) ↔
      name = some other ∨ Event.registered other ∈ inner := by
    simp [registration]
  have hsighted : ∀ t, Event.sighted t ∈ registration name ++ (inner ++ [.sighted s]) ↔
      Event.sighted t ∈ inner ∨ t = s := by
    simp [registration]
  simp only [hregistered, hsighted, hname other, hinner other]
  constructor
  · rintro (⟨hplain, hkey, hkind⟩ | ⟨hplain, t, ht, hhere⟩)
    · exact ⟨hplain, s, .inr rfl, hkey, hkind⟩
    · exact ⟨hplain, t, .inl ht, hhere⟩
  · rintro ⟨hplain, t, ht | rfl, hkey, hkind⟩
    · exact .inr ⟨hplain, t, ht, hkey, hkind⟩
    · exact .inl ⟨hplain, hkey, hkind⟩

section

variable {root : Option Name} {enclosing : List Keypath} {keypath key : Keypath}

/-- A position of its own is the root, at the top, or is addressed by a path. -/
def IsPlace (enclosing : List Keypath) (keypath : Keypath) : Prop :=
  keypath = [] ∧ enclosing = [] ∨ ¬ Text.IsPlain keypath

/-- Nothing is around the root. -/
theorem IsPlace.top (hplace : IsPlace enclosing keypath) (hempty : keypath = []) :
    enclosing = [] := by
  rcases hplace with ⟨-, htop⟩ | hpath
  · exact htop
  · exact absurd (hempty ▸ by decide) hpath

/-- The parts of a value stand at places of their own. -/
theorem IsPlace.below (kind : Kind) (hnonempty : key ≠ []) (field : Text) :
    IsPlace (key :: enclosing) (partPosition kind key field) :=
  .inr (partPosition_eq_below kind field hnonempty ▸ not_isPlain_below hnonempty _)

/-- A place without a name has a path for its key, and no name looks like a path. -/
theorem nameAt_standard_eq_some_iff (hroot : Text.IsAsciiIdentifier (rootName root))
    (hplace : IsPlace enclosing keypath) {name : Option Name}
    (hname : (Naming.standard root).nameAt enclosing keypath = .ok name) (own : Name) :
    name = some own ↔ Text.IsPlain own ∧ name.getD keypath = own := by
  rcases hplace with ⟨rfl, rfl⟩ | hpath
  · obtain rfl := Except.ok.inj (hname.symm.trans (nameAt_standard_root root))
    have hplain := isPlain_of_isIdentifier hroot.1
    constructor
    · intro hown
      cases hown
      exact ⟨hplain, rfl⟩
    · rintro ⟨-, rfl⟩
      rfl
  · have hnonempty : keypath ≠ [] := by
      rintro rfl
      exact hpath (by decide)
    cases name with
    | none =>
        refine iff_of_false (by simp) ?_
        rintro ⟨hplain, rfl⟩
        exact hpath hplain
    | some text =>
        obtain ⟨found, hresolve, hkept⟩ := nameAt_eq_ok_iff.mp hname
        obtain ⟨rfl, -⟩ := Option.filter_eq_some_iff.mp hkept.symm
        have hplain := isPlain_standardTypeName (standardTypeName_of_resolve hnonempty hresolve)
        simp only [Option.some.injEq, Option.getD_some]
        exact ⟨fun hown => ⟨hown ▸ hplain, hown⟩, And.right⟩

/-- A walk under the standard naming registers the plain keys at which it sees objects. -/
theorem walk_registering (hroot : Text.IsAsciiIdentifier (rootName root)) {sample : Sample}
    (hplace : IsPlace enclosing keypath)
    (houtcome : (walk (Naming.standard root) enclosing keypath sample).outcome = .ok key) :
    Registering (walk (Naming.standard root) enclosing keypath sample).events := by
  have hnone : Registering [] := fun name => by simp
  induction sample using Sample.ind generalizing enclosing keypath key with
  | scalar kind =>
      obtain ⟨-, hevents⟩ := walk_scalar_eq_iff.mp (Walk.eq_mk_iff.mp houtcome)
      rw [hevents]
      exact hnone.sighted (s := { key, kind := .scalar kind }) none (by simp)
  | array items ih =>
      obtain ⟨element, inner, hkey, -, hitems, hevents⟩ :=
        walk_array_eq_iff.mp (Walk.eq_mk_iff.mp houtcome)
      obtain ⟨hcomplete, rfl⟩ := walkItems_eq_iff.mp hitems
      have hnonempty : key ≠ [] := ne_nil_of_keyAt hkey hplace.top
      have hinner := Registering.flatMap fun item hmem => (hcomplete item hmem).elim fun _ hfound =>
        ih item hmem (IsPlace.below .array hnonempty []) hfound
      rw [hevents]
      exact hinner.sighted none (by simp)
  | object members ih =>
      obtain ⟨name, inner, fields, hname, hkey, hmembers, hevents⟩ :=
        walk_object_eq_iff.mp (Walk.eq_mk_iff.mp houtcome)
      obtain ⟨child, hcomplete, rfl, rfl⟩ := walkMembers_eq_iff.mp hmembers
      have hnonempty : key ≠ [] :=
        ne_nil_of_keyAt (keyAt_eq_ok_iff.mpr ⟨name, hname, hkey⟩) hplace.top
      have hinner := Registering.flatMap fun entry hmem =>
        ih entry hmem (IsPlace.below .object hnonempty entry.1) (hcomplete entry hmem)
      rw [hevents]
      refine hinner.sighted name fun own => ?_
      rw [nameAt_standard_eq_some_iff hroot hplace hname, hkey]
      simp

/-- So does a whole batch. -/
theorem way_registering {samples : List Sample} {found : Name}
    (hroot : Text.IsAsciiIdentifier (rootName root))
    (houtcome : ((Naming.standard root).way samples).outcome = .ok found) :
    Registering ((Naming.standard root).way samples).events := by
  obtain ⟨-, hcomplete, hevents⟩ := Naming.way_eq_iff.mp (Walk.eq_mk_iff.mp houtcome)
  rw [hevents]
  exact Registering.flatMap fun sample hmem => (hcomplete sample hmem).elim fun _ hfound =>
    walk_registering hroot (.inl ⟨rfl, rfl⟩) hfound

end

/-! ## Models -/

/-- **Named types.**  Under the standard naming the named types are the plain keys under which
the successful batches stored objects. -/
theorem isNamed_afterAll_iff_stores {deliveries : List Delivery}
    (hstandard : ∀ delivery ∈ deliveries, delivery.UsesStandard) (name : Name) :
    (Builder.afterAll {} deliveries).model.isNamed name = true ↔
      Text.IsPlain name ∧ ∃ delivery ∈ Builder.succeeding {} deliveries,
        ∃ sample, delivery.StoresUnder name sample ∧ sample.kind = .object := by
  rw [Builder.isNamed_afterAll_iff]
  have hbatch : ∀ delivery ∈ Builder.succeeding {} deliveries,
      (Event.registered name ∈ delivery.events ↔ Text.IsPlain name ∧
        ∃ sample, delivery.StoresUnder name sample ∧ sample.kind = .object) := by
    intro delivery hmem
    obtain ⟨hgiven, hends⟩ := (Builder.tries {} deliveries).mem_ends hmem
    obtain ⟨root, hnaming, hroot⟩ := hstandard delivery hgiven
    rw [← hends.stores_iff]
    obtain ⟨found, hway⟩ := hends
    rw [hnaming] at hway
    rw [Delivery.events, hnaming]
    exact way_registering hroot hway name
  constructor
  · rintro ⟨delivery, hmem, hregistered⟩
    obtain ⟨hplain, hstored⟩ := (hbatch delivery hmem).mp hregistered
    exact ⟨hplain, delivery, hmem, hstored⟩
  · rintro ⟨hplain, delivery, hmem, hstored⟩
    exact ⟨delivery, hmem, (hbatch delivery hmem).mpr ⟨hplain, hstored⟩⟩

/-- The weight of a key, with names above paths of the same weight. -/
def guardLevel (key : Keypath) : Nat :=
  2 * weight key + if Text.IsPlain key then 1 else 0

/-- What grows along the keys without a name: their level, and then the length of paths. -/
def guardRank (key : Keypath) : Nat ×ₗ Nat :=
  toLex (guardLevel key, key.length)

/-- Ranks are compared by their levels, and then by length. -/
theorem guardRank_lt_iff (key child : Keypath) :
    guardRank key < guardRank child ↔ guardLevel key < guardLevel child ∨
      guardLevel key = guardLevel child ∧ key.length < child.length :=
  Prod.Lex.toLex_lt_toLex

/-- A plain name stands one above its weight. -/
theorem guardLevel_of_plain {key : Keypath} (hplain : Text.IsPlain key) :
    guardLevel key = 2 * weight key + 1 := by
  rw [guardLevel, if_pos hplain]

/-- A path stands at its weight. -/
theorem guardLevel_of_path {key : Keypath} (hpath : ¬ Text.IsPlain key) :
    guardLevel key = 2 * weight key := by
  rw [guardLevel, if_neg hpath, Nat.add_zero]

/-- A heavier key has a higher level, whether either of them is a name or a path. -/
theorem guardLevel_lt_of_weight {key child : Keypath} (hheavier : weight key < weight child) :
    guardLevel key < guardLevel child := by
  unfold guardLevel
  split <;> split <;> omega

/-- **One step down.**  The elements of an array and the members of an object under a path have a
higher rank, whether they are stored under their names or under their paths. -/
theorem guardRank_lt (kind : Kind) {key child : Keypath} (field : Text) (hnonempty : key ≠ [])
    (hkind : kind = .array ∨ ¬ Text.IsPlain key)
    (hchild : child = partPosition kind key field ∨
      standardTypeName (partPosition kind key field) = some child) :
    guardRank key < guardRank child := by
  have hposition := partPosition_eq_below kind field hnonempty
  have hweight : weight (partPosition kind key field) ≤ weight child := by
    rcases hchild with rfl | hname
    · exact Nat.le_refl _
    · exact weight_le_name hname
  rw [guardRank_lt_iff]
  rcases hkind with rfl | hpath
  · exact .inl (guardLevel_lt_of_weight ((weight_lt_element key).trans_le hweight))
  · have hheavier : weight key ≤ weight (partPosition kind key field) :=
      hposition ▸ weight_le_below hnonempty (kind.stepTo field)
    rw [guardLevel_of_path hpath]
    rcases hchild with rfl | hname
    · have hlonger := length_lt_partPosition kind field hnonempty
      rw [guardLevel_of_path (hposition ▸ not_isPlain_below hnonempty _)]
      omega
    · rw [guardLevel_of_plain (isPlain_standardTypeName hname)]
      omega

section

variable {deliveries : List Delivery}
  (hstandard : ∀ delivery ∈ deliveries, delivery.UsesStandard)
include hstandard

/-- **One field.**  Fields below a key without a name lead to a higher rank. -/
theorem guardRank_lt_of_leads {key child : Keypath}
    (hleads : (Builder.afterAll {} deliveries).model.Leads key child)
    (hunnamed : (Builder.afterAll {} deliveries).model.isNamed key = false) :
    guardRank key < guardRank child := by
  obtain ⟨kind, shape, field, hshape, hfield⟩ := Model.leads_iff_child?.mp hleads
  have hchild : (Builder.afterAll {} deliveries).model.child? key kind field = some child := by
    rw [Model.child?, hshape]
    exact hfield
  obtain ⟨delivery, hmem, enclosing, sample, hstored, hkind, hknown, hkeyed⟩ :=
    Builder.places_of_child? hchild
  obtain ⟨hgiven, -⟩ := (Builder.tries {} deliveries).mem_ends hmem
  obtain ⟨root, hnaming, hroot⟩ := hstandard delivery hgiven
  have hunder : delivery.StoresUnder key sample := ⟨enclosing, hstored⟩
  rw [hnaming] at hstored hkeyed
  have hnonempty := hstored.ne_nil hroot
  have hposition : partPosition kind key field ≠ [] := by
    simp [partPosition_eq_append _ _ hnonempty, hnonempty]
  refine guardRank_lt kind field hnonempty ?_ (keyAt_standard_part hposition hkeyed)
  cases sample with
  | scalar scalar => cases hknown
  | array items => exact .inl hkind.symm
  | object members =>
      refine .inr fun hplain => Bool.false_ne_true (hunnamed.symm.trans ?_)
      exact (isNamed_afterAll_iff_stores hstandard key).mpr
        ⟨hplain, delivery, hmem, _, hunder, rfl⟩

/-- **Every cycle is guarded.**  After whatever batches on a new builder under the standard
naming, successful or not, every cycle of fields passes through a named type. -/
theorem guarded_of_usesStandard : (Builder.afterAll {} deliveries).model.Guarded := by
  let model := (Builder.afterAll {} deliveries).model
  let rank (key : Keypath) : WithBot (Nat ×ₗ Nat) :=
    if model.isNamed key then ⊥ else (guardRank key : WithBot (Nat ×ₗ Nat))
  refine Model.guarded_of_rank rank fun key _ child hleads hchild => ?_
  have hchildRank : rank child = guardRank child := by simp [rank, model, hchild]
  rw [hchildRank]
  cases hkey : model.isNamed key with
  | true =>
      have hkeyRank : rank key = ⊥ := if_pos hkey
      rw [hkeyRank]
      exact WithBot.bot_lt_coe _
  | false =>
      have hkeyRank : rank key = guardRank key := by simp [rank, hkey]
      rw [hkeyRank, WithBot.coe_lt_coe]
      exact guardRank_lt_of_leads hstandard hleads hkey

end

end Exemplar
