import Exemplar.Proofs.DeclarationOrder
import Exemplar.Proofs.Rearrangement
import Exemplar.Proofs.StandardName.Plain
import Exemplar.Proofs.Strictness

/-!
# The order of type names

Types are named in the reverse of the order in which a batch came upon their objects.  An object
is met before the objects inside of it, so that a type which is found inside of another one
stands in front of it, as generated code wants it.

What counts is the first object of either type, though.  `Sample.objects` lists the objects of a
sample in the order of the walk, each with the keys of those around it; `registered_walk` says
that the walk registers them in this order, and `surrounded_objects` that what is around an object
was listed before.  The order of the names follows from the two (`typeNames_order`).

A type can therefore stand behind one that refers to it.  It does when its first object was met
elsewhere: where another position has the same name, or below an array that stands where objects
of the other type come later (`item_behind_owner`).
-/

namespace Exemplar

/-! ## First places -/

section

variable {α : Type} [BEq α] [LawfulBEq α] {a b : α}

/-- To leave other values out does not change which of two comes first. -/
theorem idxOf_filter_lt_iff (keep : α → Bool) (ha : keep a = true) (hb : keep b = true)
    (xs : List α) :
    (xs.filter keep).idxOf a < (xs.filter keep).idxOf b ↔ xs.idxOf a < xs.idxOf b := by
  induction xs with
  | nil => rfl
  | cons x rest ih =>
      by_cases hkeep : keep x = true
      · rw [List.filter_cons_of_pos hkeep]
        grind
      · rw [List.filter_cons_of_neg hkeep]
        grind

/-- Neither does it matter whether repetitions are erased. -/
theorem idxOf_eraseDups_lt_iff (xs : List α) :
    xs.eraseDups.idxOf a < xs.eraseDups.idxOf b ↔ xs.idxOf a < xs.idxOf b := by
  induction xs using firstAppearance_ind with
  | nil => rfl
  | cons x rest ih =>
      rw [List.eraseDups_cons]
      by_cases ha : a = x
      · by_cases hb : b = x
        · simp [ha, hb]
        · simp [ha, Ne.symm hb]
      · by_cases hb : b = x
        · simp [hb]
        · have hkept := idxOf_filter_lt_iff (fun y => !y == x) (by simpa using ha)
            (by simpa using hb) rest
          simp [Ne.symm ha, Ne.symm hb, ih, hkept]

/-- Where nothing stands twice, a list is turned around with the places of its values. -/
theorem idxOf_reverse_lt_iff {xs : List α} (hnodup : xs.Nodup) (ha : a ∈ xs) (hb : b ∈ xs) :
    xs.reverse.idxOf a < xs.reverse.idxOf b ↔ xs.idxOf b < xs.idxOf a := by
  induction xs with
  | nil => cases ha
  | cons x rest ih =>
      grind [List.idxOf_lt_length_iff]

end

/-! ## Registered names -/

/-- The names that some events register, in order and as often as they do. -/
def registeredNames (events : List Event) : List Name :=
  events.flatMap fun
    | .registered name => [name]
    | .sighted _ => []

/-- Names are registered in the order of the events. -/
@[simp] theorem registeredNames_append (first later : List Event) :
    registeredNames (first ++ later) = registeredNames first ++ registeredNames later :=
  List.flatMap_append

/-- A sighting registers no name. -/
@[simp] theorem registeredNames_sighted (s : Sighting) : registeredNames [.sighted s] = [] := rfl

/-- Several runs of events register their names one run after the other. -/
theorem registeredNames_flatMap {β : Type} (events : β → List Event) (parts : List β) :
    registeredNames (parts.flatMap events) = parts.flatMap fun part =>
      registeredNames (events part) :=
  List.flatMap_assoc

/-- Named types stand in the order in which they were first registered. -/
theorem keys_named_absorb (number : BatchNumber) (model : Model) (events : List Event) :
    (model.absorb number events).named.keys =
      (model.named.keys ++ registeredNames events).eraseDups := by
  refine foldl_eraseDups (fun model : Model => model.named.keys) _
    (fun model => model.named.nodup) (fun model event => ?_) events model
  cases event with
  | sighted s =>
      rw [List.append_nil, eraseDups_of_nodup model.named.nodup]
      rfl
  | registered name =>
      dsimp only [Event.effect, Model.register]
      rw [← model.named.keys_insert_eq_eraseDups name number]
      split
      · rename_i hknown
        rw [OrderedMap.keys_insert, if_pos ((model.named.contains_iff name).mp hknown)]
      · rfl

/-- The named types stand in front of all other type names, the latest first. -/
theorem Model.prefix_typeNames (model : Model) : model.named.keys.reverse <+: model.typeNames := by
  have hfold : ∀ roots names : List Name, names <+: roots.foldl (fun names root =>
      if !names.contains root && model.has root then names ++ [root] else names) names := by
    intro roots
    induction roots with
    | nil => exact List.prefix_refl
    | cons root rest ih =>
        intro names
        refine List.IsPrefix.trans ?_ (ih _)
        dsimp only
        split
        · exact List.prefix_append names [root]
        · exact List.prefix_refl names
  exact hfold model.roots _

/-- **Latest first.**  Of two named types, the one whose name was registered later than the other
stands in front. -/
theorem Model.idxOf_typeNames_lt_iff {model : Model} {a b : Name}
    (ha : model.isNamed a = true) (hb : model.isNamed b = true) :
    model.typeNames.idxOf a < model.typeNames.idxOf b ↔
      model.named.keys.idxOf b < model.named.keys.idxOf a := by
  obtain ⟨roots, hnames⟩ := model.prefix_typeNames
  have ha : a ∈ model.named.keys := (model.named.contains_iff a).mp ha
  have hb : b ∈ model.named.keys := (model.named.contains_iff b).mp hb
  rw [← hnames, List.idxOf_append_of_mem (List.mem_reverse.mpr ha),
    List.idxOf_append_of_mem (List.mem_reverse.mpr hb),
    idxOf_reverse_lt_iff model.named.nodup ha hb]

/-! ## The objects of a sample -/

/-- An object in a sample: the key under which it is stored, and those of the objects around it,
the nearest first. -/
structure Occurrence where
  key : Keypath
  around : List Keypath
deriving DecidableEq, Repr

mutual

/-- The objects of a sample that is stored under a key inside of some objects, each of them before
those inside of it. -/
def Sample.objects (around : List Keypath) (key : Keypath) : Sample → List Occurrence
  | .scalar _ => []
  | .array items => itemObjects around (partKey key (elementKeypath key)) items
  | .object members => ⟨key, around⟩ :: memberObjects (key :: around) key members

/-- The objects of some samples that are stored under one key. -/
def itemObjects (around : List Keypath) (key : Keypath) : List Sample → List Occurrence
  | [] => []
  | item :: rest => item.objects around key ++ itemObjects around key rest

/-- The objects of the members of an object. -/
def memberObjects (around : List Keypath) (parent : Keypath) :
    List (Text × Sample) → List Occurrence
  | [] => []
  | (member, sample) :: rest =>
      sample.objects around (partKey parent (childKeypath parent member)) ++
        memberObjects around parent rest

end

/-- The objects in items are those of each item. -/
theorem itemObjects_eq_flatMap (around : List Keypath) (key : Keypath) (items : List Sample) :
    itemObjects around key items = items.flatMap (Sample.objects around key) := by
  induction items with
  | nil => rfl
  | cons item rest ih => rw [itemObjects, ih, List.flatMap_cons]

/-- The objects in members are those of each value, under the key of its member. -/
theorem memberObjects_eq_flatMap (around : List Keypath) (parent : Keypath)
    (members : List (Text × Sample)) :
    memberObjects around parent members = members.flatMap fun entry =>
      entry.2.objects around (partKey parent (childKeypath parent entry.1)) := by
  induction members with
  | nil => rfl
  | cons entry rest ih => rw [memberObjects, ih, List.flatMap_cons]

/-- The objects of a batch under the standard naming. -/
def batchObjects (root : Option Name) (samples : List Sample) : List Occurrence :=
  itemObjects [] (rootName root) samples

/-! ## Walks register objects -/

/-- **Names and paths.**  Below a standard position a part is stored under a name exactly when its
key has no dot. -/
theorem StandardPosition.exists_nameAt {enclosing : List Keypath} {key : Keypath}
    (root : Option Name) (kind : Kind) {field : Text} (hpos : StandardPosition enclosing key)
    (hfield : field.IsAscii) :
    ∃ name, (Naming.standard root).nameAt (key :: enclosing) (partPosition kind key field) =
        .ok name ∧
      partKey key (partPosition kind key field) = name.getD (partPosition kind key field) ∧
      (name.isSome = true ↔ '.' ∉ partKey key (partPosition kind key field)) := by
  obtain ⟨name, hname, hkey⟩ := keyAt_eq_ok_iff.mp (hpos.step root kind hfield).1
  refine ⟨name, hname, hkey, ?_⟩
  obtain ⟨hnonempty, hascii, hstep⟩ := partPosition_spec kind hpos.nonempty hpos.ascii hfield
  rw [nameAt_standard root _ hnonempty hascii, Except.ok.injEq] at hname
  cases name with
  | some name =>
      obtain ⟨hproposed, -⟩ := Option.filter_eq_some_iff.mp hname
      rw [hkey, Option.getD_some]
      exact iff_of_true rfl (isPlain_standardTypeName hproposed).noDot
  | none =>
      rw [hkey, Option.getD_none]
      refine iff_of_false Bool.false_ne_true (not_not_intro ?_)
      rcases hstep with hheavier | ⟨-, -, hpath⟩
      · cases hproposed : standardTypeName (partPosition kind key field) with
        | none =>
            have hweightless := weight_eq_zero_of_no_name hascii hproposed
            omega
        | some proposed =>
            obtain ⟨hfree, -⟩ := hpos.step_heavier hascii hproposed hheavier
            rw [hproposed, Option.filter_some, if_pos (by simpa using hfree)] at hname
            cases hname
      · exact hpath

/-- The names among the keys of some objects, which have no dot. -/
def namedKeys (objects : List Occurrence) : List Name :=
  (objects.map Occurrence.key).filter fun key => decide ('.' ∉ key)

/-- A key without a dot is a name. -/
theorem namedKeys_cons (object : Occurrence) (later : List Occurrence) :
    namedKeys (object :: later) =
      (if '.' ∈ object.key then [] else [object.key]) ++ namedKeys later := by
  by_cases hpath : '.' ∈ object.key <;> simp [namedKeys, hpath]

/-- Names are collected part by part. -/
theorem namedKeys_flatMap {β : Type} (objects : β → List Occurrence) (parts : List β) :
    namedKeys (parts.flatMap objects) = parts.flatMap fun part => namedKeys (objects part) := by
  simp only [namedKeys, List.map_flatMap, List.filter_flatMap]

/-- **Walks register objects.**  The walk of ASCII data registers the keys of its objects that are
names, in the order of the objects. -/
theorem registered_walk (root : Option Name) {sample : Sample} {enclosing around : List Keypath}
    {keypath key : Keypath} {name : Option Name}
    (hnames : ∀ name ∈ sample.memberNames, name.IsAscii)
    (hname : (Naming.standard root).nameAt enclosing keypath = .ok name)
    (hkey : key = name.getD keypath) (hplain : name.isSome = true ↔ '.' ∉ key)
    (hpos : StandardPosition enclosing key) :
    registeredNames (walk (Naming.standard root) enclosing keypath sample).events =
      namedKeys (sample.objects around key) := by
  induction sample using Sample.ind generalizing enclosing around keypath key name with
  | scalar kind =>
      have hwalk := walk_standard root hnames (keyAt_eq_ok_iff.mpr ⟨name, hname, hkey⟩) hpos
      obtain ⟨-, hevents⟩ := walk_scalar_eq_iff.mp (Walk.eq_mk_iff.mp hwalk.1)
      rw [hevents]
      rfl
  | array items ih =>
      have hwalk := walk_standard root hnames (keyAt_eq_ok_iff.mpr ⟨name, hname, hkey⟩) hpos
      obtain ⟨element, inner, -, -, hitems, hevents⟩ :=
        walk_array_eq_iff.mp (Walk.eq_mk_iff.mp hwalk.1)
      obtain ⟨-, rfl⟩ := walkItems_eq_iff.mp hitems
      have hmark : Text.IsAscii elementMark := by decide
      obtain ⟨below, hbelow, hpart, hdot⟩ := hpos.exists_nameAt root .array hmark
      have hnext := (hpos.step root .array hmark).2
      rw [hevents, registeredNames_append, registeredNames_sighted, List.append_nil,
        registeredNames_flatMap, Sample.objects, itemObjects_eq_flatMap, namedKeys_flatMap]
      refine List.flatMap_congr fun item hmem => ?_
      exact ih item hmem
        (fun name hin => hnames name ((mem_itemNames_iff items name).mpr ⟨item, hmem, hin⟩))
        hbelow hpart hdot hnext
  | object members ih =>
      have hwalk := walk_standard root hnames (keyAt_eq_ok_iff.mpr ⟨name, hname, hkey⟩) hpos
      obtain ⟨found, inner, fields, hfound, -, hmembers, hevents⟩ :=
        walk_object_eq_iff.mp (Walk.eq_mk_iff.mp hwalk.1)
      obtain rfl : found = name := Except.ok.inj (hfound.symm.trans hname)
      obtain ⟨child, -, rfl, -⟩ := walkMembers_eq_iff.mp hmembers
      have hinner : ∀ entry ∈ members,
          registeredNames (walk (Naming.standard root) (key :: enclosing)
            (childKeypath key entry.1) entry.2).events =
          namedKeys (entry.2.objects (key :: around) (partKey key (childKeypath key entry.1))) := by
        intro entry hmem
        have hfield : entry.1.IsAscii :=
          hnames entry.1 ((mem_entryNames_iff members _).mpr ⟨entry, hmem, .inl rfl⟩)
        obtain ⟨below, hbelow, hpart, hdot⟩ := hpos.exists_nameAt root .object hfield
        exact ih entry hmem
          (fun name hin => hnames name ((mem_entryNames_iff members name).mpr
            ⟨entry, hmem, .inr hin⟩))
          hbelow hpart hdot (hpos.step root .object hfield).2
      have hown : registeredNames (registration found) = if '.' ∈ key then [] else [key] := by
        cases found with
        | none =>
            have hpath : '.' ∈ key := not_not.mp fun hfree => Bool.false_ne_true (hplain.mpr hfree)
            rw [if_pos hpath]
            rfl
        | some name =>
            rw [if_neg (hplain.mp rfl), hkey]
            rfl
      rw [hevents, registeredNames_append, registeredNames_append, registeredNames_sighted,
        List.append_nil, hown, registeredNames_flatMap, List.flatMap_congr hinner,
        ← namedKeys_flatMap, ← memberObjects_eq_flatMap, Sample.objects, namedKeys_cons]

/-! ## Objects inside of objects -/

/-- All objects that are around some object were listed before it, or are among the given ones. -/
def SurroundedBy (known : List Keypath) : List Occurrence → Prop
  | [] => True
  | object :: later =>
      (∀ above ∈ object.around, above ∈ known) ∧ SurroundedBy (object.key :: known) later

/-- More keys may be known around objects. -/
theorem SurroundedBy.mono {known more : List Keypath} {objects : List Occurrence}
    (hobjects : SurroundedBy known objects) (hsubset : known ⊆ more) :
    SurroundedBy more objects := by
  induction objects generalizing known more with
  | nil => trivial
  | cons object later ih =>
      exact ⟨fun above hmem => hsubset (hobjects.1 above hmem),
        ih hobjects.2 (List.cons_subset_cons object.key hsubset)⟩

/-- Objects in a row are surrounded as each part is. -/
theorem SurroundedBy.append {known : List Keypath} {first later : List Occurrence}
    (hfirst : SurroundedBy known first) (hlater : SurroundedBy known later) :
    SurroundedBy known (first ++ later) := by
  induction first generalizing known with
  | nil => exact hlater
  | cons object rest ih =>
      exact ⟨hfirst.1, ih hfirst.2 (hlater.mono (List.subset_cons_self object.key known))⟩

/-- Objects of several parts are surrounded as each part is. -/
theorem SurroundedBy.flatMap {β : Type} {known : List Keypath} {objects : β → List Occurrence}
    {parts : List β} (hparts : ∀ part ∈ parts, SurroundedBy known (objects part)) :
    SurroundedBy known (parts.flatMap objects) := by
  induction parts with
  | nil => trivial
  | cons part rest ih =>
      obtain ⟨hfirst, hrest⟩ := List.forall_mem_cons.mp hparts
      exact hfirst.append (ih hrest)

/-- **Outside first.**  The objects of a sample are listed after those around them. -/
theorem surrounded_objects (sample : Sample) (around : List Keypath) (key : Keypath) :
    SurroundedBy around (sample.objects around key) := by
  induction sample using Sample.ind generalizing around key with
  | scalar kind => trivial
  | array items ih =>
      rw [Sample.objects, itemObjects_eq_flatMap]
      exact .flatMap fun item hmem => ih item hmem around _
  | object members ih =>
      refine ⟨fun above hmem => hmem, ?_⟩
      rw [memberObjects_eq_flatMap]
      exact .flatMap fun entry hmem => ih entry hmem _ _

/-- What is around the first object of a key has its own first object before it. -/
theorem SurroundedBy.idxOf_lt {known : List Keypath} {objects : List Occurrence}
    (hobjects : SurroundedBy known objects) {inner outer : Keypath} {first : Occurrence}
    (hfirst : objects.find? (fun object => object.key == inner) = some first)
    (haround : outer ∈ first.around) (hother : outer ∉ known) :
    (objects.map Occurrence.key).idxOf outer < (objects.map Occurrence.key).idxOf inner := by
  induction objects generalizing known with
  | nil => cases hfirst
  | cons object later ih =>
      by_cases hinner : object.key = inner
      · rw [List.find?_cons_of_pos (by simpa using hinner), Option.some.injEq] at hfirst
        exact absurd (hobjects.1 outer (hfirst ▸ haround)) hother
      · rw [List.find?_cons_of_neg (by simpa using hinner)] at hfirst
        rw [List.map_cons, List.idxOf_cons_ne _ hinner]
        by_cases houter : object.key = outer
        · rw [List.idxOf_cons_eq _ houter]
          exact Nat.succ_pos _
        · rw [List.idxOf_cons_ne _ houter]
          refine Nat.succ_lt_succ (ih hobjects.2 hfirst ?_)
          exact not_or.mpr ⟨Ne.symm houter, hother⟩ ∘ List.mem_cons.mp

/-! ## Batches -/

/-- The way of a batch registers the keys of its objects that are names. -/
theorem registered_way {root : Option Name} (hroot : Text.IsAsciiIdentifier (rootName root))
    {samples : List Sample}
    (hnames : ∀ sample ∈ samples, ∀ name ∈ sample.memberNames, name.IsAscii) :
    registeredNames ((Naming.standard root).way samples).events =
      namedKeys (batchObjects root samples) := by
  have hplain : (some (rootName root)).isSome = true ↔ '.' ∉ rootName root :=
    iff_of_true rfl (isPlain_of_isIdentifier hroot.1).noDot
  rw [(way_standard hroot hnames).1, registeredNames_flatMap, batchObjects,
    itemObjects_eq_flatMap, namedKeys_flatMap]
  exact List.flatMap_congr fun sample hmem => registered_walk root (hnames sample hmem)
    (nameAt_standard_root root) rfl hplain (standardPosition_root hroot)

/-- A new builder takes a batch of ASCII data under the standard naming, strict or not. -/
theorem Builder.addBatch_new {root : Option Name} (hroot : Text.IsAsciiIdentifier (rootName root))
    {samples : List Sample}
    (hnames : ∀ sample ∈ samples, ∀ name ∈ sample.memberNames, name.IsAscii) (strict : Bool) :
    Builder.addBatch {} (.standard root) strict { samples } =
      (.ok (rootName root),
        Builder.committed {} ((Naming.standard root).way samples).events (rootName root)) := by
  have hloose := addBatch_standard hroot {} hnames
  cases strict with
  | false => exact hloose
  | true =>
      have htotal : (Naming.standard root).Total := by
        rintro generator keypath ⟨⟩
        exact ⟨_, rfl⟩
      have hkeeps : ∀ s, Event.sighted s ∈ ((Naming.standard root).way samples).events →
          ¬ ({} : Builder).model.Redefines s :=
        fun s _ hredefines => Bool.false_ne_true hredefines.1
      obtain ⟨hsame, -⟩ := addBatch_of_keeps Builder.Reachable.start.sound htotal hkeeps
      exact hsame.trans hloose

/-- The named types of a batch on a new builder are the names among the keys of its objects, in the
order of their first appearance. -/
theorem keys_named_new {root : Option Name} (hroot : Text.IsAsciiIdentifier (rootName root))
    {samples : List Sample}
    (hnames : ∀ sample ∈ samples, ∀ name ∈ sample.memberNames, name.IsAscii) :
    (Builder.committed {} ((Naming.standard root).way samples).events
      (rootName root)).model.named.keys = (namedKeys (batchObjects root samples)).eraseDups := by
  rw [← registered_way hroot hnames]
  exact keys_named_absorb _ {} _

/-- Nothing is around the objects of a batch but objects of the batch. -/
theorem surrounded_batchObjects (root : Option Name) (samples : List Sample) :
    SurroundedBy [] (batchObjects root samples) := by
  rw [batchObjects, itemObjects_eq_flatMap]
  exact .flatMap fun sample _ => surrounded_objects sample [] _

/-- **The order of type names.**  A new builder takes a batch of ASCII data under the standard
naming.  Of two named types, the one whose first object in the batch comes later than that of
the other stands in front.  So does a type whose first object lies inside of an object of the
other one. -/
theorem typeNames_order {root : Option Name} (hroot : Text.IsAsciiIdentifier (rootName root))
    {samples : List Sample}
    (hnames : ∀ sample ∈ samples, ∀ name ∈ sample.memberNames, name.IsAscii) (strict : Bool) :
    ∃ after, Builder.addBatch {} (.standard root) strict { samples } =
        (.ok (rootName root), after) ∧
      ∀ inner outer, after.model.isNamed inner = true → after.model.isNamed outer = true →
        let names := after.model.typeNames
        let objects := batchObjects root samples
        let keys := objects.map Occurrence.key
        (names.idxOf inner < names.idxOf outer ↔ keys.idxOf outer < keys.idxOf inner) ∧
          ∀ first, objects.find? (fun object => object.key == inner) = some first →
            outer ∈ first.around → names.idxOf inner < names.idxOf outer := by
  refine ⟨_, Builder.addBatch_new hroot hnames strict, fun inner outer hinner houter => ?_⟩
  intro names objects keys
  have hnamed := keys_named_new hroot hnames
  have hplain : ∀ name, (Builder.committed {} ((Naming.standard root).way samples).events
      (rootName root)).model.isNamed name = true → decide ('.' ∉ name) = true := by
    intro name hname
    have hmem := (OrderedMap.contains_iff _ name).mp hname
    rw [hnamed, List.mem_eraseDups] at hmem
    exact (List.mem_filter.mp hmem).2
  have horder : names.idxOf inner < names.idxOf outer ↔ keys.idxOf outer < keys.idxOf inner := by
    rw [Model.idxOf_typeNames_lt_iff hinner houter, hnamed, idxOf_eraseDups_lt_iff]
    exact idxOf_filter_lt_iff (fun key => decide ('.' ∉ key)) (hplain outer houter)
      (hplain inner hinner) keys
  refine ⟨horder, fun first hfirst haround => horder.mpr ?_⟩
  exact (surrounded_batchObjects root samples).idxOf_lt hfirst haround List.not_mem_nil

/-- Two positions that share the type of their parts: of its objects the first lies in `RootA`, and
`RootAB` comes after it. -/
def sharedPart : List Sample :=
  [.object [("a", .object [("b_c", .object [])]), ("a_b", .object [("c", .object [])])]]

/-- A part of two types is registered under the first object that has it: its name stands in front
of `RootA` and behind `RootAB`. -/
theorem typeNames_order_sharedPart :
    Text.IsAsciiIdentifier (rootName none) ∧
      (∀ sample ∈ sharedPart, ∀ name ∈ sample.memberNames, name.IsAscii) ∧
      ∃ after, Builder.addBatch {} (.standard none) true { samples := sharedPart } =
          (.ok "Root", after) ∧
        after.model.typeNames.idxOf "RootABC".toList <
          after.model.typeNames.idxOf "RootA".toList ∧
        after.model.typeNames.idxOf "RootAB".toList <
          after.model.typeNames.idxOf "RootABC".toList := by
  have hroot : Text.IsAsciiIdentifier (rootName none) := by decide
  have hnames : ∀ sample ∈ sharedPart, ∀ name ∈ sample.memberNames, name.IsAscii := by decide
  obtain ⟨after, hadded, horder⟩ := typeNames_order hroot hnames true
  have hnamed : ∀ name ∈ ["RootA".toList, "RootAB".toList, "RootABC".toList],
      after.model.isNamed name = true := by
    have hmodel : after = (Builder.addBatch {} (.standard none) true { samples := sharedPart }).2 :=
      (congrArg Prod.snd hadded).symm
    rw [hmodel]
    decide +kernel
  have hinside := (horder "RootABC" "RootA" (hnamed _ (by simp)) (hnamed _ (by simp))).2
  have hlater := (horder "RootAB" "RootABC" (hnamed _ (by simp)) (hnamed _ (by simp))).1
  refine ⟨hroot, hnames, after, hadded, ?_, hlater.mpr (by decide +kernel)⟩
  exact hinside ⟨"RootABC", ["RootA", "Root"]⟩ (by decide +kernel) (by decide)

/-- An owner that is first a list of persons and then an object.  The type of the persons is met
below the list, before the type of the owner that refers to it, and stands behind it. -/
theorem item_behind_owner :
    let samples : List Sample :=
      [.object [("owner", .array [.object [("name", .scalar .string)]])],
        .object [("owner", .object [("team", .scalar .string)])]]
    let after := (Builder.addBatch {} (.standard none) false { samples }).2
    Text.IsAsciiIdentifier (rootName none) ∧
      (∀ sample ∈ samples, ∀ name ∈ sample.memberNames, name.IsAscii) ∧
      after.model.typeNames = ["RootOwner".toList, "RootOwnerItem".toList, "Root".toList] ∧
      after.model.isNamed "RootOwner" = true ∧
      after.model.Mentions "RootOwner" "RootOwnerItem" ∧
      ¬ after.model.typeNames.idxOf "RootOwnerItem".toList <
        after.model.typeNames.idxOf "RootOwner".toList := by
  intro samples after
  have hnames : after.model.typeNames =
      ["RootOwner".toList, "RootOwnerItem".toList, "Root".toList] := by decide +kernel
  have hitem : after.model.isNamed "RootOwnerItem" = true := by decide +kernel
  have hleads : after.model.Leads "RootOwner" "RootOwnerItem" := by
    have hchild : "RootOwnerItem".toList ∈ after.model.children "RootOwner" := by decide +kernel
    exact hchild
  refine ⟨by decide, by decide, hnames, by decide +kernel, ⟨hitem, _, .refl, hleads⟩, ?_⟩
  rw [hnames]
  decide

end Exemplar
