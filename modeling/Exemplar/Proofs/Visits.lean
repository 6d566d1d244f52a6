import Exemplar.Proofs.StandardName.Path

/-!
# Visits

Adding a batch to a builder is one `merge` inside another.  `Builder.Visits` lists the calls: which
sample is merged at which keypath, below which keys, and into what the model has become by then.
A batch that fails makes the calls up to its failure.

Whatever is visited is stored as `Naming.Stores` says, which knows nothing of models
(`Visits.stores`), and a batch that succeeds visits all that it stores (`stores_iff_exists_visits`).

The key of a visit depends on all the keys around it, since a generated name that one of them has
is given up.  Under the standard naming of ASCII data that comes down to the nearest of them:
every visit is at a `StandardPosition`, where the key of a part is settled by the key of the whole.
So the parent and the step to the child tell the key of the child (`child_key_settled`), in
whatever batch the child is visited and whatever lies above the parent.
-/

namespace Exemplar

/-! ## The calls of a batch -/

/-- The batch that a delivery becomes. -/
def Builder.batchOf (builder : Builder) (delivery : Delivery) : Batch :=
  builder.nextBatch delivery.naming delivery.strict

/-- **Visits.**  When a delivery is added to a builder, a sample is merged at a keypath, below
positions with the `enclosing` keys, into what the builder's model has become by then. -/
inductive Builder.Visits (builder : Builder) (delivery : Delivery) :
    List Keypath → Keypath → Sample → Model → Prop
  | root {before later : List Sample} {sample : Sample} {name : Name} {model : Model}
      (hkey : delivery.naming.keyAt [] [] = .ok name)
      (hgiven : delivery.examples.samples = before ++ sample :: later)
      (hmerged : mergeItems (builder.batchOf delivery) [] [] before builder.model = .ok model) :
      Visits builder delivery [] [] sample model
  | item {enclosing : List Keypath} {keypath key element : Keypath} {before later : List Sample}
      {item : Sample} {start model : Model}
      (hvisited : Visits builder delivery enclosing keypath (.array (before ++ item :: later))
        start)
      (hkey : delivery.naming.keyAt enclosing keypath = .ok key)
      (hfound : delivery.naming.keyAt (key :: enclosing) (elementKeypath key) = .ok element)
      (hmerged : mergeItems (builder.batchOf delivery) (key :: enclosing) (elementKeypath key)
        before start = .ok model) :
      Visits builder delivery (key :: enclosing) (elementKeypath key) item model
  | member {enclosing : List Keypath} {keypath key : Keypath} {name : Option Name}
      {before later : List (Text × Sample)} {entry : Text × Sample} {seen : Shape}
      {start model : Model}
      (hvisited : Visits builder delivery enclosing keypath (.object (before ++ entry :: later))
        start)
      (hnamed : delivery.naming.nameAt enclosing keypath = .ok name)
      (hkey : key = name.getD keypath)
      (hmerged : mergeMembers (builder.batchOf delivery) (key :: enclosing) key before .empty
        (if name.isSome then start.register key (builder.batchOf delivery).number else start) =
          .ok (seen, model)) :
      Visits builder delivery (key :: enclosing) (childKeypath key entry.1) entry.2 model

/-- A computation in two parts succeeds when both do. -/
theorem bind_eq_ok_iff {ε α β : Type} {first : Except ε α} {next : α → Except ε β} {last : β} :
    first >>= next = .ok last ↔ ∃ found, first = .ok found ∧ next found = .ok last := by
  cases first <;> simp [bind, Except.bind]

/-- Answers are taken over, and failures never become answers. -/
theorem mapError_eq_ok_iff {ε δ α : Type} {answer : Except ε α} {change : ε → δ} {found : α} :
    answer.mapError change = .ok found ↔ answer = .ok found := by
  cases answer <;> simp [Except.mapError]

section

variable {batch : Batch} {enclosing : List Keypath} {keypath key : Keypath} {model after : Model}

/-- What a merge returns is the key of the position. -/
theorem keyAt_of_merge {sample : Sample}
    (hok : merge batch enclosing keypath sample model = .ok (key, after)) :
    batch.naming.keyAt enclosing keypath = .ok key := by
  rw [merge_eq_run] at hok
  exact keyAt_of_walk (Walk.run_ok hok).1

/-- Items are merged in two portions. -/
theorem mergeItems_append (before later : List Sample) :
    mergeItems batch enclosing keypath (before ++ later) model =
      mergeItems batch enclosing keypath before model >>=
        mergeItems batch enclosing keypath later := by
  induction before generalizing model with
  | nil => rfl
  | cons item before ih =>
      rw [List.cons_append, mergeItems, mergeItems]
      cases merge batch enclosing keypath item model with
      | error failure => rfl
      | ok reached => exact ih

/-- Members are merged in two portions. -/
theorem mergeMembers_append (before later : List (Text × Sample)) (seen : Shape) :
    mergeMembers batch enclosing key (before ++ later) seen model =
      mergeMembers batch enclosing key before seen model >>= fun reached =>
        mergeMembers batch enclosing key later reached.1 reached.2 := by
  induction before generalizing seen model with
  | nil => rfl
  | cons entry before ih =>
      obtain ⟨member, sample⟩ := entry
      rw [List.cons_append, mergeMembers, mergeMembers]
      cases merge batch enclosing (childKeypath key member) sample model with
      | error failure => rfl
      | ok reached => exact ih _

/-- When some samples are merged, each of them is, after the ones in front of it. -/
theorem exists_merge_of_mergeItems {before later : List Sample} {item : Sample}
    (hok : mergeItems batch enclosing keypath (before ++ item :: later) model = .ok after) :
    ∃ reached child next, mergeItems batch enclosing keypath before model = .ok reached ∧
      merge batch enclosing keypath item reached = .ok (child, next) := by
  rw [mergeItems_append] at hok
  obtain ⟨reached, hbefore, hrest⟩ := bind_eq_ok_iff.mp hok
  rw [mergeItems] at hrest
  obtain ⟨⟨child, next⟩, hitem, -⟩ := bind_eq_ok_iff.mp hrest
  exact ⟨reached, child, next, hbefore, hitem⟩

/-- When some members are merged, each of them is, after the ones in front of it. -/
theorem exists_merge_of_mergeMembers {before later : List (Text × Sample)}
    {entry : Text × Sample} {seen : Shape} {last : Shape × Model}
    (hok : mergeMembers batch enclosing key (before ++ entry :: later) seen model = .ok last) :
    ∃ reached child next, mergeMembers batch enclosing key before seen model = .ok reached ∧
      merge batch enclosing (childKeypath key entry.1) entry.2 reached.2 = .ok (child, next) := by
  rw [mergeMembers_append] at hok
  obtain ⟨reached, hbefore, hrest⟩ := bind_eq_ok_iff.mp hok
  obtain ⟨member, sample⟩ := entry
  rw [mergeMembers] at hrest
  obtain ⟨⟨child, next⟩, hentry, -⟩ := bind_eq_ok_iff.mp hrest
  exact ⟨reached, child, next, hbefore, hentry⟩

end

namespace Sample

/-- A part stands under a field of the sample. -/
theorem Holds.mem_fields {sample part : Sample} {field : Text} (hheld : sample.Holds field part) :
    field ∈ sample.fields := by
  cases hheld with
  | item hmem => exact List.mem_singleton_self elementMark
  | member hmem => exact List.mem_map_of_mem hmem

/-- The fields of a sample in ASCII are in ASCII. -/
theorem isAscii_of_mem_fields {sample : Sample} {field : Text}
    (hnames : ∀ name ∈ sample.memberNames, name.IsAscii) (hfield : field ∈ sample.fields) :
    field.IsAscii := by
  cases sample with
  | scalar kind => cases hfield
  | array items =>
      obtain rfl := List.mem_singleton.mp hfield
      decide
  | object members =>
      obtain ⟨entry, hmem, rfl⟩ := List.mem_map.mp hfield
      exact ((Holds.member hmem).isAscii hnames).1

end Sample

namespace Builder

variable {builder : Builder} {delivery : Delivery} {enclosing above : List Keypath}
  {keypath key : Keypath} {sample whole part : Sample} {model start : Model}

/-- A visit of a part comes out of a visit of the whole. -/
theorem Visits.exists_whole (hvisit : builder.Visits delivery (key :: above) keypath part model) :
    ∃ path whole start field, builder.Visits delivery above path whole start ∧
      delivery.naming.keyAt above path = .ok key ∧ whole.Holds field part ∧
      keypath = partPosition whole.kind key field := by
  cases hvisit with
  | item hvisited hkey hfound hmerged =>
      exact ⟨_, _, _, elementMark, hvisited, hkey, .item (by simp), rfl⟩
  | member hvisited hnamed hkey hmerged =>
      exact ⟨_, _, _, _, hvisited, keyAt_eq_ok_iff.mpr ⟨_, hnamed, hkey⟩, .member (by simp), rfl⟩

/-- What is visited is stored under the key of its position. -/
theorem Visits.stores (hvisit : builder.Visits delivery enclosing keypath sample model)
    (hkey : delivery.naming.keyAt enclosing keypath = .ok key) :
    delivery.naming.Stores delivery.examples.samples enclosing key sample := by
  induction hvisit generalizing key with
  | root hroot hgiven hmerged => exact .root (hgiven ▸ by simp) hkey
  | item hvisited hwhole hfound hmerged ih => exact (ih hwhole).part (.item (by simp)) hkey
  | member hvisited hnamed hwhole hmerged ih =>
      exact (ih (keyAt_eq_ok_iff.mpr ⟨_, hnamed, hwhole⟩)).part (.member (by simp)) hkey

/-- **One part.**  When the whole is visited and merged, so is every part of it. -/
theorem Visits.exists_part {field : Text} {after : Model}
    (hvisit : builder.Visits delivery enclosing keypath whole start)
    (hok : merge (builder.batchOf delivery) enclosing keypath whole start = .ok (key, after))
    (hheld : whole.Holds field part) :
    ∃ model child next,
      builder.Visits delivery (key :: enclosing) (partPosition whole.kind key field) part model ∧
      merge (builder.batchOf delivery) (key :: enclosing) (partPosition whole.kind key field) part
        model = .ok (child, next) := by
  cases hheld with
  | item hmem =>
      obtain ⟨before, later, rfl⟩ := List.append_of_mem hmem
      rw [merge] at hok
      obtain ⟨found, hkey, hrest⟩ := bind_eq_ok_iff.mp hok
      obtain ⟨element, helement, hrest⟩ := bind_eq_ok_iff.mp hrest
      obtain ⟨last, hitems, hrest⟩ := bind_eq_ok_iff.mp hrest
      obtain ⟨model, -, hlast⟩ := bind_eq_ok_iff.mp hrest
      obtain ⟨rfl, rfl⟩ := Prod.mk.inj (Except.ok.inj hlast)
      obtain ⟨reached, child, next, hbefore, hitem⟩ := exists_merge_of_mergeItems hitems
      exact ⟨reached, child, next, .item hvisit (mapError_eq_ok_iff.mp hkey)
        (mapError_eq_ok_iff.mp helement) hbefore, hitem⟩
  | member hmem =>
      obtain ⟨before, later, rfl⟩ := List.append_of_mem hmem
      rw [merge] at hok
      obtain ⟨name, hname, hrest⟩ := bind_eq_ok_iff.mp hok
      obtain ⟨last, hmembers, hrest⟩ := bind_eq_ok_iff.mp hrest
      obtain ⟨model, -, hlast⟩ := bind_eq_ok_iff.mp hrest
      obtain ⟨rfl, rfl⟩ := Prod.mk.inj (Except.ok.inj hlast)
      obtain ⟨reached, child, next, hbefore, hentry⟩ := exists_merge_of_mergeMembers hmembers
      exact ⟨reached.2, child, next, .member hvisit (mapError_eq_ok_iff.mp hname) rfl hbefore,
        hentry⟩

/-- A batch that succeeds merges all its samples. -/
theorem exists_mergeItems {root : Name} {after : Builder}
    (hok : builder.addBatch delivery.naming delivery.strict delivery.examples =
      (.ok root, after)) :
    ∃ model, mergeItems (builder.batchOf delivery) [] [] delivery.examples.samples builder.model =
      .ok model := by
  rw [addBatch_eq] at hok
  cases hcommit : builder.model.commit (builder.batchOf delivery) delivery.examples with
  | error failure =>
      unfold batchOf at hcommit
      rw [hcommit] at hok
      cases hok
  | ok reached =>
      unfold Model.commit at hcommit
      obtain ⟨found, -, hrest⟩ := bind_eq_ok_iff.mp hcommit
      obtain ⟨model, hitems, -⟩ := bind_eq_ok_iff.mp hrest
      exact ⟨model, hitems⟩

/-- **All visits.**  A batch that succeeds visits what it stores, and nothing else. -/
theorem stores_iff_exists_visits {root : Name} {after : Builder}
    (hok : builder.addBatch delivery.naming delivery.strict delivery.examples =
      (.ok root, after)) :
    delivery.naming.Stores delivery.examples.samples enclosing key sample ↔
      ∃ keypath model, builder.Visits delivery enclosing keypath sample model ∧
        delivery.naming.keyAt enclosing keypath = .ok key := by
  constructor
  · intro hstored
    -- A part is visited because the merge of the whole succeeds, so both go into the induction.
    suffices hmerged : ∃ keypath start next,
        builder.Visits delivery enclosing keypath sample start ∧
          merge (builder.batchOf delivery) enclosing keypath sample start = .ok (key, next) by
      obtain ⟨keypath, start, next, hvisit, hmerge⟩ := hmerged
      exact ⟨keypath, start, hvisit, keyAt_of_merge hmerge⟩
    induction hstored with
    | @root sample key hgiven hkey =>
        obtain ⟨before, later, hsplit⟩ := List.append_of_mem hgiven
        obtain ⟨last, hitems⟩ := exists_mergeItems hok
        rw [hsplit] at hitems
        obtain ⟨start, found, next, hbefore, hmerge⟩ := exists_merge_of_mergeItems hitems
        obtain rfl := Except.ok.inj (hkey.symm.trans (keyAt_of_merge hmerge))
        exact ⟨[], start, next, .root hkey hsplit hbefore, hmerge⟩
    | part hstored hheld hkey ih =>
        obtain ⟨keypath, start, next, hvisit, hmerge⟩ := ih
        obtain ⟨model, child, last, hpart, hdone⟩ := hvisit.exists_part hmerge hheld
        obtain rfl := Except.ok.inj (hkey.symm.trans (keyAt_of_merge hdone))
        exact ⟨_, model, last, hpart, hdone⟩
  · rintro ⟨keypath, model, hvisit, hkey⟩
    exact hvisit.stores hkey

/-! ## Keys of parts -/

/-- Whatever is visited of ASCII data under the standard naming is at a standard position. -/
theorem Visits.standardPosition (hdelivery : delivery.IsStandard)
    (hvisit : builder.Visits delivery enclosing keypath sample model)
    (hkey : delivery.naming.keyAt enclosing keypath = .ok key) :
    StandardPosition enclosing key ∧ ∀ name ∈ sample.memberNames, name.IsAscii := by
  obtain ⟨⟨root, hnaming, hroot⟩, hascii⟩ := hdelivery
  have hstored := hvisit.stores hkey
  rw [hnaming] at hstored
  obtain ⟨given, hgiven, position, hplace⟩ := stores_iff_exists_storesAt.mp hstored
  have hpath := hplace.followsPath hroot (hascii given hgiven)
  exact ⟨hpath.position, hpath.names⟩

/-- **The key of a part.**  Below a visit, the key of a part is settled by the key of the visit and
the position of the part, also where the part is not visited: in an array without elements, or
after a failure. -/
theorem Visits.keyAt_part (hdelivery : delivery.IsStandard)
    (hvisit : builder.Visits delivery enclosing keypath whole model)
    (hkey : delivery.naming.keyAt enclosing keypath = .ok key) {field : Text}
    (hfield : field ∈ whole.fields) :
    delivery.naming.keyAt (key :: enclosing) (partPosition whole.kind key field) =
      .ok (partKey key (partPosition whole.kind key field)) := by
  obtain ⟨hpos, hnames⟩ := hvisit.standardPosition hdelivery hkey
  obtain ⟨root, hnaming, -⟩ := hdelivery.standard
  have hascii := Sample.isAscii_of_mem_fields hnames hfield
  rw [hnaming]
  exact (hpos.step root whole.kind hascii).1

/-- A part that is visited has the key that is settled by the key of the whole. -/
theorem Visits.keyAt_eq (hdelivery : delivery.IsStandard)
    (hvisit : builder.Visits delivery (key :: above) keypath part model) :
    delivery.naming.keyAt (key :: above) keypath = .ok (partKey key keypath) := by
  obtain ⟨path, whole, start, field, hwhole, hkey, hheld, rfl⟩ := hvisit.exists_whole
  exact hwhole.keyAt_part hdelivery hkey hheld.mem_fields

/-- **The parent and the step tell the child.**  Take any two visits to ASCII data under the
standard naming, by batches with whatever roots and strictness, added to whatever builders.  If the
samples are found by the same step below parents with the same key, they have the same key, whatever
lies above the parents: the name of the position, unless the parent has that name, or has given it
up as well. -/
theorem child_key_settled {later : Builder} {other : Delivery} (hdelivery : delivery.IsStandard)
    (hother : other.IsStandard) {step : Step} {around : List Keypath} {otherPart : Sample}
    {otherModel : Model}
    (hfirst : builder.Visits delivery (key :: above) (step.below key) part model)
    (hsecond : later.Visits other (key :: around) (step.below key) otherPart otherModel) :
    delivery.naming.keyAt (key :: above) (step.below key) = .ok (partKey key (step.below key)) ∧
      other.naming.keyAt (key :: around) (step.below key) = .ok (partKey key (step.below key)) :=
  ⟨hfirst.keyAt_eq hdelivery, hsecond.keyAt_eq hother⟩

/-- A root whose nameless member has to give the name of the root up. -/
def nodeRoot : Delivery where
  naming := .standard (some "Node")
  examples := { samples := [.object [("_", .scalar .number)]] }

/-- A root whose nameless member has the name of the other root, and one more member than that. -/
def nodeMember : Delivery where
  naming := .standard (some "node")
  strict := true
  examples := { samples := [.object [("_", .object [("_", .scalar .string),
    ("id", .scalar .null)])]] }

/-- The nameless member of a `Node` gives its name up, where the `Node` is the root and where it is
not, also in a batch that is refused later on. -/
theorem child_key_settled_node :
    let later := (addBatch {} nodeRoot.naming nodeRoot.strict nodeRoot.examples).2
    nodeRoot.IsStandard ∧ nodeMember.IsStandard ∧
      (later.addBatch nodeMember.naming nodeMember.strict nodeMember.examples).1 =
        .error (.redefinition ⟨"Node", 1, 2, "id"⟩) ∧
      ∃ model otherModel,
        Visits {} nodeRoot ["Node"] ((Step.member "_").below "Node") (.scalar .number) model ∧
        later.Visits nodeMember ["Node", "node"] ((Step.member "_").below "Node")
          (.scalar .string) otherModel ∧
        nodeRoot.naming.keyAt ["Node"] ((Step.member "_").below "Node") =
          .ok "Node._".toList ∧
        nodeMember.naming.keyAt ["Node", "node"] ((Step.member "_").below "Node") =
          .ok "Node._".toList := by
  intro later
  have hroot : nodeRoot.IsStandard := ⟨⟨some "Node", rfl, by decide⟩, by decide⟩
  have hmember : nodeMember.IsStandard := ⟨⟨some "node", rfl, by decide⟩, by decide⟩
  have hnode : Visits {} nodeRoot [] [] (.object [("_", .scalar .number)]) {} :=
    @Visits.root _ _ [] [] _ _ _ rfl rfl rfl
  have hfirst : Visits {} nodeRoot ["Node"] ((Step.member "_").below "Node") (.scalar .number) _ :=
    @Visits.member _ _ _ _ "Node" (some "Node") [] [] ("_", _) _ _ _ hnode rfl rfl rfl
  have hwhole : later.Visits nodeMember [] [] (.object [("_", .object [("_", .scalar .string),
      ("id", .scalar .null)])]) later.model := @Visits.root _ _ [] [] _ _ _ rfl rfl rfl
  have hpart : later.Visits nodeMember ["node"] ((Step.member "_").below "node")
      (.object [("_", .scalar .string), ("id", .scalar .null)]) _ :=
    @Visits.member _ _ _ _ "node" (some "node") [] [] ("_", _) _ _ _ hwhole rfl rfl rfl
  have hsecond : later.Visits nodeMember ["Node", "node"] ((Step.member "_").below "Node")
      (.scalar .string) _ :=
    @Visits.member _ _ _ _ "Node" (some "Node") [] [("id", _)] ("_", _) _ _ _ hpart rfl rfl rfl
  have hsettled : partKey "Node" ((Step.member "_").below "Node") = "Node._".toList := by decide
  obtain ⟨hone, htwo⟩ := child_key_settled hroot hmember hfirst hsecond
  rw [hsettled] at hone htwo
  exact ⟨hroot, hmember, by decide +kernel, _, _, hfirst, hsecond, hone, htwo⟩

end Builder

end Exemplar
