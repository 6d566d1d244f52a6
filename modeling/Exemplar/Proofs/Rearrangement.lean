import Exemplar.Proofs.Acceptance

/-!
# The order of samples does not matter

The first shape at a place is stored as it stands, the first key of a field stays,
and batches come one after the other; all of this looks as if the order in which
samples arrive shows in the model.  Under the standard naming of ASCII data it does
not, apart from the order of entries and the numbers of batches.

The walk of a sample is the same in every batch, so the events of a rearranged run
are the same events in another order.  `sameStore_of_perm` says that models which
have learnt from the same agreeing events in different orders hold the same shapes,
and `learn_rearranged` applies it to runs.
-/

namespace Exemplar

/-- A search finds the same in another order when all finds are the same. -/
theorem findSome?_eq_of_perm {α β : Type} {find : α → Option β} {xs ys : List α}
    (hperm : xs.Perm ys)
    (hagree : ∀ x ∈ xs, ∀ y ∈ xs, ∀ a b, find x = some a → find y = some b → a = b) :
    xs.findSome? find = ys.findSome? find := by
  cases hfirst : xs.findSome? find with
  | none =>
      symm
      rw [List.findSome?_eq_none_iff] at hfirst ⊢
      intro y hy
      exact hfirst y (hperm.mem_iff.mpr hy)
  | some a =>
      obtain ⟨x, hx, ha⟩ := List.exists_of_findSome?_eq_some hfirst
      cases hsecond : ys.findSome? find with
      | none =>
          have hnone := List.findSome?_eq_none_iff.mp hsecond x (hperm.mem_iff.mp hx)
          rw [ha] at hnone
          cases hnone
      | some b =>
          obtain ⟨y, hy, hb⟩ := List.exists_of_findSome?_eq_some hsecond
          rw [hagree x hx y (hperm.mem_iff.mpr hy) a b ha hb]

/-- Sightings that agree leave the same fields in any order. -/
theorem get?_of_stack_perm {seen other : List Sighting} (hperm : seen.Perm other)
    (hagree : ∀ s ∈ seen, ∀ t ∈ seen, ∀ field first second, s.child? field = some first →
      t.child? field = some second → first = second)
    {left right : Shape} (hleft : stack none seen = some left)
    (hright : stack none other = some right) (field : Text) :
    left.get? field = right.get? field := by
  have hchild : left.child? field = right.child? field := by
    rw [child?_of_stack hleft, child?_of_stack hright]
    refine findSome?_eq_of_perm hperm fun s hs t ht => ?_
    exact hagree s hs t ht field
  have hrequires : left.requires field = right.requires field := by
    rw [requires_of_stack hleft, requires_of_stack hright, Bool.eq_iff_iff, List.all_eq_true,
      List.all_eq_true]
    constructor
    · intro hall s hs
      exact hall s (hperm.mem_iff.mpr hs)
    · intro hall s hs
      exact hall s (hperm.mem_iff.mp hs)
  rw [Shape.get?_eq_child?, Shape.get?_eq_child?, hchild, hrequires]

/-- Whether two models hold the same shapes, whatever the order of the entries. -/
def Model.sameStore (left right : Model) : Bool :=
  left.shapes.sameBy (OrderedMap.sameBy (OrderedMap.sameBy fun a b => a == b)) right.shapes

/-- The same events in another order show the same sightings. -/
theorem mem_sightings_of_perm {events others : List Event} (hperm : events.Perm others)
    (s : Sighting) : s ∈ sightings events ↔ s ∈ sightings others := by
  rw [mem_sightings_iff, mem_sightings_iff, hperm.mem_iff]

/-- **Agreeing events in any order.**  They leave the same shapes in a model. -/
theorem sameStore_of_perm {left right : Model} {events others : List Event}
    (hperm : events.Perm others) (hagree : Agreeing events) (hleft : left.Learnt events)
    (hright : right.Learnt others) : left.sameStore right = true := by
  have hsightings := mem_sightings_of_perm hperm
  have hstacks : ∀ key kind,
      (sightingsAt key kind events).Perm (sightingsAt key kind others) := by
    intro key kind
    exact (hperm.filterMap Event.sighting?).filter _
  have hshape : ∀ key kind a b, left.shape? key kind = some a → right.shape? key kind = some b →
      a.sameBy (fun x y => x == y) b = true := by
    intro key kind a b ha hb
    rw [hleft.shapes] at ha
    rw [hright.shapes] at hb
    have hfields : ∀ field, a.get? field = b.get? field := by
      refine get?_of_stack_perm (hstacks key kind) ?_ ha hb
      intro s hs t ht
      obtain ⟨hsEvent, hsKey, hsKind⟩ := (mem_sightingsAt_iff _ _ _ _).mp hs
      obtain ⟨htEvent, htKey, htKind⟩ := (mem_sightingsAt_iff _ _ _ _).mp ht
      exact hagree s t hsEvent htEvent (hsKey.trans htKey.symm) (hsKind.trans htKind.symm)
    refine OrderedMap.sameBy_of_get? ?_ ?_
    · intro field
      rw [OrderedMap.mem_keys_iff, OrderedMap.mem_keys_iff, hfields]
    · intro field x y hx hy
      rw [hfields field, hy] at hx
      simpa using hx.symm
  have hkinds : ∀ key, (left.kinds key).sameBy (OrderedMap.sameBy fun a b => a == b)
      (right.kinds key) = true := by
    intro key
    refine OrderedMap.sameBy_of_get? ?_ (hshape key)
    intro kind
    rw [hleft.kinds, hright.kinds, List.mem_eraseDups, List.mem_eraseDups]
    simp [hsightings]
  refine OrderedMap.sameBy_of_get? ?_ ?_
  · intro key
    rw [hleft.keys, hright.keys]
    simp [hsightings]
  · intro key a b ha hb
    have hsame := hkinds key
    rw [Model.kinds, Model.kinds, ha, hb] at hsame
    exact hsame

/-! ## Runs -/

/-- What a caller hands in who adds samples batch by batch under the standard naming. -/
def standardCalls (root : Option Name) (batches : List (List Sample)) : List (Delivery × Name) :=
  batches.map fun samples =>
    ({ naming := .standard root, examples := { samples } }, rootName root)

/-- The builder after batches of samples under the standard naming, none of them strict. -/
def Builder.learn (builder : Builder) (root : Option Name) (batches : List (List Sample)) :
    Builder :=
  batches.foldl (fun builder samples =>
    (builder.addBatch (.standard root) false { samples }).2) builder

section

variable {root : Option Name} (hroot : Text.IsAsciiIdentifier (rootName root))
include hroot

/-- A batch of ASCII data under the standard naming succeeds. -/
theorem addBatch_standard (builder : Builder) {samples : List Sample}
    (hnames : ∀ sample ∈ samples, ∀ name ∈ sample.memberNames, name.IsAscii) :
    builder.addBatch (.standard root) false { samples } =
      (.ok (rootName root), builder.committed ((Naming.standard root).way samples).events
        (rootName root)) := by
  obtain ⟨hway, -⟩ := way_standard hroot hnames
  have houtcome := congrArg Walk.outcome hway
  exact Builder.addBatch_of_not_strict houtcome rfl

/-- To learn batches is to make calls that all succeed. -/
theorem run_learn (builder : Builder) {batches : List (List Sample)}
    (hnames : ∀ sample ∈ batches.flatten, ∀ name ∈ sample.memberNames, name.IsAscii) :
    Builder.Run builder (standardCalls root batches) (builder.learn root batches) := by
  induction batches generalizing builder with
  | nil => exact .nil builder
  | cons samples rest ih =>
      have hsamples : ∀ sample ∈ samples, ∀ name ∈ sample.memberNames, name.IsAscii :=
        fun sample hmem => hnames sample (List.mem_append_left _ hmem)
      have hhead := addBatch_standard hroot builder hsamples
      refine .cons hhead ?_
      have htail := ih (builder.committed ((Naming.standard root).way samples).events
        (rootName root)) fun sample hmem => hnames sample (List.mem_append_right _ hmem)
      rw [Builder.learn, List.foldl_cons, hhead]
      exact htail

/-- The root is the only one, as soon as there is a batch. -/
theorem roots_learn (builder : Builder) {batches : List (List Sample)}
    (hnames : ∀ sample ∈ batches.flatten, ∀ name ∈ sample.memberNames, name.IsAscii)
    (hroots : builder.model.roots = [] ∨ builder.model.roots = [rootName root]) :
    (builder.learn root batches).model.roots =
      if batches = [] then builder.model.roots else [rootName root] := by
  induction batches generalizing builder with
  | nil => rfl
  | cons samples rest ih =>
      have hsamples : ∀ sample ∈ samples, ∀ name ∈ sample.memberNames, name.IsAscii :=
        fun sample hmem => hnames sample (List.mem_append_left _ hmem)
      have hhead := addBatch_standard hroot builder hsamples
      have hnext : (builder.committed ((Naming.standard root).way samples).events
          (rootName root)).model.roots = [rootName root] := by
        simp only [Builder.committed, Model.addRoot, roots_absorb]
        rcases hroots with hnone | hone
        · simp [hnone]
        · simp [hone]
      have htail := ih _ (fun sample hmem => hnames sample (List.mem_append_right _ hmem))
        (Or.inr hnext)
      rw [Builder.learn, List.foldl_cons, hhead]
      refine htail.trans ?_
      rw [hnext]
      simp

/-- The events of a run are those of its samples, in whatever batches they come. -/
theorem history_standardCalls {batches : List (List Sample)}
    (hnames : ∀ sample ∈ batches.flatten, ∀ name ∈ sample.memberNames, name.IsAscii) :
    history (standardCalls root batches) =
      batches.flatten.flatMap fun sample =>
        (walk (Naming.standard root) [] [] sample).events := by
  induction batches with
  | nil => rfl
  | cons samples rest ih =>
      have hsamples : ∀ sample ∈ samples, ∀ name ∈ sample.memberNames, name.IsAscii :=
        fun sample hmem => hnames sample (List.mem_append_left _ hmem)
      have hhead := (way_standard hroot hsamples).1
      have htail := ih fun sample hmem => hnames sample (List.mem_append_right _ hmem)
      rw [standardCalls, List.map_cons, history_cons, List.flatten_cons, List.flatMap_append,
        ← htail, Delivery.events, hhead]
      rfl

/-- **Rearranged samples.**  The same samples in another order and in other batches leave the
same shapes and the same named types, and the same roots unless only one of the two runs is
empty. -/
theorem learn_rearranged {first second : List (List Sample)}
    (hperm : first.flatten.Perm second.flatten)
    (hnames : ∀ sample ∈ first.flatten, ∀ name ∈ sample.memberNames, name.IsAscii) :
    Builder.Run {} (standardCalls root first) (Builder.learn {} root first) ∧
      Builder.Run {} (standardCalls root second) (Builder.learn {} root second) ∧
      (Builder.learn {} root first).model.sameStore (Builder.learn {} root second).model = true ∧
      (∀ name, (Builder.learn {} root first).model.isNamed name =
        (Builder.learn {} root second).model.isNamed name) ∧
      ((first = [] ↔ second = []) →
        (Builder.learn {} root first).model.roots =
          (Builder.learn {} root second).model.roots) := by
  have hothers : ∀ sample ∈ second.flatten, ∀ name ∈ sample.memberNames, name.IsAscii := by
    intro sample hmem
    exact hnames sample (hperm.mem_iff.mpr hmem)
  have hleft := run_learn hroot {} hnames
  have hright := run_learn hroot {} hothers
  have hevents : (history (standardCalls root first)).Perm
      (history (standardCalls root second)) := by
    rw [history_standardCalls hroot hnames, history_standardCalls hroot hothers]
    exact hperm.flatMap_right _
  have hagree : Agreeing (history (standardCalls root first)) := by
    refine agreeing_of_standard fun s hs => ?_
    obtain ⟨call, hcall, hevent⟩ := List.mem_flatMap.mp hs
    obtain ⟨samples, hsamples, rfl⟩ := List.mem_map.mp hcall
    refine (way_standard hroot fun sample hmem => ?_).2 s hevent
    exact hnames sample (List.mem_flatten.mpr ⟨samples, hsamples, hmem⟩)
  refine ⟨hleft, hright, sameStore_of_perm hevents hagree hleft.learnt hright.learnt, ?_, ?_⟩
  · intro name
    rw [Bool.eq_iff_iff, hleft.learnt.names, hright.learnt.names, hevents.mem_iff]
  · intro hempty
    rw [roots_learn hroot {} hnames (Or.inl rfl), roots_learn hroot {} hothers (Or.inl rfl)]
    simp [hempty]

end

/-- Three samples in two batches, and in another order in three batches, one of them empty. -/
theorem learn_rearranged_pair :
    let leaf : Sample := .object [("id", .scalar .number)]
    let tree : Sample := .object [("items", .array [leaf]), ("_", .scalar .undefined)]
    (Builder.learn {} none [[leaf, tree], [leaf]]).model.sameStore
        (Builder.learn {} none [[tree], [], [leaf, leaf]]).model = true ∧
      (Builder.learn {} none [[leaf, tree], [leaf]]).model.roots =
        (Builder.learn {} none [[tree], [], [leaf, leaf]]).model.roots := by
  intro leaf tree
  have hroot : Text.IsAsciiIdentifier (rootName none) := by decide
  have hnames : ∀ sample ∈ [[leaf, tree], [leaf]].flatten, ∀ name ∈ sample.memberNames,
      name.IsAscii := by
    decide
  have hperm : [[leaf, tree], [leaf]].flatten.Perm [[tree], [], [leaf, leaf]].flatten :=
    .swap tree leaf [leaf]
  obtain ⟨-, -, hstore, -, hroots⟩ := learn_rearranged hroot hperm hnames
  exact ⟨hstore, hroots (by simp)⟩

end Exemplar
