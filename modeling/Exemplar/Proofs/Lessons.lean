import Exemplar.Proofs.Attachment
import Exemplar.Proofs.FailedBatches

/-!
# What the successful batches teach

A batch that fails leaves the model as it was, so that everything a model knows was taught by
a batch that succeeded.  `known_or_taught` and `known_of_taught` carry this from one batch to all
of them; what is taught is then said of the samples that the batches store, without a word about
events: the keys of which something is known, the roots, and where fields lead.
-/

namespace Exemplar

/-- A batch stores a sample under a key, below whatever keys. -/
def Delivery.StoresUnder (delivery : Delivery) (key : Keypath) (sample : Sample) : Prop :=
  ∃ enclosing, delivery.naming.Stores delivery.examples.samples enclosing key sample

/-- The way of a batch comes to its end. -/
def Delivery.Ends (delivery : Delivery) : Prop :=
  ∃ root, (delivery.naming.way delivery.examples.samples).outcome = .ok root

/-- What is seen is stored, and the other way round. -/
theorem Delivery.Ends.stores_iff {delivery : Delivery} (hends : delivery.Ends) (key : Keypath)
    (kind : Kind) :
    (∃ s, Event.sighted s ∈ delivery.events ∧ s.key = key ∧ s.kind = kind) ↔
      ∃ sample, delivery.StoresUnder key sample ∧ sample.kind = kind := by
  obtain ⟨root, hway⟩ := hends
  constructor
  · rintro ⟨s, hs, rfl, rfl⟩
    obtain ⟨enclosing, sample, hstored, hshows⟩ := exists_stores_of_sighted hway hs
    exact ⟨sample, ⟨enclosing, hstored⟩, hshows.kind.symm⟩
  · rintro ⟨sample, ⟨enclosing, hstored⟩, rfl⟩
    obtain ⟨s, hs, hkey, hshows⟩ := hstored.seen hway
    exact ⟨s, hs, hkey, hshows.kind⟩

/-- Something is known of a key when something was, or when something is seen there. -/
theorem Model.has_absorb_iff (number : BatchNumber) (model : Model) (events : List Event)
    (key : Keypath) :
    (model.absorb number events).has key = true ↔
      model.has key = true ∨ ∃ s, Event.sighted s ∈ events ∧ s.key = key := by
  refine ⟨fun hknown => ?_, Model.has_absorb number⟩
  obtain ⟨kind, shape, hshape⟩ := (Model.has_iff _ key).mp hknown
  rw [shape?_absorb] at hshape
  cases hbefore : model.shape? key kind with
  | some old => exact .inl ((Model.has_iff model key).mpr ⟨kind, old, hbefore⟩)
  | none =>
      rw [hbefore] at hshape
      have hsome : sightingsAt key kind events ≠ [] := by
        intro hempty
        rw [hempty] at hshape
        cases hshape
      obtain ⟨s, hs⟩ := List.exists_mem_of_ne_nil _ hsome
      obtain ⟨hevent, hkey, -⟩ := (mem_sightingsAt_iff _ _ _ _).mp hs
      exact .inr ⟨s, hevent, hkey⟩

namespace Builder

/-- Batches are tried one after the other, and some of them are committed. -/
inductive Tries : Builder → List Delivery → List Delivery → Builder → Prop
  | nil (builder : Builder) : Tries builder [] [] builder
  | failed {builder after : Builder} {delivery : Delivery} {rest succeeded : List Delivery}
      (hlater : Tries { builder with batches := builder.batches + 1 } rest succeeded after) :
      Tries builder (delivery :: rest) succeeded after
  | committed {builder after : Builder} {delivery : Delivery} {rest succeeded : List Delivery}
      {root : Name} (hends : (delivery.naming.way delivery.examples.samples).outcome = .ok root)
      (hlater : Tries (builder.committed delivery.events root) rest succeeded after) :
      Tries builder (delivery :: rest) (delivery :: succeeded) after

/-- The batches that succeed lead, with failed ones in between, to the last builder. -/
theorem tries (builder : Builder) (deliveries : List Delivery) :
    Tries builder deliveries (builder.succeeding deliveries) (builder.afterAll deliveries) := by
  induction deliveries generalizing builder with
  | nil => exact .nil builder
  | cons delivery rest ih =>
      cases hadded : builder.addBatch delivery.naming delivery.strict delivery.examples with
      | mk answer next =>
          simp only [succeeding, afterAll, List.foldl_cons, hadded]
          cases answer with
          | error failure =>
              obtain rfl := addBatch_error hadded
              exact .failed (ih _)
          | ok root =>
              obtain ⟨houtcome, -, rfl⟩ := addBatch_ok hadded
              exact .committed houtcome (ih _)

namespace Tries

variable {builder after : Builder} {deliveries succeeded : List Delivery}
  (htries : Tries builder deliveries succeeded after)
include htries

/-- Every batch that succeeds was tried, and its way came to its end. -/
theorem mem_ends {delivery : Delivery} (hmem : delivery ∈ succeeded) :
    delivery ∈ deliveries ∧ delivery.Ends := by
  induction htries with
  | nil => cases hmem
  | failed _ ih => exact (ih hmem).imp_left (List.mem_cons_of_mem _)
  | committed hends _ ih =>
      rcases List.mem_cons.mp hmem with rfl | hlater
      · exact ⟨List.mem_cons_self, _, hends⟩
      · exact (ih hlater).imp_left (List.mem_cons_of_mem _)

variable {P : Model → Prop} {teaches : Delivery → Prop}

/-- What a model knows it knew before, or a successful batch taught it. -/
theorem known_or_taught
    (hstep : ∀ (builder : Builder) (delivery : Delivery) (root : Name),
      (delivery.naming.way delivery.examples.samples).outcome = .ok root →
        P (builder.committed delivery.events root).model → P builder.model ∨ teaches delivery)
    (hknown : P after.model) : P builder.model ∨ ∃ delivery ∈ succeeded, teaches delivery := by
  induction htries with
  | nil => exact .inl hknown
  | failed _ ih => exact ih hknown
  | @committed builder after delivery rest succeeded root hends _ ih =>
      rcases ih hknown with hhere | ⟨other, hmem, hother⟩
      · rcases hstep builder delivery root hends hhere with hbefore | htaught
        · exact .inl hbefore
        · exact .inr ⟨delivery, List.mem_cons_self, htaught⟩
      · exact .inr ⟨other, List.mem_cons_of_mem delivery hmem, hother⟩

/-- **Lessons.**  If every batch that is committed leaves what is known and adds what it teaches,
the model knows in the end what it knew and what the successful batches teach. -/
theorem known_iff
    (hstep : ∀ (builder : Builder) (delivery : Delivery) (root : Name),
      (delivery.naming.way delivery.examples.samples).outcome = .ok root →
        (P (builder.committed delivery.events root).model ↔ P builder.model ∨ teaches delivery)) :
    P after.model ↔ P builder.model ∨ ∃ delivery ∈ succeeded, teaches delivery := by
  refine ⟨htries.known_or_taught fun builder delivery root hends =>
    (hstep builder delivery root hends).mp, fun hgiven => ?_⟩
  induction htries with
  | nil => exact hgiven.resolve_right fun ⟨_, hmem, _⟩ => absurd hmem List.not_mem_nil
  | failed _ ih => exact ih hgiven
  | @committed builder after delivery rest succeeded root hends _ ih =>
      have hadds := (hstep builder delivery root hends).mpr
      rcases hgiven with hbefore | ⟨other, hmem, hother⟩
      · exact ih (.inl (hadds (.inl hbefore)))
      · rcases List.mem_cons.mp hmem with rfl | hmem
        · exact ih (.inl (hadds (.inr hother)))
        · exact ih (.inr ⟨other, hmem, hother⟩)

end Tries

/-! ## What can be asked of a model -/

section

variable {deliveries : List Delivery}

/-- A new builder knows what its successful batches teach. -/
theorem known_iff_taught {P : Model → Prop} (teaches : Delivery → Prop)
    (hnone : ¬ P ({} : Builder).model)
    (hstep : ∀ (builder : Builder) (delivery : Delivery) (root : Name),
      (delivery.naming.way delivery.examples.samples).outcome = .ok root →
        (P (builder.committed delivery.events root).model ↔ P builder.model ∨ teaches delivery)) :
    P (afterAll {} deliveries).model ↔
      ∃ delivery ∈ succeeding {} deliveries, teaches delivery :=
  ((tries {} deliveries).known_iff hstep).trans (or_iff_right hnone)

/-- A type is named when a successful batch registered it. -/
theorem isNamed_afterAll_iff (name : Name) :
    (afterAll {} deliveries).model.isNamed name = true ↔
      ∃ delivery ∈ succeeding {} deliveries, Event.registered name ∈ delivery.events :=
  known_iff_taught (P := fun model => model.isNamed name = true) _ Bool.false_ne_true
    fun builder delivery _ _ => isNamed_absorb_iff _ builder.model delivery.events name

/-- Something is known of a key when a successful batch stored something under it. -/
theorem has_afterAll_iff (key : Keypath) :
    (afterAll {} deliveries).model.has key = true ↔
      ∃ delivery ∈ succeeding {} deliveries, ∃ sample, delivery.StoresUnder key sample := by
  refine known_iff_taught (P := fun model => model.has key = true) _ Bool.false_ne_true
    fun builder delivery root hends => ?_
  refine (Model.has_absorb_iff _ builder.model delivery.events key).trans (or_congr_right ?_)
  have hstores := Delivery.Ends.stores_iff ⟨root, hends⟩ key
  constructor
  · rintro ⟨s, hs, hkey⟩
    obtain ⟨sample, hstored, -⟩ := (hstores s.kind).mp ⟨s, hs, hkey, rfl⟩
    exact ⟨sample, hstored⟩
  · rintro ⟨sample, hstored⟩
    obtain ⟨s, hs, hkey, -⟩ := (hstores sample.kind).mpr ⟨sample, hstored, rfl⟩
    exact ⟨s, hs, hkey⟩

/-- The roots are those of the successful batches. -/
theorem mem_roots_afterAll_iff (name : Name) :
    name ∈ (afterAll {} deliveries).model.roots ↔
      ∃ delivery ∈ succeeding {} deliveries, delivery.naming.keyAt [] [] = .ok name := by
  refine known_iff_taught (P := fun model => name ∈ model.roots) _ List.not_mem_nil
    fun builder delivery root hends => ?_
  obtain ⟨hroot, -, -⟩ := Naming.way_eq_iff.mp (Walk.eq_mk_iff.mp hends)
  have hroots : (builder.committed delivery.events root).model.roots =
      (builder.model.absorb (builder.batches + 1 : Nat) delivery.events).roots.erase root ++
        [root] := rfl
  rw [hroot, Except.ok.injEq, hroots, roots_absorb, List.mem_append, List.mem_singleton]
  by_cases hsame : name = root
  · simp [hsame]
  · rw [List.mem_erase_of_ne hsame, eq_comm]

/-- Fields lead where a successful batch stored what they are the fields of. -/
theorem places_of_child? {key child : Keypath} {kind : Kind} {field : Text}
    (hchild : (afterAll {} deliveries).model.child? key kind field = some child) :
    ∃ delivery ∈ succeeding {} deliveries, ∃ enclosing,
      delivery.naming.Places delivery.examples.samples enclosing key kind field child := by
  refine ((tries {} deliveries).known_or_taught
    (P := fun model => model.child? key kind field = some child)
    (fun builder delivery root hends hled => ?_) hchild).resolve_left (by rintro ⟨⟩)
  obtain ⟨shape, hshape, hfield⟩ := Option.bind_eq_some_iff.mp hled
  have hstack := (shape?_absorb (builder.batches + 1 : Nat) builder.model delivery.events key
    kind).symm.trans hshape
  rw [child?_stack hstack, Option.or_eq_some_iff] at hfield
  rcases hfield with hbefore | ⟨-, hseen⟩
  · exact .inl hbefore
  · obtain ⟨s, hs, hled⟩ := List.exists_of_findSome?_eq_some hseen
    obtain ⟨hevent, hkey, hkind⟩ := (mem_sightingsAt_iff _ _ _ _).mp hs
    exact .inr ((exists_places_iff hends).mpr ⟨s, hevent, hkey, hkind, hled⟩)

end

end Builder

end Exemplar
