import Exemplar.Proofs.Run

/-!
# A model is the sum of its sightings

Merging is incremental: the first sighting at a place is stored as it stands,
every later one relaxes and extends what is there, parts are merged in between,
and one key can collect sightings from many positions and batches.  The outcome
is nevertheless a function of the list of sightings alone, and a simple one.
`model_eq_closed_form` states it: which kinds and fields there are and in which
order, which fields are required, and where they lead.

The three questions that a shape answers (`keys`, `child?`, `requires`) are
settled one by one for a stack of sightings in `keys_of_stack`,
`child?_of_stack` and `requires_of_stack`.
-/

namespace Exemplar

/-! ## Stacks of sightings -/

/-- The fields of a stack are those of its sightings in the order of their first appearance. -/
theorem keys_of_stack {seen : List Sighting} {shape : Shape}
    (hstack : stack none seen = some shape) :
    shape.keys = (seen.flatMap Sighting.names).eraseDups := by
  cases seen with
  | nil => cases hstack
  | cons s rest =>
      rw [stack_none_cons, List.foldl_map, Option.some.injEq] at hstack
      have hstep : ∀ (shape : Shape) (s : Sighting),
          (shape.join s.shape).keys = (shape.keys ++ s.names).eraseDups := by
        intro shape s
        rw [Shape.keys_join_eq_eraseDups, s.keys_shape, eraseDups_append_eraseDups]
      have hfold := foldl_eraseDups OrderedMap.keys Sighting.names (fun shape => shape.nodup)
        hstep rest s.shape
      rw [← hstack, hfold, s.keys_shape, eraseDups_eraseDups_append, List.flatMap_cons]

/-- A field of a stack leads where the first sighting with that field led. -/
theorem child?_of_stack {seen : List Sighting} {shape : Shape}
    (hstack : stack none seen = some shape) (field : Text) :
    shape.child? field = seen.findSome? fun s => s.child? field := by
  cases seen with
  | nil => cases hstack
  | cons s rest =>
      rw [stack_none_cons, Option.some.injEq] at hstack
      rw [← hstack, Shape.child?_foldl_join, s.child?_shape, List.findSome?_map,
        List.findSome?_cons]
      simp only [Function.comp_def, Sighting.child?_shape]
      cases s.child? field <;> rfl

/-- A field of a stack is required when all its sightings carry it. -/
theorem requires_of_stack {seen : List Sighting} {shape : Shape}
    (hstack : stack none seen = some shape) (field : Text) :
    shape.requires field = seen.all fun s => s.carries field := by
  cases seen with
  | nil => cases hstack
  | cons s rest =>
      rw [stack_none_cons, Option.some.injEq] at hstack
      rw [← hstack, Shape.requires_foldl_join, s.requires_shape, List.all_map, List.all_cons]
      simp only [Function.comp_def, Sighting.requires_shape]

/-! ## Models of runs -/

/-- **The closed form.**  After batches that all succeeded on a new builder, with whatever
names and strictness, a place holds a shape exactly when something was seen there; the kinds
of a key and the fields of a shape stand in the order in which they were first seen; a field is
required exactly when every sighting of the place carries it; and it leads where the first
sighting that has it led. -/
theorem model_eq_closed_form {calls : List (Delivery × Name)} {builder : Builder}
    (hrun : Builder.Run {} calls builder) (key : Keypath) :
    (builder.model.kinds key).keys =
        (((sightings (history calls)).filter fun s => s.key = key).map
          Sighting.kind).eraseDups ∧
      ∀ kind,
        ((builder.model.shape? key kind).isSome = true ↔
          ∃ s ∈ sightings (history calls), s.key = key ∧ s.kind = kind) ∧
        ∀ shape, builder.model.shape? key kind = some shape →
          shape.keys =
            ((sightingsAt key kind (history calls)).flatMap Sighting.names).eraseDups ∧
          ∀ field ref, shape.get? field = some ref →
            (ref.required = true ↔
              ∀ s ∈ sightingsAt key kind (history calls), s.carries field = true) ∧
            (sightingsAt key kind (history calls)).findSome? (fun s => s.child? field) =
              some ref.key := by
  have hlearnt := hrun.learnt
  refine ⟨hlearnt.kinds key, fun kind => ⟨?_, fun shape hshape => ?_⟩⟩
  · rw [hlearnt.shapes, Option.isSome_iff_ne_none, ne_eq, stack_none_eq_none_iff, ← ne_eq,
      List.ne_nil_iff_exists_cons]
    constructor
    · intro hseen
      obtain ⟨s, rest, hseen⟩ := hseen
      have hmem : s ∈ sightingsAt key kind (history calls) := by simp [hseen]
      obtain ⟨hevent, hhere⟩ := (mem_sightingsAt_iff key kind _ s).mp hmem
      exact ⟨s, (mem_sightings_iff _ s).mpr hevent, hhere⟩
    · intro hseen
      obtain ⟨s, hmem, hhere⟩ := hseen
      have hseen : s ∈ sightingsAt key kind (history calls) :=
        (mem_sightingsAt_iff key kind _ s).mpr ⟨(mem_sightings_iff _ s).mp hmem, hhere⟩
      exact List.exists_cons_of_ne_nil (List.ne_nil_of_mem hseen)
  · have hstack : stack none (sightingsAt key kind (history calls)) = some shape :=
      (hlearnt.shapes key kind).symm.trans hshape
    refine ⟨keys_of_stack hstack, fun field ref hfound => ⟨?_, ?_⟩⟩
    · have hrequires := requires_of_stack hstack field
      rw [Shape.requires, hfound] at hrequires
      simp only [Option.any_some] at hrequires
      rw [hrequires, List.all_eq_true]
    · rw [← child?_of_stack hstack field, Shape.child?, hfound]
      rfl

/-- A list whose tail has the type of the whole list, then an empty array under the same name.
The inner object is completed first and has no value for `id`. -/
def linkedList : List (Delivery × Name) :=
  [({ naming := { given := .ofList [("Root.next", "Root")], generator := none }
      examples := { samples := [.object [("next", .object [("id", .scalar .undefined)]),
        ("id", .scalar .number)]] } }, "Root"),
   ({ naming := {}, strict := true, examples := { samples := [.array []] } }, "Root")]

/-- The list and its tail have one type of two kinds.  Its number is optional, as the tail has none,
and keeps the key of its first sighting. -/
theorem closed_form_linkedList :
    ∃ builder, Builder.Run {} linkedList builder ∧
      (builder.model.kinds "Root").keys = [.object, .array] ∧
      ∃ shape, builder.model.shape? "Root" .object = some shape ∧
        shape.keys = ["id".toList, "next".toList] ∧
        ∀ ref, shape.get? "id" = some ref → ref.required = false ∧ ref.key = "Root.id".toList := by
  have hrun : ∃ builder, Builder.Run {} linkedList builder :=
    ⟨_, .cons rfl (.cons rfl (.nil _))⟩
  obtain ⟨builder, hrun⟩ := hrun
  obtain ⟨hkinds, hplaces⟩ := model_eq_closed_form hrun "Root"
  obtain ⟨hseen, hshape⟩ := hplaces .object
  have hsome : (builder.model.shape? "Root" .object).isSome = true := by
    refine hseen.mpr ⟨⟨"Root", .object, [("id", ⟨"Root.id", false⟩)]⟩, ?_⟩
    decide +kernel
  obtain ⟨shape, hfound⟩ := Option.isSome_iff_exists.mp hsome
  obtain ⟨hkeys, hfields⟩ := hshape shape hfound
  refine ⟨builder, hrun, hkinds.trans (by decide +kernel), shape, hfound,
    hkeys.trans (by decide +kernel), fun ref href => ?_⟩
  obtain ⟨hrequired, hchild⟩ := hfields "id" ref href
  have hmissed : ¬ ∀ s ∈ sightingsAt "Root" .object (history linkedList),
      s.carries "id" = true := by
    decide +kernel
  have hfirst : (sightingsAt "Root" .object (history linkedList)).findSome?
      (fun s => s.child? "id") = some "Root.id".toList := by
    decide +kernel
  refine ⟨?_, Option.some.inj (hchild.symm.trans hfirst)⟩
  cases hmark : ref.required with
  | false => rfl
  | true => exact absurd (hrequired.mp hmark) hmissed

end Exemplar
