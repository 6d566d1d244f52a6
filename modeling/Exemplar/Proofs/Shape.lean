import Exemplar.Proofs.OrderedMap
import Exemplar.Shape

/-!
# Shapes after many joins

A shape answers three questions: which fields it has and in which order (`keys`),
under which key the values of a field are stored (`child?`), and whether every
value carried the field (`requires`).  Together the answers are the whole shape.
For each question this file says what a join answers and what a shape answers
onto which many others were joined, one after the other:

* the fields of all of them, in the order of their first appearance;
* the key that the first shape with the field has for it;
* required exactly where all of them require it.
-/

namespace Exemplar.Shape

/-- The key under which the values of a field are stored. -/
def child? (shape : Shape) (field : Text) : Option Keypath :=
  (shape.get? field).map FieldRef.key

/-- A field is where it leads and whether it is required. -/
theorem get?_eq_child? (shape : Shape) (field : Text) :
    shape.get? field =
      (shape.child? field).map fun key => { key, required := shape.requires field } := by
  unfold child? requires
  cases shape.get? field <;> rfl

/-- Only a field that a shape has can be required there. -/
theorem mem_keys_of_requires {shape : Shape} {field : Text}
    (hrequired : shape.requires field = true) : field ∈ shape.keys := by
  cases hfound : shape.get? field with
  | none => simp [requires, hfound] at hrequired
  | some ref => exact (shape.mem_keys_iff field).mpr ⟨ref, hfound⟩

/-! ## One join -/

/-- A join has the fields of both shapes in the order of their first appearance. -/
theorem keys_join_eq_eraseDups (old seen : Shape) :
    (old.join seen).keys = (old.keys ++ seen.keys).eraseDups := by
  have hadded : old.added seen = seen.keys.removeAll old.keys := by
    refine List.filter_congr fun field _ => ?_
    have hiff := old.contains_iff field
    by_cases hmem : field ∈ old.keys
    · simp [hmem, hiff.mpr hmem]
    · have hnot : old.contains field = false := by
        simpa [hmem] using hiff
      simp [hmem, hnot]
  have hnodup : (seen.keys.removeAll old.keys).Nodup := by
    exact seen.nodup.filter _
  rw [keys_join, hadded, List.eraseDups_append, eraseDups_of_nodup old.nodup,
    eraseDups_of_nodup hnodup]

/-- In a join the old shape decides where a field leads, if it has the field. -/
theorem child?_join (old seen : Shape) (field : Text) :
    (old.join seen).child? field = (old.child? field).or (seen.child? field) := by
  unfold child?
  rw [get?_join]
  cases old.get? field <;> cases seen.get? field <;> rfl

/-- A join requires what both shapes require. -/
theorem requires_join (old seen : Shape) (field : Text) :
    (old.join seen).requires field = (old.requires field && seen.requires field) := by
  simp only [requires, get?_join]
  cases old.get? field <;> cases seen.get? field <;> simp

/-! ## Many joins -/

/-- Many shapes joined have their fields in the order of their first appearance. -/
theorem keys_foldl_join (old : Shape) (later : List Shape) :
    (later.foldl join old).keys = (old.keys ++ later.flatMap OrderedMap.keys).eraseDups :=
  foldl_eraseDups OrderedMap.keys OrderedMap.keys (fun shape => shape.nodup)
    keys_join_eq_eraseDups later old

/-- Of many shapes joined the first that has a field decides where it leads. -/
theorem child?_foldl_join (old : Shape) (later : List Shape) (field : Text) :
    (later.foldl join old).child? field =
      (old.child? field).or (later.findSome? fun shape => shape.child? field) := by
  induction later generalizing old with
  | nil => simp
  | cons seen rest ih =>
      rw [List.foldl_cons, ih, child?_join, Option.or_assoc, List.findSome?_cons]
      cases seen.child? field <;> rfl

/-- Many shapes joined require what all of them require. -/
theorem requires_foldl_join (old : Shape) (later : List Shape) (field : Text) :
    (later.foldl join old).requires field =
      (old.requires field && later.all fun shape => shape.requires field) := by
  induction later generalizing old with
  | nil => simp
  | cons seen rest ih => rw [List.foldl_cons, ih, requires_join, List.all_cons, Bool.and_assoc]

end Exemplar.Shape
