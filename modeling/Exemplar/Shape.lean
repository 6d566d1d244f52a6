import Exemplar.Naming

/-!
# Shapes

A shape says which fields were seen in values of one kind: for objects their
members, for arrays the single field `[]` that stands for the elements, for scalars
none.  Each field has the key under which its values are stored, and a mark that
says whether every value so far carried the field.

Two shapes of values that belong together are joined.  A field stays required only
when both shapes require it, and a field that only the new shape has is kept as an
optional one; where both have a field, the key of the old one stays.  `get?_join`
and `keys_join` say so, and `join_eq_self_iff` says that the join leaves the old
shape alone exactly when no field would become optional.
-/

namespace Exemplar

/-- A field of a shape. -/
structure FieldRef where
  /-- The key under which the values of the field are stored. -/
  key : Keypath
  /-- Whether every value of the shape carried the field. -/
  required : Bool := true
deriving DecidableEq, Repr, Inhabited

/-- The fields seen in values of one kind, in the order in which they were first seen. -/
abbrev Shape := OrderedMap Text FieldRef

namespace Shape

/-- The shape of arrays whose elements are stored under a key. -/
def ofElement (key : Keypath) : Shape :=
  OrderedMap.empty.insert elementMark { key }

/-- The field that stands for the elements of an array. -/
def element? (shape : Shape) : Option FieldRef :=
  shape.get? elementMark

/-- The field names with their marks, which is all that decides whether two shapes are alike. -/
def signature (shape : Shape) : List (Text × Bool) :=
  shape.entries.map fun entry => (entry.1, entry.2.required)

/-- Whether a shape has a field that every value carried. -/
def requires (shape : Shape) (field : Text) : Bool :=
  (shape.get? field).any FieldRef.required

/-- The required fields of a shape that another shape does not require. -/
def demoted (old seen : Shape) : List Text :=
  old.keys.filter fun field => old.requires field && !seen.requires field

/-- The fields that another shape adds to a shape. -/
def added (old seen : Shape) : List Text :=
  seen.keys.filter fun field => !old.contains field

/-- The fields that become optional when a shape is joined with another one. -/
def changes (old seen : Shape) : List Text :=
  old.demoted seen ++ old.added seen

/-- Append a field as an optional one unless the shape has it. -/
def extend (shape : Shape) (field : Text) (ref : FieldRef) : Shape :=
  if shape.contains field then shape else shape.insert field { ref with required := false }

/-- The shape with those fields optional that another shape does not require. -/
def relaxed (old seen : Shape) : Shape :=
  old.mapValues fun field ref => { ref with required := ref.required && seen.requires field }

/-- What is known of values of two shapes together. -/
def join (old seen : Shape) : Shape :=
  seen.entries.foldl (fun shape entry => shape.extend entry.1 entry.2) (old.relaxed seen)

/-! ## What a join holds -/

/-- A new field is added as optional, and a known one stays what it was. -/
private theorem get?_extend (shape : Shape) (field other : Text) (ref : FieldRef) :
    (shape.extend field ref).get? other =
      (shape.get? other).or
        (if field = other then some { ref with required := false } else none) := by
  unfold extend
  by_cases hknown : shape.contains field = true
  · rw [if_pos hknown]
    by_cases hsame : field = other
    · subst hsame
      obtain ⟨old, hfound⟩ := Option.isSome_iff_exists.mp hknown
      simp [hfound]
    · simp [hsame]
  · rw [if_neg hknown, OrderedMap.get?_insert]
    by_cases hsame : field = other
    · subst hsame
      have habsent : shape.get? field = none := by simpa [OrderedMap.contains] using hknown
      simp [habsent]
    · simp [hsame]

/-- A new field comes last. -/
private theorem keys_extend (shape : Shape) (field : Text) (ref : FieldRef) :
    (shape.extend field ref).keys =
      if shape.contains field then shape.keys else shape.keys ++ [field] := by
  unfold extend
  split
  · rfl
  · rename_i hknown
    rw [OrderedMap.keys_insert, if_neg (by rwa [← OrderedMap.contains_iff])]

/-- Of many fields the new ones are added as optional. -/
private theorem get?_foldl_extend (entries : List (Text × FieldRef)) (shape : Shape)
    (field : Text) :
    (entries.foldl (fun shape entry => shape.extend entry.1 entry.2) shape).get? field =
      (shape.get? field).or
        ((OrderedMap.valueAt field entries).map fun ref => { ref with required := false }) := by
  induction entries generalizing shape with
  | nil => simp [OrderedMap.valueAt]
  | cons entry rest ih =>
      rw [List.foldl_cons, ih, get?_extend]
      by_cases hsame : entry.1 = field
      · cases shape.get? field <;> simp [OrderedMap.valueAt, hsame]
      · simp [OrderedMap.valueAt, hsame]

/-- New fields come behind the known ones, in their own order. -/
private theorem keys_foldl_extend (entries : List (Text × FieldRef)) (shape : Shape)
    (hnodup : (entries.map Prod.fst).Nodup) :
    (entries.foldl (fun shape entry => shape.extend entry.1 entry.2) shape).keys =
      shape.keys ++ (entries.map Prod.fst).filter fun field => !shape.contains field := by
  induction entries generalizing shape with
  | nil => simp
  | cons entry rest ih =>
      obtain ⟨hfresh, htail⟩ := List.nodup_cons.mp hnodup
      rw [List.foldl_cons, ih _ htail, keys_extend]
      have hsame : (rest.map Prod.fst).filter
            (fun field => !(shape.extend entry.1 entry.2).contains field) =
          (rest.map Prod.fst).filter fun field => !shape.contains field := by
        refine List.filter_congr fun field hmem => ?_
        have hother : ¬ entry.1 = field := fun heq => hfresh (heq ▸ hmem)
        simp [OrderedMap.contains, get?_extend, hother]
      rw [hsame, List.map_cons, List.filter_cons]
      cases hknown : shape.contains entry.1 <;> simp

/-- The fields of a join: those of the old shape, required if both shapes require them, and
the others of the new shape, none of them required. -/
theorem get?_join (old seen : Shape) (field : Text) :
    (old.join seen).get? field =
      ((old.get? field).map fun ref =>
          { ref with required := ref.required && seen.requires field }).or
        ((seen.get? field).map fun ref => { ref with required := false }) := by
  rw [join, get?_foldl_extend, relaxed, OrderedMap.get?_mapValues]
  rfl

/-- **Order of a join.**  The fields of the old shape stand first, then those that are new. -/
theorem keys_join (old seen : Shape) : (old.join seen).keys = old.keys ++ old.added seen := by
  rw [join, keys_foldl_extend _ _ seen.nodup_keys, relaxed, OrderedMap.keys_mapValues]
  congr 1
  refine List.filter_congr fun field _ => ?_
  simp [OrderedMap.contains, OrderedMap.get?_mapValues]

/-- A join leaves the old shape alone exactly when no field would become optional. -/
theorem join_eq_self_iff (old seen : Shape) : old.join seen = old ↔ old.changes seen = [] := by
  constructor
  · intro hsame
    have hadded : old.added seen = [] := by
      have hkeys := keys_join old seen
      rw [hsame] at hkeys
      exact List.append_cancel_left (by rw [← hkeys, List.append_nil])
    have hdemoted : old.demoted seen = [] := by
      refine List.filter_eq_nil_iff.mpr fun field hmem => ?_
      have hlookup := get?_join old seen field
      obtain ⟨⟨key, mark⟩, hfound⟩ :=
        Option.isSome_iff_exists.mp ((OrderedMap.contains_iff old field).mpr hmem)
      rw [hsame, hfound] at hlookup
      have hmarks : mark = (mark && seen.requires field) := by simpa using hlookup
      have hmark : old.requires field = mark := by simp [requires, hfound]
      rw [hmark]
      revert hmarks
      cases mark <;> cases seen.requires field <;> simp
    rw [changes, hadded, hdemoted, List.append_nil]
  · intro hchanges
    obtain ⟨hdemoted, hadded⟩ := List.append_eq_nil_iff.mp hchanges
    apply OrderedMap.ext_get?
    · rw [keys_join, hadded, List.append_nil]
    · intro field
      rw [get?_join]
      cases hfound : old.get? field with
      | some ref =>
          obtain ⟨key, mark⟩ := ref
          have hmem : field ∈ old.keys := (OrderedMap.contains_iff old field).mp (by
            simp [OrderedMap.contains, hfound])
          have hkept := List.filter_eq_nil_iff.mp hdemoted field hmem
          have hmark : old.requires field = mark := by simp [requires, hfound]
          rw [hmark] at hkept
          revert hkept
          cases mark <;> cases seen.requires field <;> simp
      | none =>
          cases hnew : seen.get? field with
          | none => rfl
          | some ref =>
              have hmem : field ∈ seen.keys := (OrderedMap.contains_iff seen field).mp (by
                simp [OrderedMap.contains, hnew])
              have hknown := List.filter_eq_nil_iff.mp hadded field hmem
              simp [OrderedMap.contains, hfound] at hknown

end Shape

end Exemplar
