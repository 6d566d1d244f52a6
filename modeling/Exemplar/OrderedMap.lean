/-!
# Maps that keep the order of insertion

An `OrderedMap` is a list of entries with pairwise distinct keys.  Writing to a
key that is present replaces its value where it stands; writing to a new key
appends.  Both facts are `keys_insert`, and `get?_insert` says what a lookup
sees afterwards.  `mem_entries_iff` ties the list of entries to the lookups.

`sameBy` compares two maps without regard to the order of their entries.
-/

namespace Exemplar

/-- Entries in the order in which their keys were first written. -/
structure OrderedMap (κ ν : Type) where
  /-- The keys with their values. -/
  entries : List (κ × ν)
  /-- No key stands twice. -/
  nodup_keys : (entries.map Prod.fst).Nodup
deriving DecidableEq, Repr

namespace OrderedMap

variable {κ ν : Type}

/-- The map without entries. -/
def empty : OrderedMap κ ν := ⟨[], .nil⟩

instance : Inhabited (OrderedMap κ ν) := ⟨empty⟩

/-- The keys in order. -/
def keys (map : OrderedMap κ ν) : List κ :=
  map.entries.map Prod.fst

/-- The values in the order of their keys. -/
def values (map : OrderedMap κ ν) : List ν :=
  map.entries.map Prod.snd

/-- The number of entries. -/
def size (map : OrderedMap κ ν) : Nat :=
  map.entries.length

/-- Whether there are no entries. -/
def isEmpty (map : OrderedMap κ ν) : Bool :=
  map.entries.isEmpty

/-- The map with each value replaced by a function of the entry. -/
def mapValues {μ : Type} (map : OrderedMap κ ν) (change : κ → ν → μ) : OrderedMap κ μ where
  entries := map.entries.map fun entry => (entry.1, change entry.1 entry.2)
  nodup_keys := by simpa [Function.comp_def] using map.nodup_keys

variable [DecidableEq κ]

/-- The value at the first entry with a given key. -/
def valueAt (key : κ) : List (κ × ν) → Option ν
  | [] => none
  | entry :: rest => if entry.1 = key then some entry.2 else valueAt key rest

/-- The value at a key. -/
def get? (map : OrderedMap κ ν) (key : κ) : Option ν :=
  valueAt key map.entries

/-- Whether a key is present. -/
def contains (map : OrderedMap κ ν) (key : κ) : Bool :=
  (map.get? key).isSome

/-- Write to a key of a list of entries. -/
def put (key : κ) (value : ν) : List (κ × ν) → List (κ × ν)
  | [] => [(key, value)]
  | entry :: rest =>
      if entry.1 = key then (key, value) :: rest else entry :: put key value rest

/-- A write keeps the keys of a list of entries, but for a new one at the end. -/
theorem map_fst_put (key : κ) (value : ν) (entries : List (κ × ν)) :
    (put key value entries).map Prod.fst =
      if key ∈ entries.map Prod.fst then entries.map Prod.fst
      else entries.map Prod.fst ++ [key] := by
  induction entries with
  | nil => simp [put]
  | cons entry rest ih =>
      by_cases hsame : entry.1 = key
      · simp [put, hsame]
      · have hother : ¬ key = entry.1 := fun heq => hsame heq.symm
        by_cases hfound : key ∈ rest.map Prod.fst
        · rw [if_pos hfound] at ih
          simp only [put, hsame, if_false, List.map_cons, ih]
          rw [if_pos (List.mem_cons_of_mem _ hfound)]
        · rw [if_neg hfound] at ih
          simp only [put, hsame, if_false, List.map_cons, ih]
          rw [if_neg (by simpa [hother] using hfound)]
          rfl

/-- A write makes no key stand twice. -/
theorem nodup_put {key : κ} {value : ν} {entries : List (κ × ν)}
    (hnodup : (entries.map Prod.fst).Nodup) : ((put key value entries).map Prod.fst).Nodup := by
  rw [map_fst_put]
  split
  · exact hnodup
  · rename_i habsent
    exact List.nodup_append.mpr
      ⟨hnodup, by simp, fun a ha b hb => by
        simp only [List.mem_singleton] at hb
        rintro rfl
        exact habsent (hb ▸ ha)⟩

/-- Write a value to a key. -/
def insert (map : OrderedMap κ ν) (key : κ) (value : ν) : OrderedMap κ ν where
  entries := put key value map.entries
  nodup_keys := nodup_put map.nodup_keys

/-- The map that results from writing entries one after the other. -/
def ofList (entries : List (κ × ν)) : OrderedMap κ ν :=
  entries.foldl (fun map entry => map.insert entry.1 entry.2) empty

/-- Whether two maps have the same keys with values that a test accepts, in any order. -/
def sameBy (same : ν → ν → Bool) (left right : OrderedMap κ ν) : Bool :=
  left.size == right.size && left.entries.all fun entry =>
    (right.get? entry.1).any (same entry.2)

/-! ## What an operation does to lookups and keys -/

/-- Nothing is found in the empty map. -/
@[simp] theorem get?_empty (key : κ) : (empty : OrderedMap κ ν).get? key = none := rfl

omit [DecidableEq κ] in
/-- The empty map has no keys. -/
@[simp] theorem keys_empty : (empty : OrderedMap κ ν).keys = [] := rfl

/-- A lookup in a list of entries sees what was written to its key and nothing else. -/
theorem valueAt_put (key other : κ) (value : ν) (entries : List (κ × ν)) :
    valueAt other (put key value entries) = if key = other then some value
      else valueAt other entries := by
  induction entries with
  | nil => simp [put, valueAt]
  | cons entry rest ih =>
      by_cases hhere : entry.1 = key
      · subst hhere
        by_cases hsame : entry.1 = other <;> simp [put, valueAt, hsame]
      · by_cases hfound : entry.1 = other
        · subst hfound
          have : ¬ key = entry.1 := fun heq => hhere heq.symm
          simp [put, valueAt, hhere, this]
        · simp [put, valueAt, hhere, hfound, ih]

/-- A lookup after a write sees the written value at its key and nothing new elsewhere. -/
theorem get?_insert (map : OrderedMap κ ν) (key other : κ) (value : ν) :
    (map.insert key value).get? other = if key = other then some value else map.get? other :=
  valueAt_put key other value map.entries

/-- **Order of insertion.**  A write to a present key keeps the keys; any other appends its key. -/
theorem keys_insert (map : OrderedMap κ ν) (key : κ) (value : ν) :
    (map.insert key value).keys = if key ∈ map.keys then map.keys else map.keys ++ [key] :=
  map_fst_put key value map.entries

/-- A lookup finds exactly the keys of the entries. -/
theorem valueAt_isSome_iff (entries : List (κ × ν)) (key : κ) :
    (valueAt key entries).isSome = true ↔ key ∈ entries.map Prod.fst := by
  induction entries with
  | nil => simp [valueAt]
  | cons entry rest ih =>
      by_cases hsame : entry.1 = key
      · simp [valueAt, hsame]
      · have hother : ¬ key = entry.1 := fun heq => hsame heq.symm
        simp only [valueAt, hsame, if_false, ih, List.map_cons, List.mem_cons, hother, false_or]

/-- The keys that are present are the listed ones. -/
theorem contains_iff (map : OrderedMap κ ν) (key : κ) :
    map.contains key = true ↔ key ∈ map.keys :=
  valueAt_isSome_iff map.entries key

/-- Where no key stands twice, the entries are what lookups find. -/
theorem mem_iff_valueAt {entries : List (κ × ν)} (hnodup : (entries.map Prod.fst).Nodup)
    (key : κ) (value : ν) : (key, value) ∈ entries ↔ valueAt key entries = some value := by
  induction entries with
  | nil => simp [valueAt]
  | cons entry rest ih =>
      obtain ⟨hfresh, htail⟩ := List.nodup_cons.mp hnodup
      obtain ⟨k, v⟩ := entry
      by_cases hsame : k = key
      · subst hsame
        have habsent : (k, value) ∉ rest := fun hmem =>
          hfresh (List.mem_map.mpr ⟨_, hmem, rfl⟩)
        simp [valueAt, habsent, eq_comm]
      · have hother : ¬ key = k := fun heq => hsame heq.symm
        simp [valueAt, hsame, hother, ih htail]

/-- An entry stands in the list exactly when the lookup of its key gives its value. -/
theorem mem_entries_iff (map : OrderedMap κ ν) (key : κ) (value : ν) :
    (key, value) ∈ map.entries ↔ map.get? key = some value :=
  mem_iff_valueAt map.nodup_keys key value

omit [DecidableEq κ] in
/-- To change values keeps the keys. -/
@[simp] theorem keys_mapValues {μ : Type} (map : OrderedMap κ ν) (change : κ → ν → μ) :
    (map.mapValues change).keys = map.keys := by
  simp [keys, mapValues, Function.comp_def]

/-- A lookup among changed values finds the changed one. -/
theorem valueAt_map {μ : Type} (change : κ → ν → μ) (entries : List (κ × ν)) (key : κ) :
    valueAt key (entries.map fun entry => (entry.1, change entry.1 entry.2)) =
      (valueAt key entries).map (change key) := by
  induction entries with
  | nil => rfl
  | cons entry rest ih =>
      by_cases hsame : entry.1 = key
      · subst hsame
        simp [valueAt]
      · simp [valueAt, hsame, ih]

/-- A lookup in a map with changed values finds the changed one. -/
theorem get?_mapValues {μ : Type} (map : OrderedMap κ ν) (change : κ → ν → μ) (key : κ) :
    (map.mapValues change).get? key = (map.get? key).map (change key) :=
  valueAt_map change map.entries key

/-- Lists of entries with the same keys in the same order and the same lookups are equal. -/
private theorem entries_ext {left right : List (κ × ν)}
    (hnodup : (left.map Prod.fst).Nodup) (hkeys : left.map Prod.fst = right.map Prod.fst)
    (hvalues : ∀ key, valueAt key left = valueAt key right) : left = right := by
  induction left generalizing right with
  | nil => simpa using hkeys
  | cons entry rest ih =>
      cases right with
      | nil => simp at hkeys
      | cons entry' rest' =>
          simp only [List.map_cons, List.cons.injEq] at hkeys
          obtain ⟨hfresh, htail⟩ := List.nodup_cons.mp hnodup
          have hhere := hvalues entry.1
          simp only [valueAt, hkeys.1, if_true, Option.some.injEq] at hhere
          have hsame : entry = entry' := Prod.ext hkeys.1 hhere
          subst hsame
          refine congrArg (entry :: ·) (ih htail hkeys.2 fun key => ?_)
          by_cases hhead : entry.1 = key
          · subst hhead
            have habsent : ∀ {entries : List (κ × ν)}, entry.1 ∉ entries.map Prod.fst →
                valueAt entry.1 entries = none := by
              intro entries hmissing
              rw [← Option.not_isSome_iff_eq_none, valueAt_isSome_iff]
              exact hmissing
            rw [habsent hfresh, habsent (hkeys.2 ▸ hfresh)]
          · simpa [valueAt, hhead] using hvalues key

/-- Maps with the same keys in the same order and the same lookups are equal. -/
theorem ext_get? {left right : OrderedMap κ ν} (hkeys : left.keys = right.keys)
    (hvalues : ∀ key, left.get? key = right.get? key) : left = right := by
  have hentries := entries_ext left.nodup_keys hkeys hvalues
  cases left
  cases right
  cases hentries
  rfl

end OrderedMap

end Exemplar
