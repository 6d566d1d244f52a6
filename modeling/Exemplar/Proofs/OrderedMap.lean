import Exemplar.OrderedMap

/-!
# Maps after many writes

A single write either keeps the keys or appends one.  This file says what many
writes in a row come to.

* The keys stand in the order of their first appearance, that is, they are the
  written keys with all later repetitions erased (`List.eraseDups`).  The fact is
  stated once for anything that grows by appending what is new
  (`foldl_eraseDups`), because shapes grow that way as well.
* A lookup finds the last value written (`get?_ofList`).
* `sameBy_of_get?` compares two maps by their lookups.
-/

namespace Exemplar

section FirstAppearance

variable {α : Type} [BEq α] [LawfulBEq α]

/-- Nothing is erased where nothing stands twice. -/
theorem eraseDups_of_nodup {xs : List α} (hnodup : xs.Nodup) : xs.eraseDups = xs := by
  induction xs with
  | nil => rfl
  | cons x rest ih =>
      obtain ⟨hfresh, htail⟩ := List.nodup_cons.mp hnodup
      have hkept : rest.filter (fun y => !y == x) = rest := by
        refine List.filter_eq_self.mpr fun y hy => ?_
        have hne : y ≠ x := fun heq => hfresh (heq ▸ hy)
        simp [hne]
      rw [List.eraseDups_cons, hkept, ih htail]

omit [LawfulBEq α] in
/-- To prove something of all lists, prove it of a value in front of others from these without
the repetitions of that value. -/
@[elab_as_elim]
theorem firstAppearance_ind {P : List α → Prop} (nil : P [])
    (cons : ∀ x rest, P (rest.filter fun y => !y == x) → P (x :: rest)) (xs : List α) : P xs := by
  generalize hlen : xs.length = n
  induction n using Nat.strongRecOn generalizing xs with
  | ind n ih =>
      cases xs with
      | nil => exact nil
      | cons x rest =>
          have hle := List.length_filter_le (fun y => !y == x) rest
          rw [List.length_cons] at hlen
          exact cons x rest (ih _ (by omega) _ rfl)

/-- First appearances appear once. -/
theorem nodup_eraseDups (xs : List α) : xs.eraseDups.Nodup := by
  induction xs using firstAppearance_ind with
  | nil => simp
  | cons x rest ih =>
      rw [List.eraseDups_cons, List.nodup_cons]
      exact ⟨by simp, ih⟩

/-- What is appended is judged by what stands in front, whatever its repetitions. -/
theorem eraseDups_append_left {xs ys : List α} (hsame : xs.eraseDups = ys.eraseDups)
    (zs : List α) : (xs ++ zs).eraseDups = (ys ++ zs).eraseDups := by
  have hmem : ∀ z, z ∈ xs ↔ z ∈ ys := by
    intro z
    rw [← List.mem_eraseDups, hsame, List.mem_eraseDups]
  have hrest : zs.removeAll xs = zs.removeAll ys := by
    refine List.filter_congr fun z _ => ?_
    simp [hmem z]
  rw [List.eraseDups_append, List.eraseDups_append, hsame, hrest]

/-- Repetitions among what stands in front do not count. -/
theorem eraseDups_eraseDups_append (xs ys : List α) :
    (xs.eraseDups ++ ys).eraseDups = (xs ++ ys).eraseDups :=
  eraseDups_append_left (eraseDups_of_nodup (nodup_eraseDups xs)) ys

/-- To leave out the same values from a list and from its first appearances is the same. -/
theorem filter_eraseDups (keep : α → Bool) (xs : List α) :
    (xs.filter keep).eraseDups = xs.eraseDups.filter keep := by
  induction xs using firstAppearance_ind with
  | nil => rfl
  | cons x rest ih =>
      have hswap : (rest.filter fun y => !y == x).filter keep =
          (rest.filter keep).filter fun y => !y == x := by
        simp only [List.filter_filter, Bool.and_comm]
      by_cases hkeep : keep x = true
      · rw [List.filter_cons_of_pos hkeep, List.eraseDups_cons, List.eraseDups_cons,
          List.filter_cons_of_pos hkeep, ← ih, hswap]
      · have hgone : (rest.filter keep).filter (fun y => !y == x) = rest.filter keep := by
          refine List.filter_eq_self.mpr fun y hy => ?_
          have hne : y ≠ x := fun heq => hkeep (heq ▸ (List.mem_filter.mp hy).2)
          simp [hne]
        rw [List.filter_cons_of_neg hkeep, List.eraseDups_cons,
          List.filter_cons_of_neg hkeep, ← ih, hswap, hgone]

/-- Repetitions among what is appended do not count. -/
theorem eraseDups_append_eraseDups (xs ys : List α) :
    (xs ++ ys.eraseDups).eraseDups = (xs ++ ys).eraseDups := by
  have hrest : (ys.eraseDups.removeAll xs).eraseDups = (ys.removeAll xs).eraseDups := by
    simp only [List.removeAll, filter_eraseDups, eraseDups_of_nodup (nodup_eraseDups ys)]
  rw [List.eraseDups_append, List.eraseDups_append, hrest]

/-- **Order of first appearance.**  Whatever appends the new names of each item, and keeps
those it has, ends with the names of all items in the order of their first appearance. -/
theorem foldl_eraseDups {σ ε : Type} (view : σ → List α) (names : ε → List α)
    {step : σ → ε → σ} (hnodup : ∀ state, (view state).Nodup)
    (hstep : ∀ state item, view (step state item) = (view state ++ names item).eraseDups)
    (items : List ε) (state : σ) :
    view (items.foldl step state) = (view state ++ items.flatMap names).eraseDups := by
  induction items generalizing state with
  | nil => simp [eraseDups_of_nodup (hnodup state)]
  | cons item rest ih =>
      calc view ((item :: rest).foldl step state)
          = (view (step state item) ++ rest.flatMap names).eraseDups := ih (step state item)
        _ = ((view state ++ names item).eraseDups ++ rest.flatMap names).eraseDups := by
            rw [hstep]
        _ = (view state ++ (item :: rest).flatMap names).eraseDups := by
            rw [eraseDups_eraseDups_append, List.append_assoc, List.flatMap_cons]

end FirstAppearance

namespace OrderedMap

variable {κ ν : Type} [DecidableEq κ]

omit [DecidableEq κ] in
/-- No key of a map stands twice. -/
theorem nodup (map : OrderedMap κ ν) : map.keys.Nodup :=
  map.nodup_keys

/-- A write appends its key unless the key is there. -/
theorem keys_insert_eq_eraseDups [BEq κ] [LawfulBEq κ] (map : OrderedMap κ ν) (key : κ)
    (value : ν) :
    (map.insert key value).keys = (map.keys ++ [key]).eraseDups := by
  rw [keys_insert, List.eraseDups_append, eraseDups_of_nodup map.nodup]
  by_cases hmem : key ∈ map.keys
  · simp [hmem, List.removeAll]
  · simp [hmem, List.removeAll, List.eraseDups_cons]

/-- The keys of many writes stand in the order of their first appearance. -/
theorem keys_ofList [BEq κ] [LawfulBEq κ] (entries : List (κ × ν)) :
    (ofList entries).keys = (entries.map Prod.fst).eraseDups := by
  have hkeys := foldl_eraseDups (fun map : OrderedMap κ ν => map.keys)
    (fun entry : κ × ν => [entry.1]) (fun map => map.nodup)
    (fun map entry => map.keys_insert_eq_eraseDups entry.1 entry.2) entries empty
  simpa [ofList, ← List.map_eq_flatMap] using hkeys

/-- A write to a new key appends its entry. -/
theorem entries_insert_of_not_mem {map : OrderedMap κ ν} {key : κ} (hnew : key ∉ map.keys)
    (value : ν) : (map.insert key value).entries = map.entries ++ [(key, value)] := by
  have hput : ∀ entries : List (κ × ν), key ∉ entries.map Prod.fst →
      put key value entries = entries ++ [(key, value)] := by
    intro entries hother
    induction entries with
    | nil => rfl
    | cons entry rest ih =>
        obtain ⟨hhere, hrest⟩ := not_or.mp (mt List.mem_cons.mpr hother)
        rw [put, if_neg fun heq => hhere heq.symm, ih hrest, List.cons_append]
  exact hput map.entries hnew

/-- A write to a new key appends its value. -/
theorem values_insert_of_not_mem {map : OrderedMap κ ν} {key : κ} (hnew : key ∉ map.keys)
    (value : ν) : (map.insert key value).values = map.values ++ [value] := by
  rw [values, entries_insert_of_not_mem hnew, List.map_append]
  rfl

/-- The keys of before stand first after a write. -/
theorem keys_prefix_keys_insert (map : OrderedMap κ ν) (key : κ) (value : ν) :
    map.keys <+: (map.insert key value).keys := by
  rw [keys_insert]
  split
  · exact List.prefix_rfl
  · exact List.prefix_append map.keys [key]

/-- To write what is there changes nothing. -/
theorem insert_eq_self {map : OrderedMap κ ν} {key : κ} {value : ν}
    (hfound : map.get? key = some value) : map.insert key value = map := by
  have hmem : key ∈ map.keys := (map.contains_iff key).mp (by simp [contains, hfound])
  refine ext_get? (by rw [keys_insert, if_pos hmem]) fun other => ?_
  rw [get?_insert]
  by_cases hsame : key = other
  · rw [if_pos hsame, ← hsame, hfound]
  · rw [if_neg hsame]

/-- Values can be changed before or after a write. -/
theorem mapValues_insert {μ : Type} (map : OrderedMap κ ν) (key : κ) (value : ν) (change : ν → μ) :
    (map.insert key value).mapValues (fun _ => change) =
      (map.mapValues fun _ => change).insert key (change value) := by
  refine ext_get? ?_ fun other => ?_
  · simp only [keys_mapValues, keys_insert]
  · simp only [get?_mapValues, get?_insert]
    split <;> rfl

/-- A lookup goes on to the second list if it finds nothing in the first. -/
theorem valueAt_append (key : κ) (xs ys : List (κ × ν)) :
    valueAt key (xs ++ ys) = (valueAt key xs).or (valueAt key ys) := by
  induction xs with
  | nil => rfl
  | cons entry rest ih =>
      by_cases hsame : entry.1 = key
      · simp [valueAt, hsame]
      · simp [valueAt, hsame, ih]

/-- What a lookup finds stands in the list. -/
theorem mem_of_valueAt {entries : List (κ × ν)} {key : κ} {value : ν}
    (hfound : valueAt key entries = some value) : (key, value) ∈ entries := by
  induction entries with
  | nil => cases hfound
  | cons entry rest ih =>
      by_cases hsame : entry.1 = key
      · rw [valueAt, if_pos hsame, Option.some.injEq] at hfound
        subst hsame hfound
        exact List.mem_cons_self
      · rw [valueAt, if_neg hsame] at hfound
        exact List.mem_cons_of_mem entry (ih hfound)

/-- After many writes a lookup finds the last one to its key, or what was there. -/
private theorem get?_foldl_insert (entries : List (κ × ν)) (map : OrderedMap κ ν) (key : κ) :
    (entries.foldl (fun map entry => map.insert entry.1 entry.2) map).get? key =
      (valueAt key entries.reverse).or (map.get? key) := by
  induction entries generalizing map with
  | nil => rfl
  | cons entry rest ih =>
      have hwrite : (map.insert entry.1 entry.2).get? key =
          (valueAt key [entry]).or (map.get? key) := by
        rw [get?_insert]
        by_cases hsame : entry.1 = key <;> simp [valueAt, hsame]
      rw [List.foldl_cons, ih, hwrite, List.reverse_cons, valueAt_append, Option.or_assoc]

/-- Of several values written to one key the last one stays. -/
theorem get?_ofList (entries : List (κ × ν)) (key : κ) :
    (ofList entries).get? key = valueAt key entries.reverse := by
  simpa [ofList] using get?_foldl_insert entries empty key

/-- The keys of a map are those at which it has a value. -/
theorem mem_keys_iff (map : OrderedMap κ ν) (key : κ) :
    key ∈ map.keys ↔ ∃ value, map.get? key = some value := by
  rw [← contains_iff, contains, Option.isSome_iff_exists]

omit [DecidableEq κ] in
/-- Maps of the same keys are of the same size, in whatever order these stand. -/
private theorem size_eq_of_same_keys {left right : OrderedMap κ ν}
    (hkeys : ∀ key, key ∈ left.keys ↔ key ∈ right.keys) : left.size = right.size := by
  have hperm := (List.perm_ext_iff_of_nodup left.nodup right.nodup).mpr hkeys
  simpa [size, keys] using hperm.length_eq

/-- Maps are the same under a test when each key has values in both that pass, or in neither. -/
theorem sameBy_of_get? {same : ν → ν → Bool} {left right : OrderedMap κ ν}
    (hkeys : ∀ key, key ∈ left.keys ↔ key ∈ right.keys)
    (hvalues : ∀ key a b, left.get? key = some a → right.get? key = some b → same a b = true) :
    left.sameBy same right = true := by
  have hentries : ∀ entry ∈ left.entries, (right.get? entry.1).any (same entry.2) = true := by
    intro entry hentry
    have hleft : left.get? entry.1 = some entry.2 := (left.mem_entries_iff _ _).mp hentry
    have hmem : entry.1 ∈ right.keys := (hkeys _).mp ((left.mem_keys_iff _).mpr ⟨_, hleft⟩)
    obtain ⟨value, hright⟩ := (right.mem_keys_iff _).mp hmem
    rw [hright]
    exact hvalues entry.1 entry.2 value hleft hright
  rw [sameBy, Bool.and_eq_true, List.all_eq_true]
  exact ⟨by simpa using size_eq_of_same_keys hkeys, hentries⟩

end OrderedMap

end Exemplar
