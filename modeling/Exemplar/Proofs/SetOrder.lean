import Exemplar.Session
import Mathlib.Data.List.Forall2
import Mathlib.Data.List.Nodup

/-!
# The order in which sets are enumerated

Sets have no order of their own, and every enumeration of them is as good as any other
(`Value.Reordered`).  What inference sees of a set is sorted by the literals of its elements, so
the enumeration is forgotten as long as it is not written in the literals and no two elements have
the same one (`Value.Orderless`).

There is a place where an enumeration still shows.  A key of an object becomes the name of a member
as it is displayed, and a set inside a key is displayed as it is enumerated.  Where the keys display
alike, samples are the same (`Value.sample_eq_of_reordered`), and so is all that a session makes of
them (`Session.addExamples_reordered`).
-/

namespace Exemplar

/-! ## Sorting -/

namespace Text

/-- Texts are compared by their first characters, and by the rest where these agree. -/
theorem le_cons_iff {c d : Char} {left right : Text} :
    le (c :: left) (d :: right) = true ↔
      c.toNat < d.toNat ∨ c.toNat = d.toNat ∧ le left right = true := by
  rcases Nat.lt_trichotomy c.toNat d.toNat with hless | heq | hless
  · simp [le, hless]
  · simp [le, heq]
  · simp [le, hless, Nat.lt_asymm hless, Nat.ne_of_gt hless]

/-- Of two texts one comes first. -/
theorem le_total (left right : Text) : le left right = true ∨ le right left = true := by
  induction left generalizing right with
  | nil => exact .inl rfl
  | cons c left ih =>
      cases right with
      | nil => exact .inr rfl
      | cons d right =>
          rw [le_cons_iff, le_cons_iff]
          rcases Nat.lt_trichotomy c.toNat d.toNat with hless | heq | hless
          · exact .inl (.inl hless)
          · exact (ih right).imp (fun hle => .inr ⟨heq, hle⟩) fun hle => .inr ⟨heq.symm, hle⟩
          · exact .inr (.inl hless)

/-- The order of texts is transitive. -/
theorem le_trans {first second third : Text} (hfirst : le first second = true)
    (hsecond : le second third = true) : le first third = true := by
  induction first generalizing second third with
  | nil => rfl
  | cons c first ih =>
      cases second with
      | nil => cases hfirst
      | cons d second =>
          cases third with
          | nil => cases hsecond
          | cons e third =>
              rw [le_cons_iff] at hfirst hsecond ⊢
              rcases hfirst with hless | ⟨hsame, hfirst⟩
              · omega
              · rcases hsecond with hless | ⟨hnext, hsecond⟩
                · omega
                · exact .inr ⟨hsame.trans hnext, ih hfirst hsecond⟩

/-- Two texts that both come first are the same. -/
theorem le_antisymm {left right : Text} (hleft : le left right = true)
    (hright : le right left = true) : left = right := by
  induction left generalizing right with
  | nil =>
      cases right with
      | nil => rfl
      | cons d right => cases hright
  | cons c left ih =>
      cases right with
      | nil => cases hleft
      | cons d right =>
          rcases le_cons_iff.mp hleft with hless | ⟨hsame, hleft⟩
          · rcases le_cons_iff.mp hright with hgreater | ⟨hequal, -⟩ <;> omega
          · rcases le_cons_iff.mp hright with hgreater | ⟨-, hright⟩
            · omega
            · rw [Char.toNat_inj.mp hsame, ih hleft hright]

variable {α : Type} {key : α → Text} {items others : List α}

/-- To insert an item keeps a list in order. -/
theorem pairwise_insertBy (item : α)
    (hsorted : items.Pairwise fun a b => le (key a) (key b) = true) :
    (insertBy key item items).Pairwise fun a b => le (key a) (key b) = true := by
  induction items with
  | nil => exact List.pairwise_singleton _ item
  | cons other rest ih =>
      obtain ⟨hfirst, hrest⟩ := List.pairwise_cons.mp hsorted
      unfold insertBy
      split
      next hle =>
        refine List.pairwise_cons.mpr ⟨fun later hlater => ?_, hsorted⟩
        rcases List.mem_cons.mp hlater with rfl | hlater
        · exact hle
        · exact le_trans hle (hfirst later hlater)
      next hgreater =>
        refine List.pairwise_cons.mpr ⟨fun later hlater => ?_, ih hrest⟩
        rcases List.mem_cons.mp ((insertBy_perm key item rest).mem_iff.mp hlater) with rfl | hlater
        · exact (le_total (key later) (key other)).resolve_left hgreater
        · exact hfirst later hlater

/-- Sorting brings items into the order of their texts. -/
theorem pairwise_sortBy (key : α → Text) (items : List α) :
    (sortBy key items).Pairwise fun a b => le (key a) (key b) = true := by
  induction items with
  | nil => exact .nil
  | cons item rest ih => exact pairwise_insertBy item ih

/-- **Sorting forgets the order**, where no two items have one key. -/
theorem sortBy_eq_of_perm (hperm : items.Perm others) (hdistinct : (items.map key).Nodup) :
    sortBy key items = sortBy key others := by
  have hsame : (sortBy key items).Perm (sortBy key others) :=
    (sortBy_perm key items).trans (hperm.trans (sortBy_perm key others).symm)
  refine List.Perm.eq_of_pairwise (fun a b ha hb hle hge => ?_) (pairwise_sortBy key items)
    (pairwise_sortBy key others) hsame
  have ha : a ∈ items := (sortBy_perm key items).mem_iff.mp ha
  have hb : b ∈ items := hperm.mem_iff.mpr ((sortBy_perm key others).mem_iff.mp hb)
  exact List.inj_on_of_nodup_map hdistinct ha hb (le_antisymm hle hge)

end Text

namespace Value

/-! ## Enumerations of sets -/

/-- Values that differ only in the order in which the sets anywhere in them are enumerated. -/
inductive Reordered : Value → Value → Prop where
  | same (value : Value) : Reordered value value
  | list {items others : List Value} (hitems : List.Forall₂ Reordered items others) :
      Reordered (.list items) (.list others)
  | tuple {items others : List Value} (hitems : List.Forall₂ Reordered items others) :
      Reordered (.tuple items) (.tuple others)
  | set {items others enumerated : List Value} (hitems : List.Forall₂ Reordered items others)
      (horder : others.Perm enumerated) : Reordered (.set items) (.set enumerated)
  | frozenSet {items others enumerated : List Value}
      (hitems : List.Forall₂ Reordered items others) (horder : others.Perm enumerated) :
      Reordered (.frozenSet items) (.frozenSet enumerated)
  | record {entries others : List (Value × Value)}
      (hkeys : List.Forall₂ Reordered (entries.map Prod.fst) (others.map Prod.fst))
      (hvalues : List.Forall₂ Reordered (entries.map Prod.snd) (others.map Prod.snd)) :
      Reordered (.record entries) (.record others)
  | mapping {entries others : List (Value × Value)}
      (hkeys : List.Forall₂ Reordered (entries.map Prod.fst) (others.map Prod.fst))
      (hvalues : List.Forall₂ Reordered (entries.map Prod.snd) (others.map Prod.snd)) :
      Reordered (.mapping entries) (.mapping others)

/-- A view of a value does not show how the sets in it are enumerated. -/
def Steady {α : Type} (view : Value → α) (value : Value) : Prop :=
  ∀ other, value.Reordered other → view other = view value

/-- The elements of a set. -/
def setElements : Value → List Value
  | set items | frozenSet items => items
  | _ => []

/-- The entries of an object. -/
def entries : Value → List (Value × Value)
  | record entries | mapping entries => entries
  | _ => []

/-- The elements of a set are told apart by their literals, which do not show how sets are
enumerated. -/
structure Orderless (value : Value) : Prop where
  distinct : (value.setElements.map literal).Nodup
  steady : ∀ item ∈ value.setElements, item.Steady literal

/-- The names of members do not show how sets are enumerated. -/
def HasSteadyKeys (value : Value) : Prop :=
  ∀ entry ∈ value.entries, entry.1.Steady display

/-! ## Parts -/

/-- The values that a value is put together from. -/
def parts : Value → List Value
  | list items | tuple items | set items | frozenSet items => items
  | record entries | mapping entries => entries.map Prod.fst ++ entries.map Prod.snd
  | _ => []

/-- The values of a record are among its parts. -/
theorem snd_mem_parts {value : Value} {entry : Value × Value} (hentry : entry ∈ value.entries) :
    entry.2 ∈ value.parts := by
  cases value with
  | record entries | mapping entries =>
      exact List.mem_append_right _ (List.mem_map_of_mem hentry)
  | _ => cases hentry

/-- A part is smaller than the whole. -/
theorem sizeOf_lt_of_mem_parts {value part : Value} (hpart : part ∈ value.parts) :
    sizeOf part < sizeOf value := by
  have hentries : ∀ entries : List (Value × Value),
      part ∈ entries.map Prod.fst ++ entries.map Prod.snd → sizeOf part < sizeOf entries := by
    intro entries hmem
    rcases List.mem_append.mp hmem with hmem | hmem <;>
    · obtain ⟨⟨key, value⟩, hentry, rfl⟩ := List.mem_map.mp hmem
      have hless := List.sizeOf_lt_of_mem hentry
      simp only [Prod.mk.sizeOf_spec] at hless ⊢
      omega
  cases value with
  | list items | tuple items | set items | frozenSet items =>
      have hless := List.sizeOf_lt_of_mem (show part ∈ items from hpart)
      simp only [list.sizeOf_spec, tuple.sizeOf_spec, set.sizeOf_spec, frozenSet.sizeOf_spec]
      omega
  | record entries | mapping entries =>
      have hless := hentries entries hpart
      simp only [record.sizeOf_spec, mapping.sizeOf_spec]
      omega
  | _ => cases hpart

/-- Induction over what values are put together from. -/
theorem ind {motive : Value → Prop}
    (hparts : ∀ value : Value, (∀ part ∈ value.parts, motive part) → motive value)
    (value : Value) : motive value :=
  hparts value fun part _ => ind hparts part
termination_by sizeOf value
decreasing_by exact sizeOf_lt_of_mem_parts ‹_›

mutual

/-- A value and all that occurs anywhere in it. -/
def occurring : Value → List Value
  | list items => list items :: occurringInAll items
  | tuple items => tuple items :: occurringInAll items
  | set items => set items :: occurringInAll items
  | frozenSet items => frozenSet items :: occurringInAll items
  | record entries => record entries :: occurringInEntries entries
  | mapping entries => mapping entries :: occurringInEntries entries
  | value => [value]

/-- All that occurs in several values. -/
def occurringInAll : List Value → List Value
  | [] => []
  | item :: rest => item.occurring ++ occurringInAll rest

/-- All that occurs in keys and values. -/
def occurringInEntries : List (Value × Value) → List Value
  | [] => []
  | (key, value) :: rest => key.occurring ++ value.occurring ++ occurringInEntries rest

end

/-- A value occurs in itself. -/
theorem self_mem_occurring (value : Value) : value ∈ value.occurring := by
  cases value <;> exact List.mem_cons_self

/-- In several items occurs what occurs in one of them. -/
theorem mem_occurringInAll {items : List Value} {inner : Value} :
    inner ∈ occurringInAll items ↔ ∃ item ∈ items, inner ∈ item.occurring := by
  induction items with
  | nil => simp [occurringInAll]
  | cons item rest ih => simp [occurringInAll, ih]

/-- In a record occurs what occurs in a key or in a value of it. -/
theorem mem_occurringInEntries {entries : List (Value × Value)} {inner : Value} :
    inner ∈ occurringInEntries entries ↔
      ∃ entry ∈ entries, inner ∈ entry.1.occurring ∨ inner ∈ entry.2.occurring := by
  induction entries with
  | nil => simp [occurringInEntries]
  | cons entry rest ih => simp [occurringInEntries, ih, or_assoc]

/-- What occurs in a part occurs in the whole. -/
theorem mem_occurring_of_part {value part inner : Value} (hpart : part ∈ value.parts)
    (hinner : inner ∈ part.occurring) : inner ∈ value.occurring := by
  cases value with
  | list items | tuple items | set items | frozenSet items =>
      exact List.mem_cons_of_mem _ (mem_occurringInAll.mpr ⟨part, hpart, hinner⟩)
  | record entries | mapping entries =>
      refine List.mem_cons_of_mem _ (mem_occurringInEntries.mpr ?_)
      rcases List.mem_append.mp hpart with hpart | hpart
      · obtain ⟨entry, hentry, rfl⟩ := List.mem_map.mp hpart
        exact ⟨entry, hentry, .inl hinner⟩
      · obtain ⟨entry, hentry, rfl⟩ := List.mem_map.mp hpart
        exact ⟨entry, hentry, .inr hinner⟩
  | _ => cases hpart

/-! ## Samples -/

/-- Each item is labelled by the text that messages show for it. -/
theorem labelledSamples_eq_map (items : List Value) :
    labelledSamples items = items.map fun item => (item.literal, item.sample) := by
  induction items with
  | nil => rfl
  | cons item rest ih => rw [labelledSamples, ih, List.map_cons]

/-- The names and the values of a record are looked at one by one. -/
theorem memberSamples_eq_zip (entries : List (Value × Value)) :
    memberSamples entries =
      ((entries.map Prod.fst).map display).zip ((entries.map Prod.snd).map sample) := by
  induction entries with
  | nil => rfl
  | cons entry rest ih => simp [memberSamples, ih]

/-- What each item has in common with any enumeration of it, a list has as well. -/
theorem map_eq_of_reordered {α : Type} {view : Value → α} {items others : List Value}
    (hitems : List.Forall₂ Reordered items others)
    (hview : ∀ item ∈ items, item.Steady view) :
    others.map view = items.map view := by
  induction hitems with
  | nil => rfl
  | cons hitem _ ih =>
      obtain ⟨hfirst, hlater⟩ := List.forall_mem_cons.mp hview
      rw [List.map_cons, List.map_cons, hfirst _ hitem, ih hlater]

/-- **A set forgets its order.**  The samples of its elements are sorted by literals that do not
depend on it. -/
theorem sortBy_labelledSamples {items others enumerated : List Value}
    (hitems : List.Forall₂ Reordered items others) (horder : others.Perm enumerated)
    (hdistinct : (items.map literal).Nodup) (hsteady : ∀ item ∈ items, item.Steady literal)
    (hsample : ∀ item ∈ items, item.Steady sample) :
    Text.sortBy Prod.fst (labelledSamples enumerated) =
      Text.sortBy Prod.fst (labelledSamples items) := by
  have hlabels : labelledSamples others = labelledSamples items := by
    rw [labelledSamples_eq_map, labelledSamples_eq_map]
    refine map_eq_of_reordered hitems fun item hitem other hother => ?_
    rw [hsteady item hitem other hother, hsample item hitem other hother]
  have hperm : (labelledSamples items).Perm (labelledSamples enumerated) := by
    rw [← hlabels, labelledSamples_eq_map, labelledSamples_eq_map]
    exact horder.map _
  refine (Text.sortBy_eq_of_perm hperm ?_).symm
  rw [labelledSamples_eq_map, List.map_map]
  exact hdistinct

/-- Reordered records have the same members, if their keys are shown alike and their values are
alike. -/
theorem memberSamples_eq_of_reordered {entries others : List (Value × Value)}
    (hnames : List.Forall₂ Reordered (entries.map Prod.fst) (others.map Prod.fst))
    (hvalues : List.Forall₂ Reordered (entries.map Prod.snd) (others.map Prod.snd))
    (hkeys : ∀ entry ∈ entries, entry.1.Steady display)
    (hsample : ∀ entry ∈ entries, entry.2.Steady sample) :
    memberSamples others = memberSamples entries := by
  rw [memberSamples_eq_zip, memberSamples_eq_zip, map_eq_of_reordered hnames,
    map_eq_of_reordered hvalues]
  · exact List.forall_mem_map.mpr hsample
  · exact List.forall_mem_map.mpr hkeys

/-- **Samples forget how sets are enumerated.** -/
theorem sample_eq_of_reordered {value other : Value}
    (hsets : ∀ part ∈ value.occurring, part.Orderless)
    (hkeys : ∀ part ∈ value.occurring, part.HasSteadyKeys) (hreordered : value.Reordered other) :
    other.sample = value.sample := by
  induction value using Value.ind generalizing other with
  | hparts value ih =>
    have hpart : ∀ part ∈ value.parts, part.Steady sample := by
      intro part hpart other
      exact ih part hpart (fun inner hinner => hsets inner (mem_occurring_of_part hpart hinner))
        fun inner hinner => hkeys inner (mem_occurring_of_part hpart hinner)
    have hown := hsets value (self_mem_occurring value)
    have hnames := hkeys value (self_mem_occurring value)
    have hmember : ∀ entry ∈ value.entries, entry.2.Steady sample := fun entry hentry =>
      hpart entry.2 (snd_mem_parts hentry)
    cases hreordered with
    | same => rfl
    | list hitems | tuple hitems =>
        simp only [sample, labelledSamples_eq_map, List.map_map]
        exact congrArg Sample.array (map_eq_of_reordered hitems hpart)
    | set hitems horder | frozenSet hitems horder =>
        simp only [sample]
        exact congrArg (fun labelled => Sample.array (labelled.map Prod.snd))
          (sortBy_labelledSamples hitems horder hown.distinct hown.steady hpart)
    | record hentries hvalues | mapping hentries hvalues =>
        simp only [sample]
        exact congrArg Sample.object (memberSamples_eq_of_reordered hentries hvalues hnames hmember)

/-! ## Values without sets -/

/-- Whether no set in a value has elements. -/
def isSetFree (value : Value) : Bool :=
  value.occurring.all fun part => part.setElements.isEmpty

/-- A value without sets is enumerated in one way only. -/
theorem eq_of_reordered {value other : Value} (hfree : value.isSetFree = true)
    (hreordered : value.Reordered other) : other = value := by
  induction value using Value.ind generalizing other with
  | hparts value ih =>
    have hempty := List.all_eq_true.mp hfree
    have hpart : ∀ part ∈ value.parts, part.Steady id := by
      intro part hpart other
      exact ih part hpart
        (List.all_eq_true.mpr fun inner hinner => hempty inner (mem_occurring_of_part hpart hinner))
    cases hreordered with
    | same => rfl
    | list hitems | tuple hitems =>
        have hsame := map_eq_of_reordered hitems hpart
        rw [List.map_id, List.map_id] at hsame
        rw [hsame]
    | @set items _ _ hitems horder | @frozenSet items _ _ hitems horder =>
        have hnone : items = [] := List.isEmpty_iff.mp (hempty _ (self_mem_occurring _))
        subst hnone
        cases hitems
        rw [horder.nil_eq]
    | @record entries others hnames hvalues | @mapping entries others hnames hvalues =>
        have hfirst := map_eq_of_reordered hnames fun key hkey =>
          hpart key (List.mem_append_left _ hkey)
        have hsecond := map_eq_of_reordered hvalues fun part hmem =>
          hpart part (List.mem_append_right _ hmem)
        rw [List.map_id, List.map_id] at hfirst hsecond
        rw [List.zip_of_prod hfirst hsecond, ← List.zip_of_prod rfl rfl]

/-- Every view of a value without sets is steady. -/
theorem steady_of_isSetFree {α : Type} {value : Value} (view : Value → α)
    (hfree : value.isSetFree = true) : value.Steady view := fun _ hreordered =>
  congrArg view (eq_of_reordered hfree hreordered)

/-- A set is orderless if no sets are in it and no two elements are shown alike. -/
theorem Orderless.of_isSetFree {value : Value} (hdistinct : (value.setElements.map literal).Nodup)
    (hfree : ∀ item ∈ value.setElements, item.isSetFree = true) : value.Orderless where
  distinct := hdistinct
  steady item hitem := steady_of_isSetFree literal (hfree item hitem)

end Value

/-! ## Batches of values -/

/-- **Batches forget how sets are enumerated.**  Let the elements of each set in the examples be
told apart by literals that do not depend on enumerations, and let the names of members not depend
on them either.  Then a session makes the same of the examples, however their sets are enumerated:
the same answer or the same failure, and the same models. -/
theorem Session.addExamples_reordered {values others : List Value}
    (hreordered : List.Forall₂ Value.Reordered values others)
    (hsets : ∀ value ∈ values, ∀ part ∈ value.occurring, part.Orderless)
    (hkeys : ∀ value ∈ values, ∀ part ∈ value.occurring, part.HasSteadyKeys)
    (session : Session) (options overrides : Arguments) (failure : Option BatchError) :
    session.addExamples options overrides { samples := others.map Value.sample, failure } =
      session.addExamples options overrides { samples := values.map Value.sample, failure } := by
  have hsamples : others.map Value.sample = values.map Value.sample :=
    Value.map_eq_of_reordered hreordered fun value hvalue other hother =>
      Value.sample_eq_of_reordered (hsets value hvalue) (hkeys value hvalue) hother
  rw [hsamples]

/-- An example with a set of tags in a list, and a member whose name comes from a tuple. -/
def taggedExample (tags : List Value) : Value :=
  .record [(.string "tags", .list [.set tags, .frozenSet [.null]]), (.tuple [.integer 1], .null)]

/-- Batches forget how the tags of an example are enumerated. -/
theorem Session.addExamples_reordered_tags :
    Session.addExamples {} [] [("strict", .value (.boolean true))]
        { samples := [taggedExample [.tuple [.integer 8], .string "a", .integer 0]].map
            Value.sample } =
      Session.addExamples {} [] [("strict", .value (.boolean true))]
        { samples := [taggedExample [.string "a", .tuple [.integer 8], .integer 0]].map
            Value.sample } := by
  refine Session.addExamples_reordered (.cons ?_ .nil) ?_ ?_ {} [] _ none
  · have htags : List.Forall₂ Value.Reordered
        [.string "a", .tuple [.integer 8], .integer 0]
        [.string "a", .tuple [.integer 8], .integer 0] :=
      .cons (.same _) (.cons (.same _) (.cons (.same _) .nil))
    refine .record (.cons (.same _) (.cons (.same _) .nil))
      (.cons (.list ?_) (.cons (.same _) .nil))
    exact .cons (.set htags (.swap _ _ _)) (.cons (.same _) .nil)
  · have hflat : ∀ value ∈ [taggedExample [.string "a", .tuple [.integer 8], .integer 0]],
        ∀ part ∈ value.occurring, (part.setElements.map Value.literal).Nodup ∧
          ∀ item ∈ part.setElements, item.isSetFree = true := by decide +kernel
    intro value hvalue part hpart
    exact .of_isSetFree (hflat value hvalue part hpart).1 (hflat value hvalue part hpart).2
  · have hfree : ∀ value ∈ [taggedExample [.string "a", .tuple [.integer 8], .integer 0]],
        ∀ part ∈ value.occurring, ∀ entry ∈ part.entries, entry.1.isSetFree = true := by
      decide +kernel
    intro value hvalue part hpart entry hentry
    exact Value.steady_of_isSetFree Value.display (hfree value hvalue part hpart entry hentry)

/-- An example whose only member has a set for its key. -/
def setKeyed (elements : List Int) : Value :=
  .record [(.frozenSet (elements.map .integer), .integer 1)]

/-- The builder that has learnt from an example with the set of nought and eight for a key. -/
def setKeyedBuilder : Builder :=
  (Builder.addBatch {} {} false { samples := [(setKeyed [0, 8]).sample] }).2

/-- The order in which the set in a key is enumerated decides whether a strict batch fails. -/
theorem key_shows_enumeration :
    (setKeyed [0, 8]).Reordered (setKeyed [8, 0]) ∧
    (∀ part ∈ (setKeyed [0, 8]).occurring, part.Orderless) ∧
    (setKeyedBuilder.addBatch {} true { samples := [(setKeyed [0, 8]).sample] }).1 = .ok "Root" ∧
    (setKeyedBuilder.addBatch {} true { samples := [(setKeyed [8, 0]).sample] }).1 =
      .error (.redefinition ⟨"Root", 1, 2, "frozenset(\x7b0, 8\x7d)"⟩) := by
  refine ⟨?_, ?_, rfl, rfl⟩
  · refine .record (.cons (.frozenSet (.cons (.same _) (.cons (.same _) .nil)) ?_) .nil)
      (.cons (.same _) .nil)
    exact .swap _ _ []
  · have hflat : ∀ part ∈ (setKeyed [0, 8]).occurring,
        (part.setElements.map Value.literal).Nodup ∧
          ∀ item ∈ part.setElements, item.isSetFree = true := by decide +kernel
    intro part hpart
    exact .of_isSetFree (hflat part hpart).1 (hflat part hpart).2

end Exemplar
