import Exemplar.Proofs.Expansion

/-!
# Which types a key refers to

`references` is a search with a list of keys that are still to be looked at.  What it
should find can be said without a search: a key mentions a named type when its fields
lead there through positions without a name (`Model.Mentions`).

* `IsSearch` is what every state of the search keeps: all that was met is justified by
  a way from the start, and all that was looked at led to keys that were met.  Meeting
  a key keeps it (`IsSearch.meet`), and so does looking at one (`explore_isSearch`).
* `unmet` counts the fields whose keys were not met, and the keys that are pending.
  It shrinks with every key that is looked at, so the fuel of the search lasts.
* `mem_references_iff` and `nodup_references` say that the search finds all mentioned
  types but the start, each of them once.
* `Loop` is the search as a loop without fuel.  It ends on every model
  (`exists_loop_references`), also on one whose keys lead back to themselves.

Named mode spells out no other names than those a key mentions
(`mentions_of_mem_references`).
-/

namespace Exemplar.Model

variable {model : Model} {start key child : Keypath} {busy : List Keypath} {search : Search}

/-- The fields of a key lead to a named type, all of them but the last to keys without a name. -/
def Mentions (model : Model) (key : Keypath) (name : Name) : Prop :=
  model.isNamed name = true ∧
    ∃ position, Relation.ReflTransGen model.LeadsUnnamed key position ∧ model.Leads position name

/-- What a key mentions is also mentioned by a key that leads to it, if it has no name. -/
theorem Mentions.head {name : Name} (hstep : model.LeadsUnnamed key child)
    (hmentions : model.Mentions child name) : model.Mentions key name := by
  obtain ⟨hnamed, position, hway, hlast⟩ := hmentions
  exact ⟨hnamed, position, .head hstep hway, hlast⟩

/-! ## What a search keeps -/

/-- A state of the search that began at `start`; the keys in `busy` have been taken from the
pending ones, and not all of their fields have been followed. -/
structure IsSearch (model : Model) (start : Keypath) (busy : List Keypath) (search : Search) :
    Prop where
  started : start ∈ search.seen
  pending_seen : ∀ key ∈ search.pending, key ∈ search.seen
  pending_below : ∀ key ∈ search.pending, Relation.ReflTransGen model.LeadsUnnamed start key
  found_nodup : search.found.Nodup
  found_seen : ∀ name ∈ search.found, name ∈ search.seen
  found_mentioned : ∀ name ∈ search.found, name ≠ start ∧ model.Mentions start name
  named_found : ∀ key ∈ search.seen, key ≠ start → model.isNamed key = true → key ∈ search.found
  settled : ∀ key ∈ search.seen, key ∉ search.pending → key ∉ busy →
    key = start ∨ model.isNamed key = false → ∀ child, model.Leads key child → child ∈ search.seen

/-- A search begins with the start met and pending. -/
theorem isSearch_start (model : Model) (start : Keypath) :
    model.IsSearch start [] ⟨[], [start], [start]⟩ where
  started := List.mem_singleton_self start
  pending_seen _ hkey := hkey
  pending_below key hkey := by
    obtain rfl := List.mem_singleton.mp hkey
    exact .refl
  found_nodup := .nil
  found_seen _ hname := absurd hname List.not_mem_nil
  found_mentioned _ hname := absurd hname List.not_mem_nil
  named_found key hkey hother := absurd (List.mem_singleton.mp hkey) hother
  settled _ hkey hpending := absurd hkey hpending

/-- A named type that was not met is found. -/
theorem IsSearch.find (hsearch : model.IsSearch start busy search) (hfresh : key ∉ search.seen)
    (hmentions : model.Mentions start key) :
    model.IsSearch start busy
      { search with found := search.found ++ [key], seen := key :: search.seen } where
  started := List.mem_cons_of_mem key hsearch.started
  pending_seen other hpending := List.mem_cons_of_mem key (hsearch.pending_seen other hpending)
  pending_below := hsearch.pending_below
  found_nodup := by
    have hnew : key ∉ search.found := fun hname => hfresh (hsearch.found_seen key hname)
    simpa [List.nodup_append] using ⟨hsearch.found_nodup, fun name hname heq => hnew (heq ▸ hname)⟩
  found_seen name hname := by
    rcases List.mem_append.mp hname with hname | hname
    · exact List.mem_cons_of_mem key (hsearch.found_seen name hname)
    · exact List.mem_singleton.mp hname ▸ List.mem_cons_self
  found_mentioned name hname := by
    rcases List.mem_append.mp hname with hname | hname
    · exact hsearch.found_mentioned name hname
    · obtain rfl := List.mem_singleton.mp hname
      exact ⟨fun heq => hfresh (heq ▸ hsearch.started), hmentions⟩
  named_found other hmem hother hnamed := by
    rcases List.mem_cons.mp hmem with rfl | hmem
    · exact List.mem_append_right _ (List.mem_singleton_self _)
    · exact List.mem_append_left _ (hsearch.named_found other hmem hother hnamed)
  settled other hmem hpending hbusy hopen below hbelow := by
    rcases List.mem_cons.mp hmem with rfl | hmem
    · rcases hopen with rfl | hunnamed
      · exact absurd hsearch.started hfresh
      · simp [hmentions.1] at hunnamed
    · exact List.mem_cons_of_mem key
        (hsearch.settled other hmem hpending hbusy hopen below hbelow)

/-- A key without a name that was not met is looked at later. -/
theorem IsSearch.postpone (hsearch : model.IsSearch start busy search)
    (hbelow : Relation.ReflTransGen model.LeadsUnnamed start key)
    (hunnamed : model.isNamed key = false) :
    model.IsSearch start busy
      { search with pending := key :: search.pending, seen := key :: search.seen } where
  started := List.mem_cons_of_mem key hsearch.started
  pending_seen other hpending := by
    rcases List.mem_cons.mp hpending with rfl | hpending
    · exact List.mem_cons_self
    · exact List.mem_cons_of_mem key (hsearch.pending_seen other hpending)
  pending_below := List.forall_mem_cons.mpr ⟨hbelow, hsearch.pending_below⟩
  found_nodup := hsearch.found_nodup
  found_seen name hname := List.mem_cons_of_mem key (hsearch.found_seen name hname)
  found_mentioned := hsearch.found_mentioned
  named_found other hmem hother hnamed := by
    rcases List.mem_cons.mp hmem with rfl | hmem
    · simp [hnamed] at hunnamed
    · exact hsearch.named_found other hmem hother hnamed
  settled other hmem hpending hbusy hopen below hbelow := by
    obtain ⟨hother, hleft⟩ := not_or.mp (mt List.mem_cons.mpr hpending)
    have hmem : other ∈ search.seen := List.mem_of_ne_of_mem hother hmem
    exact List.mem_cons_of_mem key (hsearch.settled other hmem hleft hbusy hopen below hbelow)

/-- **One key met.**  To meet a key to which a field leads keeps what a search keeps. -/
theorem IsSearch.meet {position : Keypath} (hsearch : model.IsSearch start busy search)
    (hbelow : Relation.ReflTransGen model.LeadsUnnamed start position)
    (hleads : model.Leads position key) : model.IsSearch start busy (model.meet search key) := by
  unfold Model.meet
  by_cases hseen : key ∈ search.seen
  · rwa [if_pos (List.contains_iff_mem.mpr hseen)]
  rw [if_neg fun hgiven => hseen (List.contains_iff_mem.mp hgiven)]
  by_cases hnamed : model.isNamed key = true
  · rw [if_pos hnamed]
    exact hsearch.find hseen ⟨hnamed, position, hbelow, hleads⟩
  · rw [if_neg hnamed]
    have hunnamed : model.isNamed key = false := Bool.not_eq_true _ ▸ hnamed
    exact hsearch.postpone (hbelow.tail ⟨hleads, hunnamed⟩) hunnamed

/-- To meet a key is to have seen it. -/
theorem mem_seen_meet (model : Model) (search : Search) (key other : Keypath) :
    other ∈ (model.meet search key).seen ↔ other = key ∨ other ∈ search.seen := by
  unfold Model.meet
  by_cases hseen : key ∈ search.seen
  · rw [if_pos (List.contains_iff_mem.mpr hseen)]
    constructor
    · exact .inr
    · rintro (rfl | hmem)
      · exact hseen
      · exact hmem
  · rw [if_neg fun hgiven => hseen (List.contains_iff_mem.mp hgiven)]
    split <;> exact List.mem_cons

/-- To meet several keys is to have seen them. -/
theorem mem_seen_foldl_meet (model : Model) (keys : List Keypath) (search : Search)
    (other : Keypath) :
    other ∈ (keys.foldl model.meet search).seen ↔ other ∈ keys ∨ other ∈ search.seen := by
  induction keys generalizing search with
  | nil => simp
  | cons key rest ih =>
      rw [List.foldl_cons, ih, mem_seen_meet, List.mem_cons]
      exact or_left_comm.trans or_assoc.symm

/-- A search may meet all the keys to which a key leads. -/
theorem IsSearch.foldl_meet {position : Keypath} {keys : List Keypath}
    (hsearch : model.IsSearch start busy search)
    (hbelow : Relation.ReflTransGen model.LeadsUnnamed start position)
    (hkeys : ∀ key ∈ keys, model.Leads position key) :
    model.IsSearch start busy (keys.foldl model.meet search) := by
  induction keys generalizing search with
  | nil => exact hsearch
  | cons key rest ih =>
      obtain ⟨hfirst, hlater⟩ := List.forall_mem_cons.mp hkeys
      exact ih (hsearch.meet hbelow hfirst) hlater

/-- **One step of the search.**  A pending key is looked at when all keys were met to which its
fields lead. -/
theorem IsSearch.look {rest : List Keypath} (hsearch : model.IsSearch start [] search)
    (hpending : search.pending = key :: rest) :
    model.IsSearch start []
      ((model.children key).foldl model.meet { search with pending := rest }) := by
  have hkey : key ∈ search.pending := hpending ▸ List.mem_cons_self
  have hrest : ∀ other ∈ rest, other ∈ search.pending := fun other hother =>
    hpending ▸ List.mem_cons_of_mem key hother
  have htaken : model.IsSearch start [key] { search with pending := rest } := {
    started := hsearch.started
    pending_seen := fun other hother => hsearch.pending_seen other (hrest other hother)
    pending_below := fun other hother => hsearch.pending_below other (hrest other hother)
    found_nodup := hsearch.found_nodup
    found_seen := hsearch.found_seen
    found_mentioned := hsearch.found_mentioned
    named_found := hsearch.named_found
    settled := fun other hmem hleft hbusy => by
      refine hsearch.settled other hmem ?_ List.not_mem_nil
      rw [hpending]
      rintro (_ | ⟨_, hgiven⟩)
      · exact hbusy (List.mem_singleton_self _)
      · exact hleft hgiven }
  have hmet := htaken.foldl_meet (hsearch.pending_below key hkey) fun child hchild => hchild
  refine { hmet with settled := fun other hmem hleft _ hopen child hchild => ?_ }
  by_cases hsame : other = key
  · rw [hsame] at hchild
    exact (mem_seen_foldl_meet _ _ _ _).mpr (.inl hchild)
  · exact hmet.settled other hmem hleft (by simpa using hsame) hopen child hchild

/-! ## Enough fuel for a search -/

/-- The number of fields to keys that were not met, and of keys that are pending. -/
def unmet (model : Model) (search : Search) : Nat :=
  (model.mentioned.filter fun key => !search.seen.contains key).length + search.pending.length

/-- A field is one of those that a model mentions. -/
theorem Leads.mem_mentioned (hleads : model.Leads key child) : child ∈ model.mentioned := by
  obtain ⟨entry, hentry, field, hfield, rfl⟩ := leads_iff.mp hleads
  obtain ⟨kinds, hkinds⟩ := (model.shapes.mem_keys_iff key).mp hleads.stored
  have hstored : (key, kinds) ∈ model.shapes.entries :=
    (model.shapes.mem_entries_iff _ _).mpr hkinds
  rw [Model.kinds, hkinds, Option.getD_some] at hentry
  exact List.mem_flatMap.mpr ⟨kinds, List.mem_map.mpr ⟨_, hstored, rfl⟩,
    List.mem_flatMap.mpr ⟨entry.2, List.mem_map.mpr ⟨_, hentry, rfl⟩,
      List.mem_map.mpr ⟨field.2, List.mem_map.mpr ⟨_, hfield, rfl⟩, rfl⟩⟩⟩

/-- To meet a key leaves no more to be done. -/
theorem unmet_meet_le (hmentioned : key ∈ model.mentioned) (search : Search) :
    model.unmet (model.meet search key) ≤ model.unmet search := by
  unfold Model.meet
  by_cases hseen : key ∈ search.seen
  · exact Nat.le_of_eq (congrArg model.unmet (if_pos (List.contains_iff_mem.mpr hseen)))
  rw [if_neg fun hgiven => hseen (List.contains_iff_mem.mp hgiven)]
  have hsplit : (model.mentioned.filter fun other => !(key :: search.seen).contains other) =
      (model.mentioned.filter fun other => !search.seen.contains other).filter
        fun other => !other == key := by
    simp only [List.filter_filter, List.contains_cons, Bool.not_or]
  have hfewer : (model.mentioned.filter fun other => !(key :: search.seen).contains other).length <
      (model.mentioned.filter fun other => !search.seen.contains other).length := by
    rw [hsplit]
    refine List.length_filter_lt_length_iff_exists.mpr ⟨key, ?_, by simp⟩
    exact List.mem_filter.mpr ⟨hmentioned, by simpa using hseen⟩
  unfold unmet
  split
  · dsimp only
    omega
  · dsimp only [List.length_cons]
    omega

/-- To meet several keys leaves no more to be done. -/
theorem unmet_foldl_meet_le {keys : List Keypath} (hmentioned : ∀ key ∈ keys, key ∈ model.mentioned)
    (search : Search) : model.unmet (keys.foldl model.meet search) ≤ model.unmet search := by
  induction keys generalizing search with
  | nil => exact Nat.le_refl _
  | cons key rest ih =>
      obtain ⟨hfirst, hlater⟩ := List.forall_mem_cons.mp hmentioned
      exact Nat.le_trans (ih hlater _) (unmet_meet_le hfirst search)

/-- **A whole search.**  With fuel for all that is unmet a search goes on until nothing is
pending. -/
theorem explore_isSearch {fuel : Nat} (hsearch : model.IsSearch start [] search)
    (hfuel : model.unmet search ≤ fuel) :
    model.IsSearch start [] (model.explore fuel search) ∧
      (model.explore fuel search).pending = [] := by
  induction fuel generalizing search with
  | zero =>
      have hnone : search.pending.length = 0 := by
        unfold unmet at hfuel
        omega
      exact ⟨hsearch, List.length_eq_zero_iff.mp hnone⟩
  | succ fuel ih =>
      unfold explore
      cases hpending : search.pending with
      | nil => exact ⟨hsearch, hpending⟩
      | cons key rest =>
          have hle : model.unmet
              ((model.children key).foldl model.meet { search with pending := rest }) ≤
              model.unmet { search with pending := rest } :=
            unmet_foldl_meet_le (fun child hchild => Leads.mem_mentioned hchild) _
          have hless : model.unmet { search with pending := rest } + 1 = model.unmet search := by
            simp only [unmet, hpending, List.length_cons]
            omega
          exact ih (hsearch.look hpending) (by omega)

/-- At the start there is no more to be done than there are keys, and the start. -/
private theorem unmet_start_le (model : Model) (start : Keypath) :
    model.unmet ⟨[], [start], [start]⟩ ≤ model.mentioned.length + 1 := by
  have hle := List.length_filter_le (fun key => !([start].contains key)) model.mentioned
  simp only [unmet, List.length_singleton]
  omega

/-! ## What a search finds -/

/-- The references are what a search has found when nothing is pending. -/
private theorem isSearch_references (model : Model) (start : Keypath) :
    ∃ search, model.IsSearch start [] search ∧ search.pending = [] ∧
      search.found = model.references start := by
  obtain ⟨hsearch, hpending⟩ :=
    explore_isSearch (isSearch_start model start) (unmet_start_le model start)
  exact ⟨_, hsearch, hpending, rfl⟩

/-- No type is found twice. -/
theorem nodup_references (model : Model) (key : Keypath) : (model.references key).Nodup := by
  obtain ⟨search, hsearch, -, hfound⟩ := isSearch_references model key
  exact hfound ▸ hsearch.found_nodup

/-- **References are exact.**  The search finds the named types that a key mentions, other than the
key itself. -/
theorem mem_references_iff (model : Model) (key : Keypath) (name : Name) :
    name ∈ model.references key ↔ name ≠ key ∧ model.Mentions key name := by
  obtain ⟨search, hsearch, hpending, hfound⟩ := isSearch_references model key
  rw [← hfound]
  constructor
  · exact hsearch.found_mentioned name
  · rintro ⟨hother, hnamed, position, hway, hlast⟩
    -- All keys on the way were looked at, since nothing is pending.
    have hmet : position ∈ search.seen ∧ (position = key ∨ model.isNamed position = false) := by
      clear hlast
      induction hway with
      | refl => exact ⟨hsearch.started, .inl rfl⟩
      | @tail position child _ hstep ih =>
          have hbelow := hsearch.settled position ih.1 (by simp [hpending]) List.not_mem_nil ih.2
          exact ⟨hbelow child hstep.1, .inr hstep.2⟩
    have hseen : name ∈ search.seen :=
      hsearch.settled position hmet.1 (by simp [hpending]) List.not_mem_nil hmet.2 name hlast
    exact hsearch.named_found name hseen hother hnamed

/-! ## The search as a loop -/

/-- One turn of the search: the latest pending key is looked at. -/
def turn? (model : Model) (search : Search) : Option Search :=
  match search.pending with
  | [] => none
  | key :: rest => some ((model.children key).foldl model.meet { search with pending := rest })

/-- A search that goes on while there is a turn left, with the number of its turns and the state
in which it ends. -/
inductive Loop (model : Model) : Nat → Search → Search → Prop where
  | done {search : Search} (hlast : model.turn? search = none) : Loop model 0 search search
  | turn {turns : Nat} {search next last : Search} (hturn : model.turn? search = some next)
      (hrest : Loop model turns next last) : Loop model (turns + 1) search last

/-- A turn uses up a pending key, and what it adds to the pending keys was unmet. -/
theorem unmet_turn_lt {next : Search} (hturn : model.turn? search = some next) :
    model.unmet next < model.unmet search := by
  unfold turn? at hturn
  split at hturn
  · cases hturn
  next key rest hpending =>
    obtain rfl := Option.some.inj hturn
    have hmet :
        model.unmet ((model.children key).foldl model.meet { search with pending := rest }) ≤
          model.unmet { search with pending := rest } :=
      unmet_foldl_meet_le (fun child hchild => Leads.mem_mentioned hchild) _
    have htaken : model.unmet { search with pending := rest } < model.unmet search := by
      simp [unmet, hpending]
    exact Nat.lt_of_le_of_lt hmet htaken

/-- **The loop ends.**  It makes no more turns than there is fuel for, and ends where the search
with fuel does. -/
theorem exists_loop_explore {fuel : Nat} (hfuel : model.unmet search ≤ fuel) :
    ∃ turns ≤ fuel, model.Loop turns search (model.explore fuel search) := by
  induction fuel generalizing search with
  | zero =>
      have hnone : search.pending = [] := by
        refine List.length_eq_zero_iff.mp ?_
        unfold unmet at hfuel
        omega
      exact ⟨0, Nat.le_refl 0, .done (by simp [turn?, hnone])⟩
  | succ fuel ih =>
      cases hpending : search.pending with
      | nil =>
          have hstay : model.explore (fuel + 1) search = search := by simp [explore, hpending]
          exact ⟨0, Nat.zero_le _, hstay.symm ▸ .done (by simp [turn?, hpending])⟩
      | cons key rest =>
          let next := (model.children key).foldl model.meet { search with pending := rest }
          have hturn : model.turn? search = some next := by simp [turn?, hpending, next]
          have hless := unmet_turn_lt hturn
          have hnext : model.unmet next ≤ fuel := by omega
          obtain ⟨turns, hturns, hrest⟩ := ih hnext
          have hgoes : model.explore (fuel + 1) search = model.explore fuel next := by
            simp [explore, hpending, next]
          exact ⟨turns + 1, Nat.succ_le_succ hturns, hgoes.symm ▸ .turn hturn hrest⟩

/-- **References, as the loop finds them.**  From a key alone the loop ends after at most one turn
for each field of the model and one more, whether or not keys lead back to themselves.  It has then
found, each of them once, the named types other than the key to which its fields lead through
positions without a name. -/
theorem exists_loop_references (model : Model) (key : Keypath) :
    ∃ turns ≤ model.mentioned.length + 1, ∃ last,
      model.Loop turns ⟨[], [key], [key]⟩ last ∧ last.found = model.references key ∧
        last.found.Nodup ∧ ∀ name, name ∈ last.found ↔ name ≠ key ∧ model.Mentions key name := by
  obtain ⟨turns, hturns, hloop⟩ := exists_loop_explore (unmet_start_le model key)
  refine ⟨turns, hturns, _, hloop, rfl, nodup_references model key, ?_⟩
  exact mem_references_iff model key

/-! ## References in expressions -/

/-- Named mode leaves no other names in an expression than those that its key mentions. -/
theorem mentions_of_mem_references {fuel : Nat} {opened : List Keypath} {expr : TypeExpr}
    {name : Name} (hexpr : model.expandWithin false fuel opened key = some expr)
    (hname : name ∈ expr.references) : model.Mentions key name := by
  induction fuel generalizing opened key expr with
  | zero => cases hexpr
  | succ fuel ih =>
      obtain ⟨child, inner, hleads, hinner, hmem⟩ :=
        (expandWithin_succ_iff.mp hexpr).exists_of_mem_references hname
      by_cases hnamed : model.isNamed child = true
      · rw [if_pos ⟨hnamed, by simp⟩] at hinner
        subst hinner
        obtain rfl : name = child := by simpa [TypeExpr.references] using hmem
        exact ⟨hnamed, key, .refl, hleads⟩
      · rw [if_neg fun hcut => hnamed hcut.1] at hinner
        exact (ih hinner hmem).head ⟨hleads, Bool.not_eq_true _ ▸ hnamed⟩

end Exemplar.Model
