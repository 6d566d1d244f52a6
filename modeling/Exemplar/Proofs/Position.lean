import Exemplar.Proofs.Run
import Exemplar.Proofs.StandardName
import Exemplar.Text.Identifier

/-!
# Positions under the standard naming

The key of a position depends on the keys of all positions around it: a name that
one of them has already is given up.  Under the standard naming of ASCII data this
comes to a question about the position and the key just above alone (`partKey`),
so that all visits of one key find the same keys for its parts.

The reason is in `StandardPosition`, an invariant of the way down from the root.  A
step down either adds words, and then the name is too heavy to be taken, or adds
none, and then it is the name of the position above, which either has it or had to
give it up as well.  `StandardPosition.step` is the one step down, and
`walk_standard` the whole walk: it always comes to its end, and every sighting has its
parts where `partKey` puts them.
-/

namespace Exemplar

/-- A name for the root in ASCII that generated code can use. -/
def Text.IsAsciiIdentifier (text : Text) : Prop :=
  Text.isIdentifier text = true ∧ text.IsAscii

instance (text : Text) : Decidable text.IsAsciiIdentifier :=
  inferInstanceAs (Decidable (_ ∧ _))

/-- The naming of a caller who names nothing but perhaps the root. -/
def Naming.standard (root : Option Name) : Naming where
  root := root

/-- The name of the root under the standard naming. -/
def rootName (root : Option Name) : Name :=
  (properName root).getD defaultRootName

/-- Where the values of a field stand in a value of some kind. -/
def partPosition (kind : Kind) (key : Keypath) (field : Text) : Keypath :=
  match kind with
  | .array => elementKeypath key
  | _ => childKeypath key field

/-- The key of a position just below one that is stored under another key.  The name is
given up when it is also the name of the key above, which has it or has given it up too. -/
def partKey (key position : Keypath) : Keypath :=
  match standardTypeName position with
  | none => position
  | some name =>
      if standardTypeName key = some name ∧ (name = key ∨ '.' ∈ key) then position else name

/-- How a position came to its key: by its name, by giving its name up, or as the root. -/
inductive KeyOrigin (enclosing : List Keypath) (key : Keypath) : Prop
  | named (hname : standardTypeName key = some key)
  | givenUp (hpath : '.' ∈ key) (htaken : ∀ name, standardTypeName key = some name →
      name ∈ enclosing)
  | root (htop : enclosing = []) (hplain : '.' ∉ key)

/-- What is known of a position of ASCII data, of its key and of the keys around it. -/
structure StandardPosition (enclosing : List Keypath) (key : Keypath) : Prop where
  nonempty : key ≠ []
  ascii : Text.IsAscii key
  lighter : ∀ above ∈ enclosing, weight above ≤ weight key
  origin : KeyOrigin enclosing key

/-- Below the root, a position has the name made of its keypath, unless that is the key of a value
around it. -/
theorem nameAt_standard (root : Option Name) (enclosing : List Keypath) {keypath : Keypath}
    (hnonempty : keypath ≠ []) (hascii : Text.IsAscii keypath) :
    (Naming.standard root).nameAt enclosing keypath =
      .ok ((standardTypeName keypath).filter fun name => !enclosing.contains name) := by
  have hproper : properName (standardTypeName keypath) = standardTypeName keypath := by
    cases hname : standardTypeName keypath with
    | none => rfl
    | some name =>
        have hsome := (standardTypeName_spec hascii hname).1
        simp [properName, Option.filter, hsome]
  have hpath : keypath.isEmpty = false := by simpa using hnonempty
  have hresolve : (Naming.standard root).resolve keypath = .ok (standardTypeName keypath) := by
    simp only [Naming.resolve, Naming.standard, OrderedMap.get?_empty, hpath, Generator.propose]
    exact congrArg Except.ok hproper
  exact nameAt_eq_ok_iff.mpr ⟨_, hresolve, by simp [Naming.standard, OrderedMap.contains]⟩

/-- A position goes by its name, unless it has none or the name is taken. -/
theorem keyAt_standard (root : Option Name) (enclosing : List Keypath) {keypath : Keypath}
    (hnonempty : keypath ≠ []) (hascii : Text.IsAscii keypath) :
    (Naming.standard root).keyAt enclosing keypath =
      .ok (match standardTypeName keypath with
        | none => keypath
        | some name => if name ∈ enclosing then keypath else name) := by
  refine keyAt_eq_ok_iff.mpr ⟨_, nameAt_standard root enclosing hnonempty hascii, ?_⟩
  cases standardTypeName keypath with
  | none => rfl
  | some name => by_cases htaken : name ∈ enclosing <;> simp [Option.filter, htaken]

/-- The root has a name in any case. -/
theorem nameAt_standard_root (root : Option Name) :
    (Naming.standard root).nameAt [] [] = .ok (some (rootName root)) := by
  have hresolve : (Naming.standard root).resolve [] = .ok (some (rootName root)) := rfl
  exact nameAt_eq_ok_iff.mpr ⟨_, hresolve, rfl⟩

/-- The key of the root is its name. -/
theorem keyAt_standard_root (root : Option Name) :
    (Naming.standard root).keyAt [] [] = .ok (rootName root) :=
  keyAt_eq_ok_iff.mpr ⟨_, nameAt_standard_root root, rfl⟩

/-! ## One step down -/

/-- A step down leads to a heavier position, or to one of the same name further along a path. -/
theorem partPosition_spec (kind : Kind) {key : Keypath} {field : Text} (hnonempty : key ≠ [])
    (hascii : Text.IsAscii key) (hfield : field.IsAscii) :
    partPosition kind key field ≠ [] ∧ Text.IsAscii (partPosition kind key field) ∧
      (weight key < weight (partPosition kind key field) ∨
        weight key = weight (partPosition kind key field) ∧
          standardTypeName (partPosition kind key field) = standardTypeName key ∧
          '.' ∈ partPosition kind key field) := by
  have hchild : childKeypath key field = key ++ '.' :: field := by
    simp [childKeypath, hnonempty]
  cases kind with
  | array =>
      refine ⟨by simp [partPosition, elementKeypath, hnonempty], isAscii_element hascii, ?_⟩
      exact Or.inl (weight_lt_element key)
  | _ =>
      simp only [partPosition, hchild]
      refine ⟨by simp, isAscii_child hascii hfield, ?_⟩
      rcases weight_child hascii hfield with hheavier | ⟨hweight, hsame⟩
      · exact Or.inl hheavier
      · exact Or.inr ⟨hweight, hsame, by simp⟩

namespace StandardPosition

/-- No key down to here is heavier than this one. -/
theorem weight_le {enclosing : List Keypath} {key : Keypath} (hpos : StandardPosition enclosing key)
    {above : Keypath} (hmem : above ∈ key :: enclosing) : weight above ≤ weight key := by
  rcases List.mem_cons.mp hmem with rfl | hmem
  · exact Nat.le_refl _
  · exact hpos.lighter above hmem

/-- A name that no position above can have is kept. -/
theorem step_heavier {enclosing : List Keypath} {key position : Keypath} {name : Name}
    (hpos : StandardPosition enclosing key) (hascii : Text.IsAscii position)
    (hname : standardTypeName position = some name) (hheavier : weight key < weight position) :
    name ∉ key :: enclosing ∧ partKey key position = name ∧
      StandardPosition (key :: enclosing) name := by
  obtain ⟨hnonempty, hnameAscii, hself, hweight⟩ := standardTypeName_spec hascii hname
  have hfresh : ∀ above ∈ key :: enclosing, weight above < weight name := by
    intro above hmem
    have hle := hpos.weight_le hmem
    omega
  have hother : standardTypeName key ≠ some name := by
    intro hsame
    have hequal := (standardTypeName_spec hpos.ascii hsame).2.2.2
    omega
  refine ⟨fun hmem => absurd (hfresh name hmem) (Nat.lt_irrefl _), ?_, ?_⟩
  · simp [partKey, hname, hother]
  · exact ⟨hnonempty, hnameAscii, fun above hmem => Nat.le_of_lt (hfresh above hmem),
      .named hself⟩

/-- A step that adds no word gives the name of the key above up where that was done or
where that key is the name. -/
theorem step_level {enclosing : List Keypath} {key position : Keypath} {name : Name}
    (hpos : StandardPosition enclosing key) (hnonempty : position ≠ [])
    (hascii : Text.IsAscii position) (hname : standardTypeName position = some name)
    (hsame : standardTypeName position = standardTypeName key)
    (hweight : weight key = weight position) (hpath : '.' ∈ position) :
    partKey key position = (if name ∈ key :: enclosing then position else name) ∧
      StandardPosition (key :: enclosing) (partKey key position) := by
  have hkey : standardTypeName key = some name := hsame.symm.trans hname
  have hlighter : ∀ above ∈ key :: enclosing, weight above ≤ weight position :=
    fun above hmem => hweight ▸ hpos.weight_le hmem
  by_cases hgiven : name = key ∨ '.' ∈ key
  · have htaken : name ∈ key :: enclosing := by
      rcases hpos.origin with hnamed | ⟨hdot, htaken⟩ | ⟨htop, hplain⟩
      · have heq : name = key := Option.some.inj (hkey.symm.trans hnamed)
        simp [heq]
      · exact List.mem_cons_of_mem key (htaken name hkey)
      · have heq : name = key := hgiven.resolve_right hplain
        simp [heq]
    have hpart : partKey key position = position := by simp [partKey, hname, hkey, hgiven]
    rw [hpart, if_pos htaken]
    refine ⟨rfl, hnonempty, hascii, hlighter, .givenUp hpath fun other hother => ?_⟩
    obtain rfl : name = other := Option.some.inj (hname.symm.trans hother)
    exact htaken
  · obtain ⟨hother, hplain⟩ := not_or.mp hgiven
    have htop : enclosing = [] := by
      rcases hpos.origin with hnamed | ⟨hdot, htaken⟩ | ⟨htop, -⟩
      · exact absurd (Option.some.inj (hkey.symm.trans hnamed)) hother
      · exact absurd hdot hplain
      · exact htop
    have hfree : name ∉ key :: enclosing := by simp [htop, hother]
    have hpart : partKey key position = name := by simp [partKey, hname, hgiven]
    obtain ⟨hsome, hnameAscii, hself, hequal⟩ := standardTypeName_spec hascii hname
    rw [hpart, if_neg hfree]
    refine ⟨rfl, hsome, hnameAscii, fun above hmem => ?_, .named hself⟩
    exact hequal ▸ hlighter above hmem

/-- **One step down.**  The key of a part is settled by the key above it, and the invariant
goes on from there. -/
theorem step {enclosing : List Keypath} {key : Keypath} (root : Option Name) (kind : Kind)
    {field : Text} (hpos : StandardPosition enclosing key) (hfield : field.IsAscii) :
    (Naming.standard root).keyAt (key :: enclosing) (partPosition kind key field) =
        .ok (partKey key (partPosition kind key field)) ∧
      StandardPosition (key :: enclosing) (partKey key (partPosition kind key field)) := by
  obtain ⟨hnonempty, hascii, hstep⟩ := partPosition_spec kind hpos.nonempty hpos.ascii hfield
  generalize partPosition kind key field = position at hnonempty hascii hstep ⊢
  rw [keyAt_standard root _ hnonempty hascii]
  cases hname : standardTypeName position with
  | none =>
      have hweightless : weight position = 0 := weight_eq_zero_of_no_name hascii hname
      obtain hheavier | ⟨hweight, -, hpath⟩ := hstep
      · omega
      have hpart : partKey key position = position := by simp [partKey, hname]
      rw [hpart]
      refine ⟨rfl, hnonempty, hascii, fun above hmem => ?_, .givenUp hpath fun name hsome => ?_⟩
      · exact hweight ▸ hpos.weight_le hmem
      · rw [hname] at hsome
        cases hsome
  | some name =>
      obtain hheavier | ⟨hweight, hsame, hpath⟩ := hstep
      · obtain ⟨hfree, hpart, hnext⟩ := hpos.step_heavier hascii hname hheavier
        rw [hpart]
        exact ⟨by simp only [hfree, if_false], hnext⟩
      · obtain ⟨hpart, hnext⟩ := hpos.step_level hnonempty hascii hname hsame hweight hpath
        exact ⟨congrArg Except.ok hpart.symm, hnext⟩

end StandardPosition

/-- The position of a root. -/
theorem standardPosition_root {root : Name} (hroot : Text.IsAsciiIdentifier root) :
    StandardPosition [] root := by
  obtain ⟨hidentifier, hascii⟩ := hroot
  cases root with
  | nil => cases hidentifier
  | cons c rest =>
      rw [Text.isIdentifier, Bool.and_eq_true, List.all_eq_true] at hidentifier
      obtain ⟨hstart, hlater⟩ := hidentifier
      have hplain : '.' ∉ c :: rest := by
        intro hmem
        rcases List.mem_cons.mp hmem with rfl | hmem
        · exact absurd hstart (by decide)
        · exact absurd (hlater _ hmem) (by decide)
      exact ⟨by simp, hascii, by simp, .root rfl hplain⟩

/-! ## Walks -/

mutual

/-- The names of all members in a sample, at any depth. -/
def Sample.memberNames : Sample → List Text
  | .scalar _ => []
  | .array items => itemNames items
  | .object members => entryNames members

/-- The names of all members in some samples. -/
def itemNames : List Sample → List Text
  | [] => []
  | item :: rest => item.memberNames ++ itemNames rest

/-- The names of some members and of all members in them. -/
def entryNames : List (Text × Sample) → List Text
  | [] => []
  | (member, sample) :: rest => member :: (sample.memberNames ++ entryNames rest)

end

/-- The member names in items are those in each of them. -/
theorem mem_itemNames_iff (items : List Sample) (name : Text) :
    name ∈ itemNames items ↔ ∃ item ∈ items, name ∈ item.memberNames := by
  induction items with
  | nil => simp [itemNames]
  | cons item rest ih => simp [itemNames, ih]

/-- The member names in members are their own, and those in their values. -/
theorem mem_entryNames_iff (members : List (Text × Sample)) (name : Text) :
    name ∈ entryNames members ↔
      ∃ entry ∈ members, name = entry.1 ∨ name ∈ entry.2.memberNames := by
  induction members with
  | nil => simp [entryNames]
  | cons entry rest ih => simp [entryNames, ih, or_assoc]

/-- A sighting of ASCII data at a position of the standard naming, whose parts are stored where
that naming puts them. -/
structure Sighting.IsStandard (s : Sighting) : Prop where
  position : ∃ enclosing, StandardPosition enclosing s.key
  ascii : ∀ entry ∈ s.fields, entry.1.IsAscii
  parts : ∀ entry ∈ s.fields, entry.2.key = partKey s.key (partPosition s.kind s.key entry.1)

/-- **Standard walks.**  Under the standard naming the walk of ASCII data comes to its end and
makes standard sightings only. -/
theorem walk_standard (root : Option Name) {sample : Sample} {enclosing : List Keypath}
    {keypath key : Keypath} (hnames : ∀ name ∈ sample.memberNames, name.IsAscii)
    (hkey : (Naming.standard root).keyAt enclosing keypath = .ok key)
    (hpos : StandardPosition enclosing key) :
    (walk (Naming.standard root) enclosing keypath sample).outcome = .ok key ∧
      ∀ s, .sighted s ∈ (walk (Naming.standard root) enclosing keypath sample).events →
        s.IsStandard := by
  induction sample using Sample.ind generalizing enclosing keypath key with
  | scalar kind =>
      rw [walk_scalar_eq_iff.mpr ⟨hkey, rfl⟩]
      refine ⟨rfl, fun s hs => ?_⟩
      obtain rfl : s = { key, kind := .scalar kind } := by simpa using hs
      exact ⟨⟨enclosing, hpos⟩, by simp, by simp⟩
  | array items ih =>
      have hnone : Text.IsAscii [] := by simp [Text.IsAscii]
      obtain ⟨helement, hnext⟩ := hpos.step root .array hnone
      have hitems := fun item hmem => ih item hmem
        (fun name hname => hnames name ((mem_itemNames_iff items name).mpr ⟨item, hmem, hname⟩))
        helement hnext
      rw [walk_array_eq_iff.mpr ⟨_, _, hkey, helement,
        walkItems_eq_iff.mpr ⟨fun item hmem => ⟨_, (hitems item hmem).1⟩, rfl⟩, rfl⟩]
      refine ⟨rfl, fun s hs => ?_⟩
      rcases List.mem_append.mp hs with hinner | hlast
      · obtain ⟨item, hmem, hitem⟩ := List.mem_flatMap.mp hinner
        exact (hitems item hmem).2 s hitem
      · simp only [List.mem_singleton, Event.sighted.injEq] at hlast
        subst hlast
        have hmark : Text.IsAscii elementMark := by decide
        refine ⟨⟨enclosing, hpos⟩, by simpa using hmark, fun entry hentry => ?_⟩
        obtain rfl := List.mem_singleton.mp hentry
        rfl
  | object members ih =>
      obtain ⟨name, hname, hnamed⟩ := keyAt_eq_ok_iff.mp hkey
      have hchild : ∀ entry ∈ members, Text.IsAscii entry.1 := fun entry hmem =>
        hnames entry.1 ((mem_entryNames_iff members _).mpr ⟨entry, hmem, Or.inl rfl⟩)
      have hmembers := fun entry hmem => ih entry hmem
        (fun name hname =>
          hnames name ((mem_entryNames_iff members name).mpr ⟨entry, hmem, Or.inr hname⟩))
        (hpos.step root .object (hchild entry hmem)).1
        (hpos.step root .object (hchild entry hmem)).2
      rw [walk_object_eq_iff.mpr ⟨name, _, _, hname, hnamed,
        walkMembers_eq_iff.mpr ⟨fun field => partKey key (partPosition .object key field),
          fun entry hmem => (hmembers entry hmem).1, rfl, rfl⟩, rfl⟩]
      refine ⟨rfl, fun s hs => ?_⟩
      rcases List.mem_append.mp hs with hregistered | hs
      · simp [registration] at hregistered
      rcases List.mem_append.mp hs with hinner | hlast
      · obtain ⟨entry, hmem, hentry⟩ := List.mem_flatMap.mp hinner
        exact (hmembers entry hmem).2 s hentry
      · simp only [List.mem_singleton, Event.sighted.injEq] at hlast
        subst hlast
        refine ⟨⟨enclosing, hpos⟩, fun entry hentry => ?_, fun entry hentry => ?_⟩
        · obtain ⟨member, hmember, rfl⟩ := List.mem_map.mp hentry
          exact hchild member hmember
        · obtain ⟨member, -, rfl⟩ := List.mem_map.mp hentry
          rfl

/-- The way of a batch under the standard naming, sample by sample. -/
theorem way_standard {root : Option Name} (hroot : Text.IsAsciiIdentifier (rootName root))
    {samples : List Sample}
    (hnames : ∀ sample ∈ samples, ∀ name ∈ sample.memberNames, name.IsAscii) :
    (Naming.standard root).way samples =
        ⟨samples.flatMap fun sample => (walk (Naming.standard root) [] [] sample).events,
          .ok (rootName root)⟩ ∧
      ∀ s, .sighted s ∈ ((Naming.standard root).way samples).events → s.IsStandard := by
  have hsamples := fun sample hmem => walk_standard root (hnames sample hmem)
    (keyAt_standard_root root) (standardPosition_root hroot)
  have hway := Naming.way_eq_iff.mpr ⟨keyAt_standard_root root,
    fun sample hmem => ⟨_, (hsamples sample hmem).1⟩, rfl⟩
  refine ⟨hway, fun s hs => ?_⟩
  rw [hway] at hs
  obtain ⟨sample, hmem, hsample⟩ := List.mem_flatMap.mp hs
  exact (hsamples sample hmem).2 s hsample

end Exemplar
