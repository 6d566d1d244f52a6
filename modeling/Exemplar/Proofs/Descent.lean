import Exemplar.Proofs.Attachment
import Exemplar.Proofs.StandardName.Plain
import Exemplar.Proofs.WellFormed

/-!
# Keys on the way down

The keys around a position are those of a way down from the root.  Where the caller gives no
names, a position is stored under a generated name that none of them has, or else under its
keypath.  A generated name therefore never repeats a key of the way, and `keys_distinct_iff`
says what that leaves: the keys of all ways are distinct exactly when no keypath that is used
for want of a name is the key of a position around it.

Keypaths and names share one namespace, so this can fail when a name looks like a keypath
(`dotted_root_repeated`).  When all names are plain it cannot: every key then starts with the
name of a position of the way, its `stem`, keys of one stem get longer on the way down, and a new
stem is a new name (`Lineage.part`).

When nothing is named below the root, the key of a position is the name of the root followed by
the spelling of the position (`StoresAt.eq_spell`), and positions share a key exactly when they
are spelled alike (`shared_key_iff`).
-/

namespace Exemplar

/-! ## Ways down -/

namespace Naming

/-- On no way from the root down to a part of a sample a key occurs twice. -/
def NeverRepeats (naming : Naming) (samples : List Sample) : Prop :=
  ∀ enclosing key sample, naming.Stores samples enclosing key sample → (key :: enclosing).Nodup

/-- Every name of the naming is plain, unless it is the keypath that it is for. -/
def PlainNames (naming : Naming) : Prop :=
  ∀ keypath name, naming.resolve keypath = .ok (some name) →
    Text.IsPlain name ∨ name = keypath

end Naming

/-- What is known of the key of a position and of the keys around it when all names are plain. -/
structure Lineage (enclosing : List Keypath) (key : Keypath) : Prop where
  nonempty : key ≠ []
  distinct : (key :: enclosing).Nodup
  stems : ∀ above ∈ key :: enclosing, stem above ∈ key :: enclosing
  longer : ∀ above ∈ enclosing, stem above = stem key → above.length < key.length

/-- The step from a value of some kind to the values of a field. -/
def Kind.stepTo (kind : Kind) (field : Text) : Step :=
  match kind with
  | .array => .element
  | _ => .member field

/-- A step down adds its spelling to the key. -/
theorem partPosition_eq_append (kind : Kind) {key : Keypath} (field : Text)
    (hnonempty : key ≠ []) :
    partPosition kind key field = key ++ (kind.stepTo field).spelling := by
  have hchild : childKeypath key field = key ++ '.' :: field := by
    simp [childKeypath, hnonempty]
  cases kind with
  | array => rfl
  | _ => exact hchild

/-- A step down makes a key longer and leaves its stem alone. -/
theorem partPosition_stem (kind : Kind) {key : Keypath} (field : Text) (hnonempty : key ≠ []) :
    stem (partPosition kind key field) = stem key ∧
      key.length < (partPosition kind key field).length := by
  rw [partPosition_eq_append kind field hnonempty]
  refine ⟨stem_append_spelling key _, ?_⟩
  rw [List.length_append]
  exact Nat.lt_add_of_pos_right (List.length_pos_iff.mpr (Step.spelling_ne_nil _))

section

variable {naming : Naming} {samples : List Sample} {enclosing : List Keypath}
  {keypath key child : Keypath} {sample : Sample}

/-- Without given names a position has a name that is not taken, or is stored under its keypath. -/
theorem keyAt_cases (hgiven : naming.given = .empty)
    (hkey : naming.keyAt enclosing keypath = .ok key) :
    naming.resolve keypath = .ok (some key) ∧ key ∉ enclosing ∨
      naming.nameAt enclosing keypath = .ok none ∧ key = keypath := by
  obtain ⟨name, hname, rfl⟩ := keyAt_eq_ok_iff.mp hkey
  cases name with
  | none => exact Or.inr ⟨hname, rfl⟩
  | some text =>
      obtain ⟨found, hresolve, hkept⟩ := nameAt_eq_ok_iff.mp hname
      obtain ⟨rfl, hfree⟩ := Option.filter_eq_some_iff.mp hkept.symm
      refine Or.inl ⟨hresolve, fun htaken => ?_⟩
      simp only [hgiven, OrderedMap.contains] at hfree
      simp [show text ∈ enclosing from htaken] at hfree

/-- **One step down.**  The step to a part, whether it leads to a name or to a keypath, goes on
with a lineage. -/
theorem Lineage.part (hgiven : naming.given = .empty) (hplain : naming.PlainNames)
    (hline : Lineage enclosing key) (kind : Kind) (field : Text)
    (hkey : naming.keyAt (key :: enclosing) (partPosition kind key field) = .ok child) :
    Lineage (key :: enclosing) child := by
  obtain ⟨hstem, hlonger⟩ := partPosition_stem kind field hline.nonempty
  have hnonempty : child ≠ [] := ne_nil_of_keyAt hkey fun hposition => by
    simp [hposition] at hlonger
  have hchild : Text.IsPlain child ∧ child ∉ key :: enclosing ∨
      child = partPosition kind key field := by
    rcases keyAt_cases hgiven hkey with ⟨hresolve, hfree⟩ | ⟨-, hsame⟩
    · exact (hplain _ _ hresolve).imp_left fun hname => ⟨hname, hfree⟩
    · exact Or.inr hsame
  rcases hchild with ⟨hname, hfree⟩ | rfl
  · have hself : stem child = child := stem_of_plain hname
    refine ⟨hnonempty, List.nodup_cons.mpr ⟨hfree, hline.distinct⟩, fun above hmem => ?_,
      fun above hmem hsame => ?_⟩
    · rcases List.mem_cons.mp hmem with rfl | hmem
      · rw [hself]
        exact List.mem_cons_self
      · exact List.mem_cons_of_mem child (hline.stems above hmem)
    · -- The stem of a key above is a key above, and the new name is none of these.
      exact absurd (hself ▸ hsame ▸ hline.stems above hmem) hfree
  · have hshorter : ∀ above ∈ key :: enclosing,
        stem above = stem (partPosition kind key field) →
          above.length < (partPosition kind key field).length := by
      intro above hmem hsame
      rcases List.mem_cons.mp hmem with rfl | hmem
      · exact hlonger
      · exact (hline.longer above hmem (hsame.trans hstem)).trans hlonger
    have hfree : partPosition kind key field ∉ key :: enclosing :=
      fun hmem => absurd (hshorter _ hmem rfl) (Nat.lt_irrefl _)
    refine ⟨hnonempty, List.nodup_cons.mpr ⟨hfree, hline.distinct⟩, fun above hmem => ?_,
      hshorter⟩
    rcases List.mem_cons.mp hmem with rfl | hmem
    · rw [hstem]
      exact List.mem_cons_of_mem _ (hline.stems key List.mem_cons_self)
    · exact List.mem_cons_of_mem _ (hline.stems above hmem)

/-- **The whole way.**  Whatever a batch stores lies at the end of a lineage. -/
theorem Naming.Stores.lineage (hgiven : naming.given = .empty) (hplain : naming.PlainNames)
    (hstored : naming.Stores samples enclosing key sample) : Lineage enclosing key := by
  induction hstored with
  | @root sample key hsample hkey =>
      have hnonempty : key ≠ [] := ne_nil_of_keyAt hkey fun _ => rfl
      have hself : stem key = key := by
        rcases keyAt_cases hgiven hkey with ⟨hresolve, -⟩ | ⟨-, hempty⟩
        · exact stem_of_plain ((hplain _ _ hresolve).resolve_right hnonempty)
        · exact absurd hempty hnonempty
      exact ⟨hnonempty, by simp, by simp [hself], by simp⟩
  | part hstored hheld hkey ih => exact ih.part hgiven hplain _ _ hkey

/-- No name repeats that is no path, as only such a name is a keypath of its own. -/
theorem neverRepeats_of_plainNames (hgiven : naming.given = .empty) (hplain : naming.PlainNames)
    (samples : List Sample) : naming.NeverRepeats samples :=
  fun _ _ _ hstored => (hstored.lineage hgiven hplain).distinct

/-- **Distinct keys.**  Where the caller gives no names, the keys of every way down are distinct
exactly when no keypath that is used for want of a name is the key of a position around it; and
so they are whenever every name is plain or the keypath that it is for. -/
theorem keys_distinct_iff (hgiven : naming.given = .empty) (samples : List Sample) :
    (naming.NeverRepeats samples ↔
      ∀ enclosing key sample field part, naming.Stores samples enclosing key sample →
        sample.Holds field part →
        naming.nameAt (key :: enclosing) (partPosition sample.kind key field) = .ok none →
        partPosition sample.kind key field ∉ key :: enclosing) ∧
      (naming.PlainNames → naming.NeverRepeats samples) := by
  refine ⟨⟨fun hnever enclosing key sample field part hstored hheld hname => ?_, ?_⟩,
    fun hplain => neverRepeats_of_plainNames hgiven hplain samples⟩
  · have hkey : naming.keyAt (key :: enclosing) (partPosition sample.kind key field) =
        .ok (partPosition sample.kind key field) := keyAt_eq_ok_iff.mpr ⟨none, hname, rfl⟩
    exact (List.nodup_cons.mp (hnever _ _ _ (hstored.part hheld hkey))).1
  · intro hfallback enclosing key sample hstored
    induction hstored with
    | root hsample hkey => simp
    | part hstored hheld hkey ih =>
        refine List.nodup_cons.mpr ⟨?_, ih⟩
        rcases keyAt_cases hgiven hkey with ⟨-, hfree⟩ | ⟨hname, rfl⟩
        · exact hfree
        · exact hfallback _ _ _ _ _ hstored hheld hname

end

/-- Under the standard naming only the root has a name that is not generated. -/
theorem standardTypeName_of_resolve {root : Option Name} {position : Keypath} {name : Name}
    (hposition : position ≠ []) (hresolve : (Naming.standard root).resolve position =
      .ok (some name)) : standardTypeName position = some name := by
  have hchosen : (Naming.standard root).chosen position =
      .ok (properName (standardTypeName position)) := rfl
  rw [resolve_eq, hchosen] at hresolve
  have hname := Except.ok.inj hresolve
  simp only [if_neg hposition] at hname
  exact (Option.filter_eq_some_iff.mp hname).1

/-- Under the standard naming all names but perhaps that of the root are plain. -/
theorem plainNames_standard {root : Option Name} (hroot : Text.IsPlain (rootName root)) :
    (Naming.standard root).PlainNames := by
  intro keypath name hresolve
  by_cases htop : keypath = []
  · subst htop
    obtain rfl : rootName root = name := Option.some.inj (Except.ok.inj hresolve)
    exact Or.inl hroot
  · exact Or.inl (isPlain_standardTypeName (standardTypeName_of_resolve htop hresolve))

/-- Under the standard naming the keys of every way down are distinct, whatever the members are
called, when the name of the root is an identifier. -/
theorem neverRepeats_standard {root : Option Name}
    (hroot : Text.isIdentifier (rootName root) = true) (samples : List Sample) :
    (Naming.standard root).NeverRepeats samples :=
  neverRepeats_of_plainNames rfl (plainNames_standard (isPlain_of_isIdentifier hroot)) samples

/-- A naming that calls the member `a` of the root `Foo.b`, and the member `x` of that one `Foo`. -/
def dottedNames : Naming where
  generator := some (.custom fun keypath => .ok (
    if keypath = "Root.a".toList then some "Foo.b"
    else if keypath = "Foo.b.x".toList then some "Foo" else none))

/-- The member `b` of a `Foo` has no name, and its keypath is the name of a position above. -/
theorem keys_distinct_iff_dottedNames :
    let sample : Sample := .object [("a", .object [("x", .object [("b", .scalar .number)])])]
    dottedNames.given = .empty ∧ ¬ dottedNames.NeverRepeats [sample] := by
  intro sample
  have hroot : dottedNames.Stores [sample] [] "Root" _ := .root List.mem_cons_self rfl
  have hmember : dottedNames.Stores [sample] ["Root"] "Foo.b" _ :=
    hroot.part (.member List.mem_cons_self) rfl
  have hfoo : dottedNames.Stores [sample] ["Foo.b", "Root"] "Foo" _ :=
    hmember.part (.member List.mem_cons_self) rfl
  refine ⟨rfl, fun hnever => ?_⟩
  have hfree :=
    (keys_distinct_iff rfl _).1.mp hnever _ _ _ _ _ hfoo (.member List.mem_cons_self) rfl
  exact absurd hfree (by decide)

/-- **A repeated key.**  A root that is called `Root.` has a member without a name of its own,
which is called `Root` by the generator; the member of that one is named `Root` again, gives the
name up and has the key of the root for its keypath.  So data without cycles gets a recursive
type. -/
theorem dotted_root_repeated :
    let sample : Sample := .object [("", .object [("", .scalar .number)])]
    ∃ after, Builder.addBatch {} (Naming.standard (some "Root.")) false { samples := [sample] } =
        (.ok "Root.", after) ∧
      (Naming.standard (some "Root.")).Stores [sample] ["Root", "Root."] "Root."
        (.scalar .number) ∧
      ¬ (Naming.standard (some "Root.")).NeverRepeats [sample] ∧
      after.model.child? "Root." .object "" = some "Root".toList ∧
      after.model.child? "Root" .object "" = some "Root.".toList := by
  intro sample
  have hok : Builder.addBatch {} (Naming.standard (some "Root.")) false { samples := [sample] } =
      (.ok "Root.", _) := rfl
  have hroot : (Naming.standard (some "Root.")).Stores [sample] [] "Root." _ :=
    .root List.mem_cons_self rfl
  have hmember : (Naming.standard (some "Root.")).Stores [sample] ["Root."] "Root" _ :=
    hroot.part (.member List.mem_cons_self) rfl
  have hrepeated : (Naming.standard (some "Root.")).Stores [sample] ["Root", "Root."] "Root."
      (.scalar .number) := hmember.part (.member List.mem_cons_self) rfl
  refine ⟨_, hok, hrepeated, fun hnever => ?_, by decide +kernel, by decide +kernel⟩
  exact absurd (hnever _ _ _ hrepeated) (by decide)

/-! ## Positions -/

/-- **Storage by position.**  A sample has a part at a position, and stores it under a key, below
the keys of the samples around it. -/
inductive Naming.StoresAt (naming : Naming) (sample : Sample) :
    List Step → List Keypath → Keypath → Sample → Prop
  | root {key : Keypath} (hkey : naming.keyAt [] [] = .ok key) :
      StoresAt naming sample [] [] key sample
  | part {position : List Step} {enclosing : List Keypath} {key child : Keypath}
      {whole part : Sample} {field : Text}
      (hstored : StoresAt naming sample position enclosing key whole)
      (hheld : whole.Holds field part)
      (hkey : naming.keyAt (key :: enclosing) (partPosition whole.kind key field) = .ok child) :
      StoresAt naming sample (position ++ [whole.kind.stepTo field]) (key :: enclosing) child part

section

variable {naming : Naming} {samples : List Sample} {sample part other : Sample}
  {position otherPosition : List Step} {enclosing otherEnclosing : List Keypath}
  {key otherKey : Keypath}

/-- What a batch stores stands at some position of one of its samples. -/
theorem stores_iff_exists_storesAt :
    naming.Stores samples enclosing key part ↔
      ∃ sample ∈ samples, ∃ position, naming.StoresAt sample position enclosing key part := by
  constructor
  · intro hstored
    induction hstored with
    | root hgiven hkey => exact ⟨_, hgiven, [], .root hkey⟩
    | part hstored hheld hkey ih =>
        obtain ⟨sample, hmem, position, hwhole⟩ := ih
        exact ⟨sample, hmem, _, hwhole.part hheld hkey⟩
  · rintro ⟨sample, hmem, position, hstored⟩
    induction hstored with
    | root hkey => exact .root hmem hkey
    | part hstored hheld hkey ih => exact ih.part hheld hkey

/-- Without given names and without a generator nothing is named but the root. -/
theorem resolve_of_unnamed (hgiven : naming.given = .empty) (hgenerator : naming.generator = none)
    (keypath : Keypath) :
    naming.resolve keypath = .ok (if keypath = [] then some (rootName naming.root) else none) := by
  have hchosen : naming.chosen keypath = .ok none := by
    rw [Naming.chosen, hgiven, hgenerator, OrderedMap.get?_empty]
    rfl
  rw [resolve_eq, hchosen]
  rfl

/-- Where nothing is named, a key is the name of the root and the spelling of the position. -/
theorem Naming.StoresAt.eq_spell (hgiven : naming.given = .empty)
    (hgenerator : naming.generator = none)
    (hstored : naming.StoresAt sample position enclosing key part) :
    key ≠ [] ∧ key = rootName naming.root ++ spell position := by
  have hresolve := resolve_of_unnamed hgiven hgenerator
  induction hstored with
  | root hkey =>
      have hnonempty := ne_nil_of_keyAt hkey fun _ => rfl
      refine ⟨hnonempty, ?_⟩
      rcases keyAt_cases hgiven hkey with ⟨hname, -⟩ | ⟨-, hempty⟩
      · rw [hresolve, if_pos rfl] at hname
        simpa [spell, eq_comm] using hname
      · exact absurd hempty hnonempty
  | @part position enclosing key child whole part field hstored hheld hkey ih =>
      obtain ⟨hnonempty, hspelled⟩ := ih
      have hposition := partPosition_eq_append whole.kind field hnonempty
      have hsome : partPosition whole.kind key field ≠ [] := by simp [hposition, hnonempty]
      rcases keyAt_cases hgiven hkey with ⟨hname, -⟩ | ⟨-, rfl⟩
      · rw [hresolve, if_neg hsome] at hname
        cases hname
      · refine ⟨hsome, ?_⟩
        rw [hposition, hspelled, List.append_assoc]
        simp [spell]

/-- **Shared keys.**  Where nothing but the root is named, two positions of a sample share a key
exactly when a reader of keypaths takes them for one position: when cutting the names of members
at their dots, and the element marks off the pieces, leaves the same steps.  Positions whose
names are plain share a key only when they are the same. -/
theorem shared_key_iff (hgiven : naming.given = .empty) (hgenerator : naming.generator = none)
    (hstored : naming.StoresAt sample position enclosing key part)
    (hother : naming.StoresAt sample otherPosition otherEnclosing otherKey other) :
    (key = otherKey ↔ refined position = refined otherPosition) ∧
      ((∀ step ∈ position ++ otherPosition, step.IsPlain) →
        (key = otherKey ↔ position = otherPosition)) := by
  have hkeys : key = otherKey ↔ refined position = refined otherPosition := by
    rw [(hstored.eq_spell hgiven hgenerator).2, (hother.eq_spell hgiven hgenerator).2,
      List.append_cancel_left_eq, spell_inj_iff]
  refine ⟨hkeys, fun hplain => ?_⟩
  rw [hkeys, refined_of_plain fun step hmem => hplain step (List.mem_append_left _ hmem),
    refined_of_plain fun step hmem => hplain step (List.mem_append_right _ hmem)]

end

/-- The naming of a caller who wants no names. -/
def Naming.positional : Naming where
  generator := none

/-- A member in the elements of a list, and a member whose name spells the path to it: they share a
key, and the steps to them are the same when cut at dots and marks. -/
theorem shared_key_iff_marks :
    let sample : Sample := .object [("a", .array [.object [("b", .scalar .number)]]),
      ("a[].b", .scalar .string)]
    Naming.positional.StoresAt sample [.member "a", .element, .member "b"]
        ["Root.a[]", "Root.a", "Root"] "Root.a[].b" (.scalar .number) ∧
      Naming.positional.StoresAt sample [.member "a[].b"] ["Root"] "Root.a[].b"
        (.scalar .string) ∧
      refined [.member "a", .element, .member "b"] = refined [.member "a[].b"] := by
  intro sample
  have hroot : Naming.positional.StoresAt sample [] [] "Root" _ := .root rfl
  have hlist : Naming.positional.StoresAt sample [.member "a"] ["Root"] "Root.a" _ :=
    hroot.part (.member List.mem_cons_self) rfl
  have hitem : Naming.positional.StoresAt sample [.member "a", .element] ["Root.a", "Root"]
      "Root.a[]" _ := hlist.part (.item List.mem_cons_self) rfl
  have hinner : Naming.positional.StoresAt sample [.member "a", .element, .member "b"]
      ["Root.a[]", "Root.a", "Root"] "Root.a[].b" (.scalar .number) :=
    hitem.part (.member List.mem_cons_self) rfl
  have houter : Naming.positional.StoresAt sample [.member "a[].b"] ["Root"] "Root.a[].b"
      (.scalar .string) := hroot.part (.member (List.mem_cons_of_mem _ List.mem_cons_self)) rfl
  exact ⟨hinner, houter, (shared_key_iff rfl rfl hinner houter).1.mp rfl⟩

/-- **A shared key.**  A member with a dot in its name shares the key of a member of a member, and
the types of the two values are taken for one type. -/
theorem dotted_member_shares_key :
    let sample : Sample := .object [("a", .object [("b", .scalar .number)]),
      ("a.b", .scalar .string)]
    ∃ after, Builder.addBatch {} .positional false { samples := [sample] } = (.ok "Root", after) ∧
      Naming.positional.StoresAt sample [.member "a", .member "b"] ["Root.a", "Root"] "Root.a.b"
        (.scalar .number) ∧
      Naming.positional.StoresAt sample [.member "a.b"] ["Root"] "Root.a.b" (.scalar .string) ∧
      (after.model.kinds "Root.a.b").keys = [.scalar .number, .scalar .string] := by
  intro sample
  have hok : Builder.addBatch {} .positional false { samples := [sample] } = (.ok "Root", _) := rfl
  have hroot : Naming.positional.StoresAt sample [] [] "Root" _ := .root rfl
  have hmember : Naming.positional.StoresAt sample [.member "a"] ["Root"] "Root.a" _ :=
    hroot.part (.member List.mem_cons_self) rfl
  exact ⟨_, hok, hmember.part (.member List.mem_cons_self) rfl,
    hroot.part (.member (List.mem_cons_of_mem _ List.mem_cons_self)) rfl, by decide +kernel⟩

end Exemplar
