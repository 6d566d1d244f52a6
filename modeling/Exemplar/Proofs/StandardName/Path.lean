import Exemplar.Proofs.Descent

/-!
# Standard names along a path

A position is named under the name of the position around it, not under the whole path from the
root.  For ASCII data this makes no difference.  A standard name is made of the words of a
keypath, and what it is made of, its `nameLetters`, is a homomorphism: a step down appends the
letters of the step (`nameLetters_below`), and to take a keypath's name in its place leaves its
letters alone (`nameLetters_name`), although it joins all words in one.  Whatever is found step
by step is therefore the name of the whole path (`name_along_path`).

So it is in a batch, too: whether the positions on the way got their names or had to give them
up, the name that is proposed for a position is the one of the path that spells it out
(`Naming.StoresAt.proposed_eq`).
-/

namespace Exemplar

/-! ## The letters of a name -/

/-- What the name of a keypath is made of: its words in a row, each with a capital. -/
def nameLetters (keypath : Keypath) : Text :=
  (keyWords keypath).flatMap Text.capitalize

/-- **Names by their letters.**  The letters of an ASCII keypath decide its name. -/
theorem standardTypeName_eq_letters {keypath : Keypath} (hascii : Text.IsAscii keypath) :
    standardTypeName keypath =
      if nameLetters keypath = [] then none else some (guardDigit (nameLetters keypath)) := by
  have hnone : nameLetters keypath = [] ↔ keyWords keypath = [] := by
    constructor
    · intro hletters
      by_contra hsome
      exact (flatMap_capitalize (isAsciiWord_of_mem_keyWords hascii) hsome).1.nonempty hletters
    · intro hwords
      rw [nameLetters, hwords, List.flatMap_nil]
  rw [standardTypeName_eq hascii, ← ite_congr (propext hnone) (fun _ => rfl) (fun _ => rfl)]
  rfl

/-- Keypaths of the same letters have the same name. -/
theorem standardTypeName_congr_letters {first second : Keypath} (hfirst : Text.IsAscii first)
    (hsecond : Text.IsAscii second) (hletters : nameLetters first = nameLetters second) :
    standardTypeName first = standardTypeName second := by
  rw [standardTypeName_eq_letters hfirst, standardTypeName_eq_letters hsecond, hletters]

/-- A name has the letters of the keypath that it is for. -/
theorem nameLetters_name {keypath : Keypath} {name : Name} (hascii : Text.IsAscii keypath)
    (hname : standardTypeName keypath = some name) : nameLetters name = nameLetters keypath := by
  have hwords := isAsciiWord_of_mem_keyWords hascii
  rw [standardTypeName_eq hascii] at hname
  by_cases hnone : keyWords keypath = []
  · rw [if_pos hnone] at hname
    cases hname
  · rw [if_neg hnone, Option.some.injEq] at hname
    calc nameLetters name
        = [nameLetters keypath].flatMap Text.capitalize := by
          rw [nameLetters, ← hname, keyWords_joinWords hwords hnone]
          rfl
      _ = Text.capitalize (nameLetters keypath) := List.flatMap_singleton ..
      _ = nameLetters keypath := (flatMap_capitalize hwords hnone).2.2

/-! ## Steps -/

/-- The keypath that a step leads to from another one. -/
def Step.below (key : Keypath) : Step → Keypath
  | member name => childKeypath key name
  | element => elementKeypath key

/-- The letters that a step adds. -/
def Step.letters : Step → Text
  | member name => nameLetters name
  | element => "Item"

/-- A step whose member name, if it has one, is ASCII. -/
def Step.IsAscii : Step → Prop
  | member name => Text.IsAscii name
  | element => True

instance (step : Step) : Decidable step.IsAscii := by
  cases step <;> unfold Step.IsAscii <;> infer_instance

/-- The name of the position that some steps lead to from a named one, each of them addressed
under the name that was found before it. -/
def nameAlong (name : Name) (position : List Step) : Option Name :=
  position.foldlM (fun above step => standardTypeName (step.below above)) name

section

variable {key : Keypath} {step : Step}

/-- A step below a key appends its spelling. -/
theorem Step.below_eq_append (hnonempty : key ≠ []) (step : Step) :
    step.below key = key ++ step.spelling := by
  cases step with
  | member name => simp [below, childKeypath, spelling, hnonempty]
  | element => rfl

/-- Parts stand where a step down leads. -/
theorem partPosition_eq_below (kind : Kind) (field : Text) (hnonempty : key ≠ []) :
    partPosition kind key field = (kind.stepTo field).below key := by
  rw [partPosition_eq_append kind field hnonempty, Step.below_eq_append hnonempty]

/-- **One step down.**  The letters of a step are added to those above. -/
theorem nameLetters_below (hnonempty : key ≠ []) (step : Step) :
    nameLetters (step.below key) = nameLetters key ++ step.letters := by
  rw [Step.below_eq_append hnonempty]
  cases step with
  | member name =>
      rw [nameLetters, Step.spelling, keyWords_child, List.flatMap_append]
      rfl
  | element =>
      have hitem : (["Item".toList] : List Text).flatMap Text.capitalize = "Item".toList := by
        decide
      rw [nameLetters, Step.spelling, ← elementKeypath, keyWords_element, List.flatMap_append,
        hitem]
      rfl

/-- A step in ASCII stays in ASCII. -/
theorem isAscii_below (hnonempty : key ≠ []) (hascii : Text.IsAscii key) (hstep : step.IsAscii) :
    Text.IsAscii (step.below key) := by
  rw [Step.below_eq_append hnonempty]
  cases step with
  | member name => exact isAscii_child hascii hstep
  | element => exact isAscii_element hascii

end

/-- A keypath with a name is not empty, and neither are its letters. -/
theorem ne_nil_of_named {keypath : Keypath} {name : Name} (hascii : Text.IsAscii keypath)
    (hname : standardTypeName keypath = some name) : keypath ≠ [] ∧ nameLetters keypath ≠ [] := by
  refine ⟨?_, fun hletters => ?_⟩
  · rintro rfl
    cases hname
  · rw [standardTypeName_eq_letters hascii, if_pos hletters] at hname
    cases hname

/-- **A name in the place of its keypath.**  A step down from a named keypath leads to a named
one, and to the same name whether it starts from the keypath or from its name. -/
theorem exists_name_below {keypath : Keypath} {name : Name} (hascii : Text.IsAscii keypath)
    (hname : standardTypeName keypath = some name) {step : Step} (hstep : step.IsAscii) :
    ∃ next, standardTypeName (step.below name) = some next ∧
      standardTypeName (step.below keypath) = some next := by
  obtain ⟨hnonempty, hletters⟩ := ne_nil_of_named hascii hname
  obtain ⟨hsome, hnameAscii, -⟩ := standardTypeName_spec hascii hname
  have hbelow := isAscii_below hnonempty hascii hstep
  have hsame : nameLetters (step.below name) = nameLetters (step.below keypath) := by
    rw [nameLetters_below hsome, nameLetters_below hnonempty, nameLetters_name hascii hname]
  have hnext : nameLetters (step.below keypath) ≠ [] := by
    simp [nameLetters_below hnonempty, hletters]
  refine ⟨guardDigit (nameLetters (step.below keypath)), ?_, ?_⟩
  · rw [standardTypeName_congr_letters (isAscii_below hsome hnameAscii hstep) hbelow hsame,
      standardTypeName_eq_letters hbelow, if_neg hnext]
  · rw [standardTypeName_eq_letters hbelow, if_neg hnext]

/-- All steps: names found one after the other come to the name of the whole path. -/
theorem exists_nameAlong {keypath : Keypath} {name : Name} {position : List Step}
    (hascii : Text.IsAscii keypath) (hname : standardTypeName keypath = some name)
    (hsteps : ∀ step ∈ position, step.IsAscii) :
    ∃ found, nameAlong name position = some found ∧
      standardTypeName (keypath ++ spell position) = some found := by
  induction position generalizing keypath name with
  | nil => exact ⟨name, rfl, by simpa [spell] using hname⟩
  | cons step later ih =>
      obtain ⟨hstep, hlater⟩ := List.forall_mem_cons.mp hsteps
      obtain ⟨hnonempty, -⟩ := ne_nil_of_named hascii hname
      obtain ⟨next, hunder, hwhole⟩ := exists_name_below hascii hname hstep
      obtain ⟨found, halong, hpath⟩ := ih (isAscii_below hnonempty hascii hstep) hwhole hlater
      refine ⟨found, ?_, ?_⟩
      · rw [nameAlong, List.foldlM_cons, hunder]
        exact halong
      · rw [Step.below_eq_append hnonempty, List.append_assoc] at hpath
        exact hpath

/-- **Names along paths.**  An ASCII keypath may be replaced by its name: the name is its own
name, members and elements below it are named as those below the keypath, and so is every
position below, if each step on the way to it is addressed under the name before it: it is named,
by the name of the whole path. -/
theorem name_along_path {keypath : Keypath} {name : Name} (hascii : Text.IsAscii keypath)
    (hname : standardTypeName keypath = some name) :
    standardTypeName name = some name ∧
      (∀ member, Text.IsAscii member →
        standardTypeName (childKeypath name member) =
          standardTypeName (childKeypath keypath member)) ∧
      standardTypeName (elementKeypath name) = standardTypeName (elementKeypath keypath) ∧
      ∀ position : List Step, (∀ step ∈ position, step.IsAscii) →
        ∃ found, nameAlong name position = some found ∧
          standardTypeName (keypath ++ spell position) = some found := by
  refine ⟨(standardTypeName_spec hascii hname).2.2.1, fun member hmember => ?_, ?_,
    fun position hsteps => exists_nameAlong hascii hname hsteps⟩
  · have hstep : (Step.member member).IsAscii := hmember
    obtain ⟨next, hunder, hwhole⟩ := exists_name_below hascii hname hstep
    exact hunder.trans hwhole.symm
  · have hstep : Step.element.IsAscii := trivial
    obtain ⟨next, hunder, hwhole⟩ := exists_name_below hascii hname hstep
    exact hunder.trans hwhole.symm

/-- A keypath with a digit in front, marks in odd places and brackets that are no marks, and steps
that add no word, start with a digit or look like marks. -/
theorem name_along_path_crates :
    let keypath : Keypath := "2nd-floor[][.[x"
    let position : List Step := [.member "_", .member "3d].size", .element, .member "[]"]
    Text.IsAscii keypath ∧ standardTypeName keypath = some "_2ndFloorItemX".toList ∧
      (∀ step ∈ position, step.IsAscii) ∧
      nameAlong "_2ndFloorItemX" position = some "_2ndFloorItemX3dSizeItemItem".toList ∧
      standardTypeName (keypath ++ spell position) =
        some "_2ndFloorItemX3dSizeItemItem".toList := by
  intro keypath position
  have hascii : Text.IsAscii keypath := by decide
  have hname : standardTypeName keypath = some "_2ndFloorItemX".toList := by decide
  have hsteps : ∀ step ∈ position, step.IsAscii := by decide
  obtain ⟨found, halong, hwhole⟩ := (name_along_path hascii hname).2.2.2 position hsteps
  have hfound : nameAlong "_2ndFloorItemX" position =
      some "_2ndFloorItemX3dSizeItemItem".toList := by decide
  exact ⟨hascii, hname, hsteps, hfound, hwhole.trans (halong.symm.trans hfound)⟩

/-! ## Batches -/

/-- The members held by a sample of ASCII member names have such names, and so have those in its
parts. -/
theorem Sample.Holds.isAscii {sample part : Sample} {field : Text}
    (hheld : sample.Holds field part) (hnames : ∀ name ∈ sample.memberNames, name.IsAscii) :
    field.IsAscii ∧ ∀ name ∈ part.memberNames, name.IsAscii := by
  cases hheld with
  | item hmem =>
      refine ⟨by decide, fun name hname => hnames name ?_⟩
      exact (mem_itemNames_iff _ name).mpr ⟨part, hmem, hname⟩
  | member hmem =>
      refine ⟨hnames _ ?_, fun name hname => hnames name ?_⟩
      · exact (mem_entryNames_iff _ _).mpr ⟨_, hmem, .inl rfl⟩
      · exact (mem_entryNames_iff _ name).mpr ⟨_, hmem, .inr hname⟩

/-- A part has the letters of its position, under whatever key it is stored. -/
theorem nameLetters_partKey {key position : Keypath} (hascii : Text.IsAscii position) :
    nameLetters (partKey key position) = nameLetters position := by
  unfold partKey
  cases hname : standardTypeName position with
  | none => rfl
  | some name =>
      dsimp only
      split
      · rfl
      · exact nameLetters_name hascii hname

/-- A sample of ASCII data that is stored under a key has a path with the same letters. -/
structure FollowsPath (path : Keypath) (enclosing : List Keypath) (key : Keypath)
    (sample : Sample) : Prop where
  position : StandardPosition enclosing key
  names : ∀ name ∈ sample.memberNames, name.IsAscii
  nonempty : path ≠ []
  ascii : Text.IsAscii path
  letters : nameLetters key = nameLetters path

/-- **One part.**  A part follows the path of the whole and the step to it, whether it is stored
under its name or had to give it up. -/
theorem FollowsPath.part {root : Option Name} {path : Keypath} {enclosing : List Keypath}
    {key child : Keypath} {whole part : Sample} {field : Text}
    (hwhole : FollowsPath path enclosing key whole) (hheld : whole.Holds field part)
    (hkeyed : (Naming.standard root).keyAt (key :: enclosing)
      (partPosition whole.kind key field) = .ok child) :
    FollowsPath ((whole.kind.stepTo field).below path) (key :: enclosing) child part := by
  obtain ⟨hpos, hnames, hnonempty, hascii, hletters⟩ := hwhole
  obtain ⟨hfield, hpart⟩ := hheld.isAscii hnames
  obtain ⟨hkey, hnext⟩ := hpos.step root whole.kind hfield
  obtain rfl := Except.ok.inj (hkeyed.symm.trans hkey)
  have hstep : (whole.kind.stepTo field).IsAscii := by
    cases whole.kind <;> first | exact hfield | trivial
  have hposition := partPosition_eq_below whole.kind field hpos.nonempty
  refine ⟨hnext, hpart, ?_, isAscii_below hnonempty hascii hstep, ?_⟩
  · simp [Step.below_eq_append hnonempty, hnonempty]
  · rw [hposition, nameLetters_partKey (isAscii_below hpos.nonempty hpos.ascii hstep),
      nameLetters_below hpos.nonempty, nameLetters_below hnonempty, hletters]

/-- **All parts.**  A stored sample of ASCII data follows the path that spells out its position. -/
theorem Naming.StoresAt.followsPath {root : Option Name} {sample part : Sample}
    {position : List Step} {enclosing : List Keypath} {key : Keypath}
    (hroot : Text.IsAsciiIdentifier (rootName root))
    (hnames : ∀ name ∈ sample.memberNames, name.IsAscii)
    (hstored : (Naming.standard root).StoresAt sample position enclosing key part) :
    FollowsPath (rootName root ++ spell position) enclosing key part := by
  induction hstored with
  | root hkey =>
      obtain rfl := Except.ok.inj (hkey.symm.trans (keyAt_standard_root root))
      have hpos := standardPosition_root hroot
      rw [show rootName root ++ spell [] = rootName root from List.append_nil _]
      exact ⟨hpos, hnames, hpos.nonempty, hpos.ascii, rfl⟩
  | @part position enclosing key child whole part field hstored hheld hkey ih =>
      have hlonger : rootName root ++ spell (position ++ [whole.kind.stepTo field]) =
          (whole.kind.stepTo field).below (rootName root ++ spell position) := by
        rw [Step.below_eq_append ih.nonempty]
        simp [spell]
      exact hlonger ▸ ih.part hheld hkey

/-- **The name proposed for a position.**  In a sample of ASCII data under the standard naming the
generator proposes for the key of a position what it proposes for the whole path from the root,
also where that name is given up. -/
theorem Naming.StoresAt.proposed_eq {root : Option Name} {sample part : Sample}
    {position : List Step} {enclosing : List Keypath} {key : Keypath}
    (hroot : Text.IsAsciiIdentifier (rootName root))
    (hnames : ∀ name ∈ sample.memberNames, name.IsAscii)
    (hstored : (Naming.standard root).StoresAt sample position enclosing key part) :
    standardTypeName key = standardTypeName (rootName root ++ spell position) := by
  have hpath := hstored.followsPath hroot hnames
  exact standardTypeName_congr_letters hpath.position.ascii hpath.ascii hpath.letters

end Exemplar
