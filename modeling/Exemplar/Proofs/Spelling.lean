import Exemplar.Proofs.Expansion.Places
import Exemplar.Proofs.Parts
import Mathlib.Data.List.Induction

/-!
# How keypaths spell positions

A position that has no name is addressed by the key above it and what the step down adds:
a dot and the name for a member, `[]` for the elements of an array.  Names are put in as they
are, dots and brackets included, so that one text can be the spelling of several positions.

`unspell` reads a spelling in one way: every dot starts a member, and every mark in front of a
dot or at the end is a step to elements.  What it finds is the `refined` position, in which the
names are cut accordingly (`unspell_spell`).  Since cutting names does not change the spelling,
two positions are spelled alike exactly when they are refined alike (`spell_inj_iff`), and
positions whose names are plain are spelled alike only when they are the same.

The `stem` of a key is the name that it starts with.  Steps leave it alone (`stem_child`,
`stem_element`), and a plain name is its own stem.
-/

namespace Exemplar

/-! ## Element marks at the end of a text -/

/-- The number of element marks at the end of a text, and the text in front of them, both of a
text that is given from its end. -/
def splitMarks : Text → Nat × Text
  | ']' :: '[' :: rest => ((splitMarks rest).1 + 1, (splitMarks rest).2)
  | text => (0, text)

/-- The number of element marks at the end of a text. -/
def markCount (text : Text) : Nat :=
  (splitMarks text.reverse).1

/-- A text without the element marks at its end. -/
def trimMarks (text : Text) : Text :=
  (splitMarks text.reverse).2.reverse

/-- A mark at the end counts. -/
@[simp] theorem markCount_append_mark (text : Text) :
    markCount (text ++ elementMark) = markCount text + 1 := by
  simp [markCount, elementMark, splitMarks]

/-- A mark at the end is trimmed. -/
@[simp] theorem trimMarks_append_mark (text : Text) :
    trimMarks (text ++ elementMark) = trimMarks text := by
  simp [trimMarks, elementMark, splitMarks]

/-- Taking the marks off the end of a text loses nothing but them. -/
theorem trimMarks_append_marks (text : Text) :
    trimMarks text ++ (List.replicate (markCount text) elementMark).flatten = text := by
  have hsplit : ∀ reversed : Text, (splitMarks reversed).2.reverse ++
      (List.replicate (splitMarks reversed).1 elementMark).flatten = reversed.reverse := by
    intro reversed
    fun_induction splitMarks reversed with
    | case1 rest ih =>
        rw [List.replicate_succ', List.flatten_append, ← List.append_assoc, ih]
        simp [elementMark]
    | case2 => simp
  exact (hsplit text.reverse).trans text.reverse_reverse

/-- A text in which a reader of keypaths finds neither a member nor an element. -/
structure Text.IsPlain (text : Text) : Prop where
  noDot : '.' ∉ text
  noMark : ¬ elementMark <:+ text

/-- A plain name has no mark to split off. -/
theorem splitMarks_of_plain {text : Text} (hplain : text.IsPlain) :
    splitMarks text.reverse = (0, text.reverse) := by
  unfold splitMarks
  split
  · rename_i rest hform
    refine absurd ⟨rest.reverse, ?_⟩ hplain.noMark
    rw [← text.reverse_reverse, hform]
    simp [elementMark]
  · rfl

/-! ## Spelling and reading -/

/-- What a step adds to the key above it. -/
def Step.spelling : Step → Text
  | member name => '.' :: name
  | element => elementMark

/-- Every step adds to a keypath. -/
theorem Step.spelling_ne_nil (step : Step) : step.spelling ≠ [] := by
  cases step <;> simp [spelling, elementMark]

/-- What the steps to a position add to the key from which they start. -/
def spell (position : List Step) : Text :=
  position.flatMap Step.spelling

/-- The steps that a piece of a spelling stands for that follows a dot. -/
def pieceSteps (piece : Text) : List Step :=
  .member (trimMarks piece) :: List.replicate (markCount piece) .element

/-- The steps that a reader takes a single step for, as its name may hold dots and marks. -/
def Step.refined : Step → List Step
  | member name => (Text.parts '.' name).flatMap pieceSteps
  | element => [element]

/-- The steps that a reader takes some steps for. -/
def refined (position : List Step) : List Step :=
  position.flatMap Step.refined

/-- The steps that a spelling stands for, every dot and every mark in front of a dot or at the
end being one. -/
def unspell (text : Text) : List Step :=
  List.replicate (markCount (Text.firstPart '.' text).1) .element ++
    (Text.firstPart '.' text).2.flatMap pieceSteps

/-- A dot begins a member, whose name may hold dots and marks of its own. -/
theorem unspell_append_member (text name : Text) :
    unspell (text ++ '.' :: name) = unspell text ++ (Step.member name).refined := by
  simp [unspell, Text.firstPart_append_separator, Step.refined]

/-- A mark at the end is one more step. -/
theorem unspell_append_element (text : Text) :
    unspell (text ++ elementMark) = unspell text ++ [.element] := by
  have hfree : '.' ∉ elementMark := by decide
  rcases List.eq_nil_or_concat (Text.firstPart '.' text).2 with hone | ⟨init, last, hlast⟩
  · rw [unspell, unspell, Text.firstPart_append_of_nil hfree hone, hone]
    simp [List.replicate_succ']
  · rw [List.concat_eq_append] at hlast
    rw [unspell, unspell, Text.firstPart_append_of_concat hfree hlast, hlast]
    simp [pieceSteps, List.replicate_succ']

/-- **Reading a spelling.**  A reader finds the refined position. -/
theorem unspell_spell (position : List Step) : unspell (spell position) = refined position := by
  induction position using List.reverseRecOn with
  | nil => rfl
  | append_singleton before step ih =>
      have hspell : spell (before ++ [step]) = spell before ++ step.spelling := by simp [spell]
      have hrefined : refined (before ++ [step]) = refined before ++ step.refined := by
        simp [refined]
      rw [hspell, hrefined, ← ih]
      cases step with
      | member name => exact unspell_append_member (spell before) name
      | element => exact unspell_append_element (spell before)

/-- A piece of a spelling is spelled as it stands. -/
theorem spell_pieceSteps (piece : Text) : spell (pieceSteps piece) = '.' :: piece := by
  have hmarks : spell (List.replicate (markCount piece) .element) =
      (List.replicate (markCount piece) elementMark).flatten := by
    simp [spell, List.flatMap, Step.spelling]
  calc spell (pieceSteps piece)
      = '.' :: (trimMarks piece ++ spell (List.replicate (markCount piece) .element)) := rfl
    _ = '.' :: piece := by rw [hmarks, trimMarks_append_marks]

/-- The pieces of a spelling are spelled with dots between them. -/
theorem spell_flatMap_pieceSteps {pieces : List Text} (hsome : pieces ≠ []) :
    spell (pieces.flatMap pieceSteps) = '.' :: Text.joined ['.'] pieces := by
  induction pieces with
  | nil => exact absurd rfl hsome
  | cons piece rest ih =>
      have happend : spell ((piece :: rest).flatMap pieceSteps) =
          '.' :: piece ++ spell (rest.flatMap pieceSteps) := by
        rw [← spell_pieceSteps, List.flatMap_cons]
        exact List.flatMap_append
      rw [happend]
      cases rest with
      | nil => simp [spell, Text.joined]
      | cons next later =>
          rw [ih (List.cons_ne_nil next later), Text.joined_cons_cons]
          simp

/-- Cutting names does not change what they spell. -/
theorem spell_refined (position : List Step) : spell (refined position) = spell position := by
  have hstep : ∀ step : Step, spell step.refined = step.spelling := by
    intro step
    cases step with
    | member name =>
        rw [Step.refined, spell_flatMap_pieceSteps (by simp [Text.parts]), Text.joined_parts]
        rfl
    | element => rfl
  induction position with
  | nil => rfl
  | cons step later ih =>
      have happend : spell (refined (step :: later)) =
          spell step.refined ++ spell (refined later) := by
        simp [spell, refined]
      rw [happend, hstep, ih]
      rfl

/-- **Equal spellings.**  Two positions are spelled alike exactly when a reader takes them for
the same position. -/
theorem spell_inj_iff (position other : List Step) :
    spell position = spell other ↔ refined position = refined other := by
  constructor
  · intro hspelled
    rw [← unspell_spell, hspelled, unspell_spell]
  · intro hrefined
    rw [← spell_refined, hrefined, spell_refined]

/-- A step that a reader takes for itself. -/
def Step.IsPlain : Step → Prop
  | member name => name.IsPlain
  | element => True

/-- A reader takes plain steps for themselves. -/
theorem refined_of_plain {position : List Step} (hplain : ∀ step ∈ position, step.IsPlain) :
    refined position = position := by
  induction position with
  | nil => rfl
  | cons step later ih =>
      have hlater := ih fun other hmem => hplain other (List.mem_cons_of_mem step hmem)
      have hstep : step.refined = [step] := by
        have hself := hplain step List.mem_cons_self
        cases step with
        | member name =>
            have hname : name.IsPlain := hself
            simp [Step.refined, Text.parts, Text.firstPart_of_not_mem hname.noDot, pieceSteps,
              trimMarks, markCount, splitMarks_of_plain hname]
        | element => rfl
      calc refined (step :: later)
          = step.refined ++ refined later := by simp [refined]
        _ = step :: later := by rw [hstep, hlater]; rfl

/-! ## Stems -/

/-- The name that a key starts with, in front of everything that steps have added. -/
def stem (key : Keypath) : Name :=
  trimMarks (Text.firstPart '.' key).1

/-- A member leaves the stem as it is. -/
theorem stem_child (key : Keypath) (member : Text) : stem (key ++ '.' :: member) = stem key := by
  rw [stem, Text.firstPart_append_separator]
  rfl

/-- An element leaves the stem as it is. -/
theorem stem_element (key : Keypath) : stem (elementKeypath key) = stem key := by
  have hfree : '.' ∉ elementMark := by decide
  rw [stem, stem, elementKeypath]
  rcases List.eq_nil_or_concat (Text.firstPart '.' key).2 with hone | ⟨init, last, hlast⟩
  · rw [Text.firstPart_append_of_nil hfree hone]
    exact trimMarks_append_mark _
  · rw [List.concat_eq_append] at hlast
    rw [Text.firstPart_append_of_concat hfree hlast]

/-- A step leaves the stem of a key alone. -/
theorem stem_append_spelling (key : Keypath) (step : Step) :
    stem (key ++ step.spelling) = stem key := by
  cases step with
  | member name => exact stem_child key name
  | element => exact stem_element key

/-- A plain name is its own stem. -/
theorem stem_of_plain {name : Name} (hplain : Text.IsPlain name) : stem name = name := by
  rw [stem, Text.firstPart_of_not_mem hplain.noDot, trimMarks, splitMarks_of_plain hplain,
    List.reverse_reverse]

end Exemplar
