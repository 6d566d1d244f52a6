import Exemplar.Proofs.CharacterSets

/-!
# Which texts have identifiers for their camel case

The camel case of a text is made of its letters and digits, those of them changed in case that
start a word, with an underscore in front if the first one is a digit.  A change of case keeps
what belongs to identifiers apart from what does not (`continues_change_iff`), so that the
outcome can be read off the text: it is an identifier, or empty, exactly when every letter or
digit of the text may continue an identifier and the first one of them may start one or is a
digit (`camelCase_isIdentifier_iff`).

Not every text is like that.  Words go by what is alphanumeric, identifiers do not: fractions,
superscripts and circled numbers are alphanumeric and stand in no identifier, and the underscore
in front of a superscript does not help (`areas_unsafe`).
-/

namespace Exemplar

/-! ## The letters of words -/

/-- The words of a text hold its letters and digits, in their order. -/
theorem flatten_words (text : Text) :
    (words text).flatten = text.filter Text.isAlphanumeric := by
  have hleading : (leadingWord text).1 ++ (leadingWord text).2.flatten =
      text.filter Text.isAlphanumeric := by
    induction text with
    | nil => rfl
    | cons c rest ih =>
        rw [leadingWord]
        by_cases hletter : Text.isAlphanumeric c = true
        · simp only [hletter, if_true, List.filter_cons_of_pos, List.cons_append, ih]
        · rw [List.filter_cons_of_neg hletter, ← ih]
          by_cases hempty : (leadingWord rest).1 = [] <;> simp [hletter, hempty]
  rw [words, ← hleading]
  by_cases hempty : (leadingWord text).1 = [] <;> simp [hempty]

namespace Text

/-! ## Changes of case -/

/-- A change that stays in identifiers leaves it open or settled whether they hold a letter. -/
theorem continues_change_iff {c : Char} {changed : List Char} (hstays : StaysIdentifier c changed) :
    (∀ d ∈ changed, continuesIdentifier d = true) ↔ continuesIdentifier c = true := by
  rcases hstays with rfl | ⟨hstarts, hidentifier⟩
  · exact List.forall_mem_singleton
  · refine iff_of_true ?_ (continuesIdentifier_of_starts hstarts)
    cases changed with
    | nil => cases hidentifier
    | cons head later =>
        rw [isIdentifier, Bool.and_eq_true, List.all_eq_true] at hidentifier
        exact List.forall_mem_cons.mpr
          ⟨continuesIdentifier_of_starts hidentifier.1, hidentifier.2⟩

/-- The front of what a letter becomes is a digit, or may start an identifier, when the letter is
or may. -/
theorem exists_front_of_change {c : Char} {changed : List Char}
    (hstays : StaysIdentifier c changed) :
    ∃ front later, changed = front :: later ∧ isDigit front = isDigit c ∧
      startsIdentifier front = startsIdentifier c := by
  rcases hstays with rfl | ⟨hstarts, hidentifier⟩
  · exact ⟨c, [], rfl, rfl, rfl⟩
  · cases changed with
    | nil => cases hidentifier
    | cons front later =>
        rw [isIdentifier, Bool.and_eq_true] at hidentifier
        refine ⟨front, later, rfl, ?_, hidentifier.1.trans hstarts.symm⟩
        rw [isDigit_of_starts hidentifier.1, isDigit_of_starts hstarts]

/-- To capitalize a word neither adds characters that no identifier has nor removes them. -/
theorem continues_capitalize_iff {word : Text} (hword : ∀ c ∈ word, isAlphanumeric c = true) :
    (∀ d ∈ capitalize word, continuesIdentifier d = true) ↔
      ∀ c ∈ word, continuesIdentifier c = true := by
  cases word with
  | nil => rfl
  | cons c rest =>
      rw [capitalize, List.forall_mem_append, List.forall_mem_cons,
        continues_change_iff (staysIdentifier_upper (hword c List.mem_cons_self))]

end Text

/-! ## Camel case -/

/-- Words consist of alphanumeric characters. -/
theorem alphanumeric_of_mem_words {text : Text} :
    ∀ word ∈ words text, ∀ c ∈ word, Text.isAlphanumeric c = true :=
  fun _ hmem c hc => ((mem_words hmem).2 c hc).1

/-- Capitalized words may continue an identifier when the words may. -/
theorem continues_flatMap_capitalize_iff {texts : List Text}
    (hwords : ∀ word ∈ texts, ∀ c ∈ word, Text.isAlphanumeric c = true) :
    (∀ d ∈ texts.flatMap Text.capitalize, Text.continuesIdentifier d = true) ↔
      ∀ c ∈ texts.flatten, Text.continuesIdentifier c = true := by
  simp only [List.forall_mem_flatMap, List.forall_mem_flatten]
  exact forall₂_congr fun word hmem => Text.continues_capitalize_iff (hwords word hmem)

/-- A text with a guarded digit is an identifier when all of it may continue one and its front is
a digit or may start one. -/
theorem isIdentifier_guardDigit_iff (front : Char) (later : Text) :
    Text.isIdentifier (guardDigit (front :: later)) = true ↔
      (∀ c ∈ front :: later, Text.continuesIdentifier c = true) ∧
        (Text.isDigit front = true ∨ Text.startsIdentifier front = true) := by
  rw [guardDigit]
  split
  · rename_i hdigit
    have hunderscore : Text.startsIdentifier '_' = true := by decide
    simp [Text.isIdentifier, hunderscore, hdigit]
  · rename_i hdigit
    simp only [Text.isIdentifier, Bool.and_eq_true, List.all_eq_true, List.forall_mem_cons, hdigit,
      Bool.false_eq_true, false_or]
    constructor
    · rintro ⟨hstarts, hlater⟩
      exact ⟨⟨Text.continuesIdentifier_of_starts hstarts, hlater⟩, hstarts⟩
    · rintro ⟨⟨-, hlater⟩, hstarts⟩
      exact ⟨hstarts, hlater⟩

/-- **Identifiers in camel case.**  The camel case of a text is empty or an identifier exactly when
each letter or digit of the text may continue an identifier, and the first of them is a digit or
may start one. -/
theorem camelCase_isIdentifier_iff (text : Text) :
    camelCase text = [] ∨ Text.isIdentifier (camelCase text) = true ↔
      (∀ c ∈ text, Text.isAlphanumeric c = true → Text.continuesIdentifier c = true) ∧
        ∀ c, text.find? Text.isAlphanumeric = some c →
          Text.isDigit c = true ∨ Text.startsIdentifier c = true := by
  have hletters := flatten_words text
  have halphanumeric : ∀ word ∈ words text, ∀ c ∈ word, Text.isAlphanumeric c = true :=
    alphanumeric_of_mem_words
  have hall : (∀ c ∈ text, Text.isAlphanumeric c = true → Text.continuesIdentifier c = true) ↔
      ∀ c ∈ (words text).flatten, Text.continuesIdentifier c = true := by
    simp only [hletters, List.mem_filter, and_imp]
  have hfirst : text.find? Text.isAlphanumeric = (words text).flatten.head? := by
    rw [hletters, List.head?_filter]
  rw [hall, hfirst, camelCase]
  cases hwords : words text with
  | nil => simp
  | cons word later =>
      rw [hwords] at halphanumeric
      have hmem : word ∈ words text := hwords ▸ List.mem_cons_self
      obtain ⟨c, rest, rfl⟩ := List.exists_cons_of_ne_nil (mem_words hmem).1
      obtain ⟨hword, hothers⟩ := List.forall_mem_cons.mp halphanumeric
      have hsmall := Text.staysIdentifier_lower (hword c List.mem_cons_self)
      obtain ⟨front, behind, hlower, hdigit, hstarts⟩ := Text.exists_front_of_change hsmall
      have hchanged := Text.continues_change_iff hsmall
      rw [hlower, List.forall_mem_cons] at hchanged
      let behindFront := behind ++ (rest ++ later.flatMap Text.capitalize)
      have hform : Text.uncapitalize (c :: rest) ++ later.flatMap Text.capitalize =
          front :: behindFront := by
        rw [Text.uncapitalize, hlower, List.append_assoc, List.cons_append]
      have hcontinues : (∀ d ∈ front :: behindFront, Text.continuesIdentifier d = true) ↔
          ∀ d ∈ ((c :: rest) :: later).flatten, Text.continuesIdentifier d = true := by
        rw [List.forall_mem_cons, List.forall_mem_append, ← and_assoc, hchanged,
          List.forall_mem_append, continues_flatMap_capitalize_iff hothers, List.flatten_cons,
          List.cons_append, List.forall_mem_cons, List.forall_mem_append]
      have hsome : guardDigit (front :: behindFront) ≠ [] := by
        rw [guardDigit]
        split <;> exact List.cons_ne_nil _ _
      simp only [hform, isIdentifier_guardDigit_iff, hsome, false_or, hdigit, hstarts, hcontinues]
      simp

/-- The unit of an area: a superscript is a letter of the word that it closes, and a word of its
own when it stands alone, and in neither case does an identifier come of it. -/
theorem areas_unsafe :
    camelCase "area m²" = "areaM²".toList ∧
      ¬ (camelCase "area m²" = [] ∨ Text.isIdentifier (camelCase "area m²") = true) ∧
      camelCase "²" = "_²".toList ∧
      ¬ (camelCase "²" = [] ∨ Text.isIdentifier (camelCase "²") = true) := by
  decide

end Exemplar
