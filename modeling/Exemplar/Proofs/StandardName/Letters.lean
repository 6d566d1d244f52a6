import Exemplar.Proofs.CamelCase
import Exemplar.Proofs.StandardName.Path

/-!
# The letters of standard names, whatever the members are called

Outside of ASCII a change of case can turn one letter into several, and `nameLetters_name` no
longer holds.  Two weaker facts do, and they are enough to tell keys apart on the way down.

A change of case never loses a letter or digit, so that a name is at least as heavy as the
keypath that it is for (`weight_le_name`).  And where a path starts with ASCII letters, which all
paths below an ASCII root do, no name on the way changes them: every key below a root starts with
the letters of the root (`Naming.Stores.startsWith`).
-/

namespace Exemplar

/-! ## Weight -/

/-- The number of letters and digits in a text. -/
def letterCount (text : Text) : Nat :=
  text.countP Text.isAlphanumeric

/-- Letters are counted one text after the other. -/
theorem letterCount_append (first later : Text) :
    letterCount (first ++ later) = letterCount first + letterCount later :=
  List.countP_append

/-- A keypath weighs as much as it has letters and digits once its marks are spelled. -/
theorem weight_eq_letterCount (keypath : Keypath) :
    weight keypath = letterCount (spellElements keypath) := by
  rw [weight, keyWords, flatten_words, letterCount, List.countP_eq_length_filter]

/-- A text does not get lighter when something with a letter takes the place of its front. -/
theorem letterCount_cons_le {front : Char} {changed : Text} (rest : Text)
    (hkept : Text.isAlphanumeric front = true → Text.HasLetter changed) :
    letterCount (front :: rest) ≤ letterCount (changed ++ rest) := by
  rw [letterCount_append]
  by_cases hletter : Text.isAlphanumeric front = true
  · have hsome : 0 < letterCount changed := List.countP_pos_iff.mpr (hkept hletter)
    rw [letterCount, List.countP_cons_of_pos hletter, ← letterCount]
    omega
  · rw [letterCount, List.countP_cons_of_neg hletter, ← letterCount]
    exact Nat.le_add_left _ _

/-- To capitalize a text loses no letters. -/
theorem letterCount_le_capitalize (text : Text) :
    letterCount text ≤ letterCount (Text.capitalize text) := by
  cases text with
  | nil => exact Nat.le_refl _
  | cons front rest => exact letterCount_cons_le rest Text.hasLetter_upper

/-- To uncapitalize a text loses no letters. -/
theorem letterCount_le_uncapitalize (text : Text) :
    letterCount text ≤ letterCount (Text.uncapitalize text) := by
  cases text with
  | nil => exact Nat.le_refl _
  | cons front rest => exact letterCount_cons_le rest Text.hasLetter_lower

/-- To capitalize words loses no letters. -/
theorem letterCount_le_flatMap_capitalize (texts : List Text) :
    letterCount texts.flatten ≤ letterCount (texts.flatMap Text.capitalize) := by
  induction texts with
  | nil => exact Nat.le_refl _
  | cons word rest ih =>
      rw [List.flatten_cons, List.flatMap_cons, letterCount_append, letterCount_append]
      exact Nat.add_le_add (letterCount_le_capitalize word) ih

/-- Words have all the letters of their text. -/
theorem letterCount_words (text : Text) : letterCount (words text).flatten = letterCount text := by
  rw [flatten_words, letterCount, letterCount, List.countP_filter]
  simp

/-- Camel case keeps all letters and digits, or what they become. -/
theorem letterCount_le_camelCase (text : Text) :
    letterCount text ≤ letterCount (camelCase text) := by
  rw [← letterCount_words text, camelCase]
  cases words text with
  | nil => exact Nat.le_refl _
  | cons first later =>
      dsimp only
      rw [← letterCount_words (guardDigit _), words_guardDigit, letterCount_words,
        List.flatten_cons, letterCount_append, letterCount_append]
      exact Nat.add_le_add (letterCount_le_uncapitalize first)
        (letterCount_le_flatMap_capitalize later)

/-- The element mark closes with a bracket. -/
theorem spellElements_of_inert {text : Text} (hinert : ∀ c ∈ text, IsInert c) :
    spellElements text = text := by
  fun_induction spellElements text with
  | case1 rest ih => exact absurd rfl (hinert ']' (by simp)).2
  | case2 c rest hmark ih => rw [ih fun d hmem => hinert d (List.mem_cons_of_mem c hmem)]
  | case3 => rfl

/-- A name holds no marks. -/
theorem spellElements_name {keypath : Keypath} {name : Name}
    (hname : standardTypeName keypath = some name) : spellElements name = name := by
  rw [eq_capitalize_of_name hname]
  exact spellElements_of_inert (Text.inert_capitalize (inert_camelCase _))

/-- **Names are no lighter than their keypaths.** -/
theorem weight_le_name {keypath : Keypath} {name : Name}
    (hname : standardTypeName keypath = some name) : weight keypath ≤ weight name :=
  calc weight keypath
      = letterCount (spellElements keypath) := weight_eq_letterCount keypath
    _ ≤ letterCount (camelCase (spellElements keypath)) := letterCount_le_camelCase _
    _ ≤ letterCount (Text.capitalize (camelCase (spellElements keypath))) :=
        letterCount_le_capitalize _
    _ = letterCount (spellElements name) := by
        rw [spellElements_name hname, ← eq_capitalize_of_name hname]
    _ = weight name := (weight_eq_letterCount name).symm

/-- A step down adds words and takes none away. -/
theorem exists_keyWords_below {key : Keypath} (hnonempty : key ≠ []) (step : Step) :
    ∃ more, keyWords (step.below key) = keyWords key ++ more := by
  rw [Step.below_eq_append hnonempty]
  cases step with
  | member name => exact ⟨keyWords name, keyWords_child key name⟩
  | element => exact ⟨_, keyWords_element key⟩

/-- A part is no lighter than what it is a part of. -/
theorem weight_le_below {key : Keypath} (hnonempty : key ≠ []) (step : Step) :
    weight key ≤ weight (step.below key) := by
  obtain ⟨more, hmore⟩ := exists_keyWords_below hnonempty step
  rw [weight, weight, hmore, List.flatten_append, List.length_append]
  exact Nat.le_add_right _ _

/-! ## The letters in front -/

/-- A keypath whose words start with an ASCII character and with given letters. -/
structure StartsWith (letters : Text) (key : Keypath) : Prop where
  front : ∃ front rest later, keyWords key = (front :: rest) :: later ∧ front.toNat < 0x80
  letters : letters <+: nameLetters key

/-- The letters of an ASCII keypath are in front. -/
theorem startsWith_self {key : Keypath} (hascii : Text.IsAscii key)
    (hletters : nameLetters key ≠ []) : StartsWith (nameLetters key) key := by
  have hwords := isAsciiWord_of_mem_keyWords hascii
  refine ⟨?_, List.prefix_rfl⟩
  cases hform : keyWords key with
  | nil => exact absurd (by rw [nameLetters, hform, List.flatMap_nil]) hletters
  | cons word later =>
      have hword := hwords word (hform ▸ List.mem_cons_self)
      obtain ⟨front, rest, rfl⟩ := List.exists_cons_of_ne_nil hword.nonempty
      exact ⟨front, rest, later, rfl, hword.ascii front List.mem_cons_self⟩

/-- Alphanumeric characters in front belong to the leading word. -/
theorem leadingWord_append {front : Text} (hfront : ∀ c ∈ front, Text.isAlphanumeric c = true)
    (later : Text) :
    leadingWord (front ++ later) = (front ++ (leadingWord later).1, (leadingWord later).2) := by
  induction front with
  | nil => rfl
  | cons c rest ih =>
      obtain ⟨hletter, hrest⟩ := List.forall_mem_cons.mp hfront
      simp [leadingWord, ih hrest, hletter]

/-- The first word of a text starts with the letters and digits in its front. -/
theorem words_append {front : Text} (hfront : front.IsAsciiWord) (later : Text) :
    words (front ++ later) = (front ++ (leadingWord later).1) :: (leadingWord later).2 := by
  rw [words, leadingWord_append hfront.alphanumeric]
  simp [hfront.nonempty]

namespace StartsWith

variable {letters : Text} {key : Keypath} (hstarts : StartsWith letters key)
include hstarts

/-- The keypath of a part starts with the same letters. -/
theorem below (hnonempty : key ≠ []) (step : Step) : StartsWith letters (step.below key) := by
  obtain ⟨more, hmore⟩ := exists_keyWords_below hnonempty step
  obtain ⟨⟨front, rest, later, hform, hascii⟩, hletters⟩ := hstarts
  refine ⟨⟨front, rest, later ++ more, by rw [hmore, hform]; rfl, hascii⟩, ?_⟩
  rw [nameLetters, hmore, List.flatMap_append]
  exact hletters.trans (List.prefix_append _ _)

/-- A keypath that starts with an ASCII character has all its letters in its name. -/
theorem named : standardTypeName key = some (guardDigit (nameLetters key)) := by
  obtain ⟨front, rest, later, hform, hascii⟩ := hstarts.front
  exact standardTypeName_of_front hform hascii

/-- **Names keep the letters in front.** -/
theorem name (hword : letters.IsAsciiWord) {name : Name}
    (hname : standardTypeName key = some name) : StartsWith letters name := by
  have hwords : keyWords name = words name := by rw [keyWords, spellElements_name hname]
  obtain rfl := Option.some.inj (hstarts.named.symm.trans hname)
  obtain ⟨⟨front, rest, later, hform, hascii⟩, ⟨behind, hletters⟩⟩ := hstarts
  obtain ⟨hupper, -, hagain, -⟩ := toUpper_ascii hascii
  obtain ⟨first, others, rfl⟩ := List.exists_cons_of_ne_nil hword.nonempty
  have hfirst : first = front.toUpper := by
    have hsame : nameLetters key = front.toUpper :: (rest ++ later.flatMap Text.capitalize) := by
      simp [nameLetters, hform, Text.capitalize, Text.upper_of_lt hascii]
    rw [hsame] at hletters
    exact (List.cons.inj hletters).1
  have hnameWords : keyWords (guardDigit (nameLetters key)) =
      (first :: (others ++ (leadingWord behind).1)) :: (leadingWord behind).2 := by
    rw [hwords, words_guardDigit, ← hletters, words_append hword]
    rfl
  refine ⟨⟨_, _, _, hnameWords, hfirst ▸ hupper⟩, ?_⟩
  have hcapital : Text.upper first = [first] := hfirst ▸ hagain
  rw [nameLetters, hnameWords, List.flatMap_cons, Text.capitalize, hcapital]
  simp

end StartsWith

/-! ## Storage -/

/-- Below the root the key of a position is its standard name, or else the position itself. -/
theorem keyAt_standard_part {root : Option Name} {enclosing : List Keypath}
    {position key : Keypath} (hposition : position ≠ [])
    (hkeyed : (Naming.standard root).keyAt enclosing position = .ok key) :
    key = position ∨ standardTypeName position = some key := by
  rcases keyAt_cases rfl hkeyed with ⟨hresolve, -⟩ | ⟨-, hsame⟩
  · exact .inr (standardTypeName_of_resolve hposition hresolve)
  · exact .inl hsame

section

variable {root : Option Name} {samples : List Sample} {enclosing : List Keypath} {key : Keypath}
  {sample : Sample}

/-- Nothing is stored under the empty key. -/
theorem Naming.Stores.ne_nil (hroot : Text.IsAsciiIdentifier (rootName root))
    (hstored : (Naming.standard root).Stores samples enclosing key sample) : key ≠ [] :=
  (hstored.lineage rfl (plainNames_standard (isPlain_of_isIdentifier hroot.1))).nonempty

/-- **Every key starts with the letters of the root**, whatever the members are called. -/
theorem Naming.Stores.startsWith (hroot : Text.IsAsciiIdentifier (rootName root))
    (hletters : nameLetters (rootName root) ≠ [])
    (hstored : (Naming.standard root).Stores samples enclosing key sample) :
    StartsWith (nameLetters (rootName root)) key := by
  have hwords := isAsciiWord_of_mem_keyWords hroot.2
  have hsome : keyWords (rootName root) ≠ [] := by
    intro hnone
    exact hletters (by rw [nameLetters, hnone, List.flatMap_nil])
  have hword : (nameLetters (rootName root)).IsAsciiWord := (flatMap_capitalize hwords hsome).1
  induction hstored with
  | root hgiven hkey =>
      obtain rfl := Except.ok.inj (hkey.symm.trans (keyAt_standard_root root))
      exact startsWith_self hroot.2 hletters
  | @part enclosing key child sample part field hstored hheld hkey ih =>
      have hnonempty := hstored.ne_nil hroot
      have hbelow := ih.below hnonempty (sample.kind.stepTo field)
      rw [← partPosition_eq_below _ _ hnonempty] at hbelow
      have hposition : partPosition sample.kind key field ≠ [] := by
        simp [partPosition_eq_append _ _ hnonempty, hnonempty]
      rcases keyAt_standard_part hposition hkey with rfl | hname
      · exact hbelow
      · exact hbelow.name hword hname

end

end Exemplar
