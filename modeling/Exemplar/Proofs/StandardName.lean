import Exemplar.Naming

/-!
# Standard names of ASCII keypaths

The standard generator cuts a keypath into words and joins them.  For ASCII
keypaths three facts decide everything about the names it gives.

* `keyWords_child`, `keyWords_element`: one step down appends words, none when the
  member name has none, and never takes any away.
* `standardTypeName_joinWords`: a name is its own name.
* `weight_joinWords`: a name has as many letters and digits as the words it is
  made of, so its `weight` is that of the keypath.

A step that adds a word therefore leads to a heavier name, which no position
further up can have.
-/

namespace Exemplar

/-- A text of ASCII characters. -/
def Text.IsAscii (text : Text) : Prop :=
  ∀ c ∈ text, c.toNat < 0x80

instance (text : Text) : Decidable text.IsAscii :=
  decidable_of_iff (text.all (fun c => decide (c.toNat < 0x80)) = true) (by simp [Text.IsAscii])

/-- A text that can be a word of an ASCII keypath. -/
structure Text.IsAsciiWord (word : Text) : Prop where
  nonempty : word ≠ []
  ascii : word.IsAscii
  alphanumeric : ∀ c ∈ word, Text.isAlphanumeric c = true

/-- The words of a keypath. -/
def keyWords (keypath : Keypath) : List Text :=
  words (spellElements keypath)

/-- The number of letters and digits in the words of a keypath. -/
def weight (keypath : Keypath) : Nat :=
  (keyWords keypath).flatten.length

/-- Words joined to a name. -/
def joinWords (texts : List Text) : Name :=
  guardDigit (texts.flatMap Text.capitalize)

/-! ## ASCII characters -/

/-- Upper and lower case of an ASCII character, settled by going through all 128 of them. -/
theorem toUpper_ascii {c : Char} (hc : c.toNat < 0x80) :
    c.toUpper.toNat < 0x80 ∧ Text.isAlphanumeric c.toUpper = Text.isAlphanumeric c ∧
      Text.upper c.toUpper = [c.toUpper] ∧ Text.upper c.toLower = [c.toUpper] ∧
      Text.isDigit c.toLower = Text.isDigit c.toUpper ∧
      (Text.isDigit c.toUpper = true → c.toLower = c.toUpper) := by
  obtain ⟨code, hcode, rfl⟩ : ∃ code < 0x80, c = Char.ofNat code :=
    ⟨c.toNat, hc, (Char.ofNat_toNat c).symm⟩
  clear hc
  revert code
  decide

/-! ## Words -/

/-- Words are not empty and consist of alphanumeric characters of the text. -/
private theorem leadingWord_spec (text : Text) :
    (∀ c ∈ (leadingWord text).1, Text.isAlphanumeric c = true ∧ c ∈ text) ∧
      ∀ word ∈ (leadingWord text).2,
        word ≠ [] ∧ ∀ c ∈ word, Text.isAlphanumeric c = true ∧ c ∈ text := by
  induction text with
  | nil => simp [leadingWord]
  | cons d rest ih =>
      obtain ⟨hhead, hlater⟩ := ih
      have hwider : ∀ c, Text.isAlphanumeric c = true ∧ c ∈ rest →
          Text.isAlphanumeric c = true ∧ c ∈ d :: rest :=
        fun c hc => ⟨hc.1, List.mem_cons_of_mem d hc.2⟩
      have hrest : ∀ word ∈ (leadingWord rest).2,
          word ≠ [] ∧ ∀ c ∈ word, Text.isAlphanumeric c = true ∧ c ∈ d :: rest :=
        fun word hmem => ⟨(hlater word hmem).1, fun c hc => hwider c ((hlater word hmem).2 c hc)⟩
      by_cases halnum : Text.isAlphanumeric d = true
      · simp only [leadingWord, halnum, if_true]
        refine ⟨fun c hc => ?_, hrest⟩
        rcases List.mem_cons.mp hc with rfl | hmem
        · exact ⟨halnum, List.mem_cons_self⟩
        · exact hwider c (hhead c hmem)
      · simp only [leadingWord, halnum, if_false, Bool.false_eq_true]
        refine ⟨by simp, fun word hmem => ?_⟩
        by_cases hempty : (leadingWord rest).1.isEmpty = true
        · rw [if_pos hempty] at hmem
          exact hrest word hmem
        · rw [if_neg hempty] at hmem
          rcases List.mem_cons.mp hmem with rfl | hmem
          · exact ⟨by simpa using hempty, fun c hc => hwider c (hhead c hc)⟩
          · exact hrest word hmem

/-- Words are not empty and consist of the letters and digits of the text. -/
theorem mem_words {text word : Text} (hmem : word ∈ words text) :
    word ≠ [] ∧ ∀ c ∈ word, Text.isAlphanumeric c = true ∧ c ∈ text := by
  obtain ⟨hhead, hlater⟩ := leadingWord_spec text
  unfold words at hmem
  by_cases hempty : (leadingWord text).1.isEmpty = true
  · simp only [hempty, if_true] at hmem
    exact hlater word hmem
  · simp only [hempty, if_false, Bool.false_eq_true] at hmem
    rcases List.mem_cons.mp hmem with rfl | hmem
    · exact ⟨by simpa using hempty, hhead⟩
    · exact hlater word hmem

/-! ## Words of keypaths -/

/-- A mark is spelled as a word of its own. -/
theorem spellElements_mark (rest : Keypath) :
    spellElements ('[' :: ']' :: rest) = " Item ".toList ++ spellElements rest := rfl

/-- What stands behind a dot is spelled by itself. -/
theorem spellElements_append_dot (parent : Keypath) (member : Text) :
    spellElements (parent ++ '.' :: member) =
      spellElements parent ++ '.' :: spellElements member := by
  fun_induction spellElements parent with
  | case1 rest ih =>
      calc spellElements ('[' :: ']' :: (rest ++ '.' :: member))
          = " Item ".toList ++ spellElements (rest ++ '.' :: member) := spellElements_mark _
        _ = " Item ".toList ++ (spellElements rest ++ '.' :: spellElements member) :=
            congrArg (" Item ".toList ++ ·) ih
        _ = " Item ".toList ++ spellElements rest ++ '.' :: spellElements member :=
            (List.append_assoc _ _ _).symm
  | case2 c rest hmark ih =>
      have hplain : ∀ later, c = '[' → rest ++ '.' :: member = ']' :: later → False := by
        intro later hopen hclose
        cases rest with
        | nil => simp at hclose
        | cons d rest => exact hmark rest hopen (by simp_all)
      rw [List.cons_append, spellElements, ih, List.cons_append]
      exact hplain
  | case3 =>
      have hplain : ∀ later, '.' = '[' → member = ']' :: later → False := by
        intro later hopen _
        exact absurd hopen (by decide)
      rw [List.nil_append, spellElements]
      · rfl
      · exact hplain

/-- A mark at the end is spelled as a word. -/
theorem spellElements_append_mark (parent : Keypath) :
    spellElements (parent ++ elementMark) = spellElements parent ++ " Item ".toList := by
  fun_induction spellElements parent with
  | case1 rest ih =>
      calc spellElements ('[' :: ']' :: (rest ++ elementMark))
          = " Item ".toList ++ spellElements (rest ++ elementMark) := spellElements_mark _
        _ = " Item ".toList ++ (spellElements rest ++ " Item ".toList) :=
            congrArg (" Item ".toList ++ ·) ih
        _ = " Item ".toList ++ spellElements rest ++ " Item ".toList :=
            (List.append_assoc _ _ _).symm
  | case2 c rest hmark ih =>
      have hplain : ∀ later, c = '[' → rest ++ elementMark = ']' :: later → False := by
        intro later hopen hclose
        cases rest with
        | nil => simp [elementMark] at hclose
        | cons d rest => exact hmark rest hopen (by simp_all)
      rw [List.cons_append, spellElements, ih, List.cons_append]
      exact hplain
  | case3 => rfl

/-- Without brackets there is nothing to spell. -/
theorem spellElements_of_not_mem {text : Text} (hplain : '[' ∉ text) :
    spellElements text = text := by
  fun_induction spellElements text with
  | case1 rest ih => simp at hplain
  | case2 c rest hmark ih => rw [ih fun hmem => hplain (List.mem_cons_of_mem c hmem)]
  | case3 => rfl

/-- Marks are spelled in ASCII. -/
theorem isAscii_spellElements {keypath : Keypath} (hascii : Text.IsAscii keypath) :
    Text.IsAscii (spellElements keypath) := by
  fun_induction spellElements keypath with
  | case1 rest ih =>
      have hrest := ih fun c hc => hascii c (List.mem_cons_of_mem _ (List.mem_cons_of_mem _ hc))
      intro c hc
      rcases List.mem_append.mp hc with hword | hmem
      · exact (show Text.IsAscii " Item ".toList by decide) c hword
      · exact hrest c hmem
  | case2 d rest hmark ih =>
      have hrest := ih fun c hc => hascii c (List.mem_cons_of_mem _ hc)
      intro c hc
      rcases List.mem_cons.mp hc with rfl | hmem
      · exact hascii c List.mem_cons_self
      · exact hrest c hmem
  | case3 => exact hascii

/-- The words of a member are those of its parent and those of its own name. -/
theorem keyWords_child (parent : Keypath) (member : Text) :
    keyWords (parent ++ '.' :: member) = keyWords parent ++ keyWords member := by
  rw [keyWords, spellElements_append_dot]
  exact words_append_separator (by decide) _ _

/-- An element has one word more than its array. -/
theorem keyWords_element (parent : Keypath) :
    keyWords (elementKeypath parent) = keyWords parent ++ ["Item".toList] := by
  have hitem : words "Item ".toList = ["Item".toList] := by decide
  rw [keyWords, elementKeypath, spellElements_append_mark, ← hitem]
  exact words_append_separator (by decide) _ _

/-- The words of a keypath in ASCII are words in ASCII. -/
theorem isAsciiWord_of_mem_keyWords {keypath : Keypath} (hascii : Text.IsAscii keypath) :
    ∀ word ∈ keyWords keypath, Text.IsAsciiWord word := by
  intro word hmem
  obtain ⟨hnonempty, hchars⟩ := mem_words hmem
  exact ⟨hnonempty, fun c hc => isAscii_spellElements hascii c (hchars c hc).2,
    fun c hc => (hchars c hc).1⟩

/-! ## Names -/

/-- To capitalize a word in ASCII keeps its length, and once is enough. -/
theorem capitalize_isAsciiWord {word : Text} (hword : word.IsAsciiWord) :
    Text.IsAsciiWord (Text.capitalize word) ∧ (Text.capitalize word).length = word.length ∧
      Text.capitalize (Text.capitalize word) = Text.capitalize word := by
  cases word with
  | nil => exact absurd rfl hword.nonempty
  | cons c rest =>
      have hc : c.toNat < 0x80 := hword.ascii c List.mem_cons_self
      obtain ⟨hupper, halnum, hagain, -, -, -⟩ := toUpper_ascii hc
      have hcap : Text.capitalize (c :: rest) = c.toUpper :: rest := by
        simp [Text.capitalize, Text.upper_of_lt hc]
      rw [hcap]
      refine ⟨⟨by simp, ?_, ?_⟩, by simp, by simp [Text.capitalize, hagain]⟩
      · intro d hd
        rcases List.mem_cons.mp hd with rfl | hmem
        · exact hupper
        · exact hword.ascii d (List.mem_cons_of_mem c hmem)
      · intro d hd
        rcases List.mem_cons.mp hd with rfl | hmem
        · rw [halnum]
          exact hword.alphanumeric c List.mem_cons_self
        · exact hword.alphanumeric d (List.mem_cons_of_mem c hmem)

/-- A word in ASCII goes on with alphanumeric characters in ASCII. -/
theorem Text.IsAsciiWord.append {first later : Text} (hfirst : first.IsAsciiWord)
    (hascii : later.IsAscii) (halnum : ∀ c ∈ later, Text.isAlphanumeric c = true) :
    (first ++ later).IsAsciiWord where
  nonempty := by simp [hfirst.nonempty]
  ascii c hc := (List.mem_append.mp hc).elim (hfirst.ascii c) (hascii c)
  alphanumeric c hc := (List.mem_append.mp hc).elim (hfirst.alphanumeric c) (halnum c)

/-- Capitalized words in a row are one word, as long as all of them, with a capital in front. -/
theorem flatMap_capitalize {texts : List Text} (hwords : ∀ word ∈ texts, word.IsAsciiWord)
    (hsome : texts ≠ []) :
    Text.IsAsciiWord (texts.flatMap Text.capitalize) ∧
      (texts.flatMap Text.capitalize).length = texts.flatten.length ∧
      Text.capitalize (texts.flatMap Text.capitalize) = texts.flatMap Text.capitalize := by
  induction texts with
  | nil => exact absurd rfl hsome
  | cons word rest ih =>
      obtain ⟨hcap, hlength, hagain⟩ := capitalize_isAsciiWord (hwords word List.mem_cons_self)
      have hfront : Text.capitalize (Text.capitalize word ++ rest.flatMap Text.capitalize) =
          Text.capitalize word ++ rest.flatMap Text.capitalize := by
        cases hform : Text.capitalize word with
        | nil => exact absurd hform hcap.nonempty
        | cons c letters =>
            rw [hform] at hagain
            simp only [Text.capitalize, List.cons_append] at hagain ⊢
            rw [← List.append_assoc, hagain]
            rfl
      rw [List.flatMap_cons]
      refine ⟨?_, ?_, hfront⟩
      · by_cases hrest : rest = []
        · simpa [hrest] using hcap
        · have htail := (ih (fun w hw => hwords w (List.mem_cons_of_mem word hw)) hrest).1
          exact hcap.append htail.ascii htail.alphanumeric
      · rw [List.length_append, hlength, List.flatten_cons, List.length_append]
        by_cases hrest : rest = []
        · simp [hrest]
        · have htail := (ih (fun w hw => hwords w (List.mem_cons_of_mem word hw)) hrest).2.1
          rw [htail]

/-- A digit is guarded by an underscore in front, if there is one. -/
theorem guardDigit_eq_or (text : Text) :
    guardDigit text = text ∨ guardDigit text = '_' :: text := by
  cases text with
  | nil => exact .inl rfl
  | cons c rest =>
      rw [guardDigit]
      split
      · exact .inr rfl
      · exact .inl rfl

/-- The guard adds nothing but an underscore. -/
theorem mem_guardDigit {text : Text} {c : Char} (hmem : c ∈ guardDigit text) :
    c = '_' ∨ c ∈ text := by
  rcases guardDigit_eq_or text with hsame | hguarded
  · exact .inr (hsame ▸ hmem)
  · exact List.mem_cons.mp (hguarded ▸ hmem)

/-- The guard belongs to no word. -/
theorem words_guardDigit (text : Text) : words (guardDigit text) = words text := by
  rcases guardDigit_eq_or text with hsame | hguarded
  · rw [hsame]
  · rw [hguarded]
    exact words_append_separator (by decide) [] text

/-- A word with a guarded digit is still the same word. -/
theorem keyWords_guardDigit {word : Text} (hword : word.IsAsciiWord) :
    keyWords (guardDigit word) = [word] := by
  have hopen : '[' ∉ guardDigit word := by
    intro hmem
    rcases mem_guardDigit hmem with hguard | hmem
    · exact absurd hguard (by decide)
    · exact absurd (hword.alphanumeric _ hmem) (by decide)
  rw [keyWords, spellElements_of_not_mem hopen, words_guardDigit,
    words_of_alphanumeric hword.nonempty hword.alphanumeric]

/-- Joined words are one word. -/
theorem keyWords_joinWords {texts : List Text} (hwords : ∀ word ∈ texts, word.IsAsciiWord)
    (hsome : texts ≠ []) : keyWords (joinWords texts) = [texts.flatMap Text.capitalize] :=
  keyWords_guardDigit (flatMap_capitalize hwords hsome).1

/-- A name is as heavy as its words. -/
theorem weight_joinWords {texts : List Text} (hwords : ∀ word ∈ texts, word.IsAsciiWord)
    (hsome : texts ≠ []) : weight (joinWords texts) = texts.flatten.length := by
  rw [weight, keyWords_joinWords hwords hsome, ← (flatMap_capitalize hwords hsome).2.1,
    List.flatten_singleton]

/-- Words are joined to something. -/
theorem joinWords_ne_nil {texts : List Text} (hwords : ∀ word ∈ texts, word.IsAsciiWord)
    (hsome : texts ≠ []) : joinWords texts ≠ [] := by
  have hword := (flatMap_capitalize hwords hsome).1
  rw [joinWords]
  rcases guardDigit_eq_or (texts.flatMap Text.capitalize) with hsame | hguarded
  · rw [hsame]
    exact hword.nonempty
  · rw [hguarded]
    exact List.cons_ne_nil _ _

/-- The characters of a name are letters, digits and the underscore. -/
theorem mem_joinWords {texts : List Text} (hwords : ∀ word ∈ texts, word.IsAsciiWord)
    (hsome : texts ≠ []) :
    ∀ c ∈ joinWords texts, c.toNat < 0x80 ∧ (Text.isAlphanumeric c = true ∨ c = '_') := by
  have hword := (flatMap_capitalize hwords hsome).1
  intro c hc
  rcases mem_guardDigit hc with rfl | hmem
  · exact ⟨by decide, .inr rfl⟩
  · exact ⟨hword.ascii c hmem, .inl (hword.alphanumeric c hmem)⟩

/-- The name of a keypath is its camel case, capitalized. -/
theorem eq_capitalize_of_name {keypath : Keypath} {name : Name}
    (hname : standardTypeName keypath = some name) :
    name = Text.capitalize (camelCase (spellElements keypath)) := by
  unfold standardTypeName at hname
  split at hname
  · cases hname
  · exact (Option.some.inj hname).symm

/-- A keypath whose words start with an ASCII character is named by its words. -/
theorem standardTypeName_of_front {keypath : Keypath} {front : Char} {rest : Text}
    {later : List Text} (hwords : keyWords keypath = (front :: rest) :: later)
    (hascii : front.toNat < 0x80) :
    standardTypeName keypath = some (joinWords (keyWords keypath)) := by
  obtain ⟨-, -, hagain, hlower, hdigit, hsame⟩ := toUpper_ascii hascii
  have hcap : Text.capitalize (front :: rest) = front.toUpper :: rest := by
    simp [Text.capitalize, Text.upper_of_lt hascii]
  have huncap : Text.uncapitalize (front :: rest) = front.toLower :: rest := by
    simp [Text.uncapitalize, Text.lower_of_lt hascii]
  rw [standardTypeName, camelCase, ← keyWords, hwords]
  simp only [huncap, joinWords, List.flatMap_cons, hcap, List.cons_append, guardDigit, hdigit]
  by_cases hfront : Text.isDigit front.toUpper = true
  · simp [hfront, hsame hfront, Text.capitalize, Text.upper_of_lt]
  · simp [hfront, Text.capitalize, hlower]

/-- **Names of ASCII keypaths.**  A keypath with words is named by its words, any other has no
name. -/
theorem standardTypeName_eq {keypath : Keypath} (hascii : Text.IsAscii keypath) :
    standardTypeName keypath =
      if keyWords keypath = [] then none else some (joinWords (keyWords keypath)) := by
  cases hform : keyWords keypath with
  | nil =>
      rw [standardTypeName, camelCase, ← keyWords, hform]
      rfl
  | cons word later =>
      have hword := isAsciiWord_of_mem_keyWords hascii word (by simp [hform])
      obtain ⟨front, rest, rfl⟩ := List.exists_cons_of_ne_nil hword.nonempty
      rw [standardTypeName_of_front hform (hword.ascii front List.mem_cons_self), hform,
        if_neg (List.cons_ne_nil _ _)]

/-- **A name is its own name.** -/
theorem standardTypeName_joinWords {texts : List Text} (hwords : ∀ word ∈ texts, word.IsAsciiWord)
    (hsome : texts ≠ []) : standardTypeName (joinWords texts) = some (joinWords texts) := by
  have hascii : Text.IsAscii (joinWords texts) :=
    fun c hc => (mem_joinWords hwords hsome c hc).1
  obtain ⟨-, -, hagain⟩ := flatMap_capitalize hwords hsome
  rw [standardTypeName_eq hascii, keyWords_joinWords hwords hsome, if_neg (by simp)]
  simp [joinWords, hagain]

/-- What is known of a name that an ASCII keypath has. -/
theorem standardTypeName_spec {keypath : Keypath} {name : Name} (hascii : Text.IsAscii keypath)
    (hname : standardTypeName keypath = some name) :
    name ≠ [] ∧ Text.IsAscii name ∧ standardTypeName name = some name ∧
      weight name = weight keypath := by
  have hwords := isAsciiWord_of_mem_keyWords hascii
  rw [standardTypeName_eq hascii] at hname
  by_cases hnone : keyWords keypath = []
  · rw [if_pos hnone] at hname
    cases hname
  · rw [if_neg hnone] at hname
    cases hname
    exact ⟨joinWords_ne_nil hwords hnone, fun c hc => (mem_joinWords hwords hnone c hc).1,
      standardTypeName_joinWords hwords hnone, weight_joinWords hwords hnone⟩

/-- Only a keypath without words has no name. -/
theorem weight_eq_zero_of_no_name {keypath : Keypath} (hascii : Text.IsAscii keypath)
    (hname : standardTypeName keypath = none) : weight keypath = 0 := by
  rw [standardTypeName_eq hascii] at hname
  by_cases hnone : keyWords keypath = []
  · simp [weight, hnone]
  · rw [if_neg hnone] at hname
    cases hname

/-- Positions with the same words have the same name. -/
theorem standardTypeName_congr {first second : Keypath} (hfirst : Text.IsAscii first)
    (hsecond : Text.IsAscii second) (hwords : keyWords first = keyWords second) :
    standardTypeName first = standardTypeName second := by
  rw [standardTypeName_eq hfirst, standardTypeName_eq hsecond, hwords]

/-! ## Steps down -/

/-- The elements of an array are heavier than the array. -/
theorem weight_lt_element (parent : Keypath) : weight parent < weight (elementKeypath parent) := by
  rw [weight, weight, keyWords_element, List.flatten_append, List.length_append]
  exact Nat.lt_add_of_pos_right (by decide)

/-- The keypath of the elements stays in ASCII. -/
theorem isAscii_element {parent : Keypath} (hparent : Text.IsAscii parent) :
    Text.IsAscii (elementKeypath parent) := by
  intro c hc
  rcases List.mem_append.mp hc with hkey | hmark
  · exact hparent c hkey
  · exact (show Text.IsAscii elementMark by decide) c hmark

/-- The keypath of a member in ASCII stays in ASCII. -/
theorem isAscii_child {parent : Keypath} {member : Text} (hparent : Text.IsAscii parent)
    (hmember : member.IsAscii) : Text.IsAscii (parent ++ '.' :: member) := by
  intro c hc
  rcases List.mem_append.mp hc with hkey | htail
  · exact hparent c hkey
  · rcases List.mem_cons.mp htail with rfl | hmem
    · decide
    · exact hmember c hmem

/-- A member whose name has no word leaves the name of its parent, any other is heavier. -/
theorem weight_child {parent : Keypath} {member : Text} (hparent : Text.IsAscii parent)
    (hmember : member.IsAscii) :
    weight parent < weight (parent ++ '.' :: member) ∨
      weight parent = weight (parent ++ '.' :: member) ∧
        standardTypeName (parent ++ '.' :: member) = standardTypeName parent := by
  have hwords := keyWords_child parent member
  cases hadded : keyWords member with
  | nil =>
      rw [hadded, List.append_nil] at hwords
      refine Or.inr ⟨by rw [weight, weight, hwords], ?_⟩
      exact standardTypeName_congr (isAscii_child hparent hmember) hparent hwords
  | cons word later =>
      have hword := isAsciiWord_of_mem_keyWords hmember word (by simp [hadded])
      have hlong : 0 < word.length := List.length_pos_iff.mpr hword.nonempty
      refine Or.inl ?_
      rw [weight, weight, hwords, hadded]
      simp only [List.flatten_append, List.flatten_cons, List.length_append]
      omega

end Exemplar
