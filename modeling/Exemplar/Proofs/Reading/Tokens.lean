import Exemplar.Dialect
import Exemplar.Proofs.Layout

/-!
# Tokens of generated code

The text of a type is made of words, quoted names and marks, with blanks and semicolons
between them.  `Spaced` relates a text to its tokens without regard to what is between
them, except that two words need something to keep them apart.

A text has one list of tokens only (`Spaced.unique`), since the first character tells
what comes, a word goes on as far as it can, and an escaped name shows where it ends.
And what the removal of blanks leaves of a text still has the tokens that it had
(`Spaced.thin`, `Spaced.dropWhile`), since a name never holds the end of a line.
-/

namespace Exemplar

/-! ## Characters -/

/-- The marks in the text of a type. -/
inductive Mark where
  /-- The beginning of an object type. -/
  | openBrace
  /-- The end of an object type. -/
  | closeBrace
  /-- The beginning of the parameters of a function. -/
  | openParen
  /-- The end of the parameters of a function. -/
  | closeParen
  /-- What stands in front of the type of a field. -/
  | colon
  /-- What follows the key of an optional field. -/
  | question
  /-- What stands between alternatives. -/
  | bar
  /-- The beginning of the type of elements. -/
  | openAngle
  /-- The end of the type of elements. -/
  | closeAngle
deriving DecidableEq, Repr

namespace Mark

/-- A mark as it is written. -/
def char : Mark → Char
  | openBrace => '\x7b'
  | closeBrace => '\x7d'
  | openParen => '('
  | closeParen => ')'
  | colon => ':'
  | question => '?'
  | bar => '|'
  | openAngle => '<'
  | closeAngle => '>'

/-- All marks. -/
def all : List Mark :=
  [openBrace, closeBrace, openParen, closeParen, colon, question, bar, openAngle, closeAngle]

end Mark

/-- What a character can be the first one of. -/
inductive CharClass where
  /-- A word. -/
  | word
  /-- A quoted name. -/
  | quote
  /-- Nothing more than a mark. -/
  | mark (mark : Mark)
  /-- Nothing that counts. -/
  | space
  /-- Nothing at all. -/
  | other
deriving DecidableEq

/-- Whether words have this character. -/
def isWordChar (c : Char) : Bool :=
  c.isAlphanum || c == '_' || c == '$'

/-- What a character can be the first one of; semicolons are as good as blanks. -/
def classOf (c : Char) : CharClass :=
  if isWordChar c then .word
  else if c = '"' then .quote
  else match Mark.all.find? fun mark => mark.char == c with
    | some mark => .mark mark
    | none => if Text.isBlank c || c == ';' then .space else .other

/-- Each mark is in a class of its own. -/
theorem classOf_char (mark : Mark) : classOf mark.char = .mark mark := by
  cases mark <;> decide

/-- Word characters are in ASCII. -/
theorem isAscii_of_isWordChar {c : Char} (hword : isWordChar c = true) : c.toNat < 0x80 := by
  delta isWordChar Char.isAlphanum Char.isAlpha Char.isUpper Char.isLower Char.isDigit at hword
  simp only [Bool.or_eq_true, Bool.and_eq_true, decide_eq_true_eq, beq_iff_eq, ge_iff_le,
    UInt32.le_iff_toNat_le] at hword
  rcases hword with (((hupper | hlower) | hdigit) | rfl) | rfl
  · exact Nat.lt_of_le_of_lt hupper.2 (by decide)
  · exact Nat.lt_of_le_of_lt hlower.2 (by decide)
  · exact Nat.lt_of_le_of_lt hdigit.2 (by decide)
  · decide
  · decide

/-- No word character is a blank. -/
theorem isBlank_of_isWordChar {c : Char} (hword : isWordChar c = true) :
    Text.isBlank c = false := by
  have hall : ∀ code < 0x80, isWordChar (Char.ofNat code) = true →
      Text.isBlank (Char.ofNat code) = false := by decide +kernel
  have hchar := hall c.toNat (isAscii_of_isWordChar hword)
  rw [Char.ofNat_toNat] at hchar
  exact hchar hword

/-- Blanks count as space. -/
theorem classOf_of_isBlank {c : Char} (hblank : Text.isBlank c = true) : classOf c = .space := by
  have hword : isWordChar c ≠ true := by
    intro hword
    simp [isBlank_of_isWordChar hword] at hblank
  have hquote : c ≠ '"' := by
    intro hquote
    subst hquote
    exact absurd hblank (by decide)
  have hmark : (Mark.all.find? fun mark => mark.char == c) = none := by
    have hall : ∀ mark ∈ Mark.all, Text.isBlank mark.char = false := by decide
    refine List.find?_eq_none.mpr fun mark hmem hsame => ?_
    rw [← beq_iff_eq.mp hsame, hall mark hmem] at hblank
    cases hblank
  simp only [classOf, hword, hquote, hmark, hblank, if_false, Bool.true_or, if_true,
    Bool.false_eq_true]

/-- What counts is not blank. -/
theorem isBlank_of_classOf {c : Char} (hclass : classOf c ≠ .space) : Text.isBlank c = false := by
  rw [← Bool.not_eq_true]
  exact fun hblank => hclass (classOf_of_isBlank hblank)

/-- All characters of a text belong to one class. -/
def Uniform (kind : CharClass) (text : Text) : Prop :=
  ∀ c ∈ text, classOf c = kind

instance (kind : CharClass) (text : Text) : Decidable (Uniform kind text) :=
  List.decidableBAll _ text

/-- A text in front of which a word can end. -/
def StopsWord : Text → Prop
  | [] => True
  | c :: _ => classOf c ≠ .word

/-! ## Quoted names -/

/-- The first character of what stands between quotes, with the text after it. -/
def unescape : Text → Option (Char × Text)
  | [] => none
  | '"' :: _ => none
  | ['\\'] => none
  | '\\' :: 'n' :: rest => some ('\n', rest)
  | '\\' :: 'r' :: rest => some ('\r', rest)
  | '\\' :: 't' :: rest => some ('\t', rest)
  | '\\' :: 'b' :: rest => some ('\x08', rest)
  | '\\' :: 'f' :: rest => some ('\x0c', rest)
  | '\\' :: 'u' :: rest =>
      ((List.range 0x20).find? fun code => Text.hex 4 code == rest.take 4).map fun code =>
        (Char.ofNat code, rest.drop 4)
  | '\\' :: c :: rest => some (c, rest)
  | c :: rest => some (c, rest)

/-- The codes of controls have four digits, and are told apart by them. -/
theorem find?_control : ∀ code < 0x20, (Text.hex 4 code).length = 4 ∧
    (List.range 0x20).find? (fun other => Text.hex 4 other == Text.hex 4 code) = some code := by
  decide +kernel

/-- An escaped character is read back, whatever follows. -/
theorem unescape_keyChar (c : Char) (rest : Text) :
    unescape (Text.keyChar c ++ rest) = some (c, rest) := by
  unfold Text.keyChar
  split
  all_goals try rfl
  split
  · rename_i hcontrol
    obtain ⟨hlength, hfound⟩ := find?_control c.toNat hcontrol
    have htake : (Text.hex 4 c.toNat ++ rest).take 4 = Text.hex 4 c.toNat :=
      List.take_left' hlength
    have hdrop : (Text.hex 4 c.toNat ++ rest).drop 4 = rest :=
      List.drop_left' hlength
    simp only [List.cons_append, List.nil_append, unescape, htake, hdrop, hfound, Option.map_some,
      Char.ofNat_toNat]
  · simp_all [unescape]

/-- What is written for a character shows where it ends. -/
theorem keyChar_append_inj {c d : Char} {text other : Text}
    (hsame : Text.keyChar c ++ text = Text.keyChar d ++ other) : c = d ∧ text = other := by
  have hread := unescape_keyChar c text
  rw [hsame, unescape_keyChar] at hread
  exact ⟨(Prod.mk.inj (Option.some.inj hread)).1.symm, (Prod.mk.inj (Option.some.inj hread)).2.symm⟩

/-- Nothing that is written for a character starts with a quote. -/
theorem keyChar_append_ne_quote (c : Char) (text other : Text) :
    Text.keyChar c ++ text ≠ '"' :: other := by
  intro hsame
  have hread := unescape_keyChar c text
  rw [hsame] at hread
  cases hread

/-- A quoted name shows where it ends. -/
theorem escaped_append_inj {name other : Text} {text rest : Text}
    (hsame : name.flatMap Text.keyChar ++ '"' :: text =
      other.flatMap Text.keyChar ++ '"' :: rest) : name = other ∧ text = rest := by
  induction name generalizing other with
  | nil =>
      cases other with
      | nil => exact ⟨rfl, (List.cons.inj hsame).2⟩
      | cons d later =>
          rw [List.flatMap_cons, List.append_assoc] at hsame
          exact absurd hsame.symm (keyChar_append_ne_quote d _ _)
  | cons c name ih =>
      cases other with
      | nil =>
          rw [List.flatMap_cons, List.append_assoc] at hsame
          exact absurd hsame (keyChar_append_ne_quote c _ _)
      | cons d later =>
          rw [List.flatMap_cons, List.flatMap_cons, List.append_assoc, List.append_assoc] at hsame
          obtain ⟨rfl, hrest⟩ := keyChar_append_inj hsame
          obtain ⟨rfl, htext⟩ := ih hrest
          exact ⟨rfl, htext⟩

/-- An escaped name holds no end of a line. -/
theorem newline_not_mem_keyChar (c : Char) : '\n' ∉ Text.keyChar c := by
  have hcontrol : ∀ code < 0x20, '\n' ∉ Text.hex 4 code := by decide +kernel
  unfold Text.keyChar
  split
  case h_8 hquote hbackslash hbreak hreturn htab hbackspace hfeed =>
      split
      case isTrue hlow => simpa using hcontrol c.toNat hlow
      case isFalse => simpa [eq_comm] using hbreak
  all_goals decide

/-- An escaped name stays in its line. -/
theorem ne_newline_of_mem_escaped {name : Text} {c : Char}
    (hmem : c ∈ name.flatMap Text.keyChar) : c ≠ '\n' := by
  obtain ⟨d, -, hchar⟩ := List.mem_flatMap.mp hmem
  intro hbreak
  subst hbreak
  exact newline_not_mem_keyChar d hchar

/-! ## Texts and their tokens -/

/-- What counts in the text of a type. -/
inductive Token where
  /-- A word: a key without quotes, or the name of a type. -/
  | word (text : Text)
  /-- A name in quotes. -/
  | name (text : Text)
  /-- A mark. -/
  | mark (mark : Mark)
deriving DecidableEq, Repr

/-- A text has these tokens. -/
inductive Spaced : List Token → Text → Prop
  | nil : Spaced [] []
  | skip {c : Char} {tokens : List Token} {text : Text} (hspace : classOf c = .space)
      (hrest : Spaced tokens text) : Spaced tokens (c :: text)
  | word {c : Char} {later : Text} {tokens : List Token} {text : Text}
      (hchars : Uniform .word (c :: later)) (hstops : StopsWord text)
      (hrest : Spaced tokens text) : Spaced (.word (c :: later) :: tokens) (c :: (later ++ text))
  | name (name : Text) {tokens : List Token} {text : Text} (hrest : Spaced tokens text) :
      Spaced (.name name :: tokens) ('"' :: (name.flatMap Text.keyChar ++ '"' :: text))
  | mark {c : Char} {mark : Mark} {tokens : List Token} {text : Text}
      (hchar : classOf c = .mark mark) (hrest : Spaced tokens text) :
      Spaced (.mark mark :: tokens) (c :: text)

/-- A word goes on as far as it can. -/
theorem word_append_inj {word other text rest : Text} (hword : Uniform .word word)
    (hother : Uniform .word other) (htext : StopsWord text) (hrest : StopsWord rest)
    (hsame : word ++ text = other ++ rest) : word = other ∧ text = rest := by
  induction word generalizing other with
  | nil =>
      cases other with
      | nil => exact ⟨rfl, hsame⟩
      | cons d later =>
          rw [List.nil_append] at hsame
          subst hsame
          exact absurd (hother d List.mem_cons_self) htext
  | cons c word ih =>
      cases other with
      | nil =>
          rw [List.nil_append] at hsame
          subst hsame
          exact absurd (hword c List.mem_cons_self) hrest
      | cons d later =>
          obtain ⟨rfl, htail⟩ := List.cons.inj hsame
          obtain ⟨rfl, hlast⟩ := ih (fun e he => hword e (List.mem_cons_of_mem c he))
            (fun e he => hother e (List.mem_cons_of_mem c he)) htail
          exact ⟨rfl, hlast⟩

/-- **One list of tokens.**  A text tells its tokens. -/
theorem Spaced.unique {tokens others : List Token} {text : Text} (hspaced : Spaced tokens text)
    (hother : Spaced others text) : tokens = others := by
  -- the class of the first character leaves one constructor for the other derivation
  induction hspaced generalizing others with
  | nil =>
      cases hother
      rfl
  | @skip c tokens text hspace _ ih =>
      cases hother with
      | skip _ hrest => exact ih hrest
      | word hchars => cases hspace.symm.trans (hchars c List.mem_cons_self)
      | name => cases hspace
      | mark hmark => cases hspace.symm.trans hmark
  | @word c later tokens text hchars hstops _ ih =>
      have hword := hchars c List.mem_cons_self
      generalize hwhole : later ++ text = whole at hother
      cases hother with
      | skip hspace => cases hword.symm.trans hspace
      | @word _ last others rest hothers hlast hrest =>
          obtain ⟨rfl, rfl⟩ := word_append_inj (fun d hd => hchars d (List.mem_cons_of_mem c hd))
            (fun d hd => hothers d (List.mem_cons_of_mem c hd)) hstops hlast hwhole
          rw [ih hrest]
      | name => cases hword
      | mark hmark => cases hword.symm.trans hmark
  | @name name tokens text _ ih =>
      generalize hwhole : name.flatMap Text.keyChar ++ '"' :: text = whole at hother
      cases hother with
      | skip hspace => cases hspace
      | word hchars => cases hchars '"' List.mem_cons_self
      | @name other others rest hrest =>
          obtain ⟨rfl, rfl⟩ := escaped_append_inj hwhole
          rw [ih hrest]
      | mark hmark => cases hmark
  | @mark c mark tokens text hmark _ ih =>
      cases hother with
      | skip hspace => cases hmark.symm.trans hspace
      | word hchars => cases hmark.symm.trans (hchars c List.mem_cons_self)
      | name => cases hmark
      | mark hagain hrest => rw [CharClass.mark.inj (hmark.symm.trans hagain), ih hrest]

/-! ## Without blanks -/

/-- What stands at the end of a line is no other character. -/
theorem AtEnd.ne_cons {text : Text} (hend : AtEnd text) {c : Char} (hother : c ≠ '\n')
    (rest : Text) : text ≠ c :: rest := by
  intro hsame
  subst hsame
  exact hother hend

/-- A character that is not blank stays. -/
theorem thins_cons {c : Char} {text thin : Text} (hsolid : Text.isBlank c = false)
    (hthin : Thins (c :: text) thin) : ∃ rest, thin = c :: rest ∧ Thins text rest := by
  cases hthin with
  | keep _ hrest => exact ⟨_, rfl, hrest⟩
  | drop hblank => simp [hsolid] at hblank

/-- Within a line everything stays in front of a character that is not blank. -/
theorem thins_append {first text thin : Text} {c : Char} (hline : ∀ d ∈ first, d ≠ '\n')
    (hsolid : Text.isBlank c = false) (hthin : Thins (first ++ c :: text) thin) :
    ∃ rest, thin = first ++ c :: rest ∧ Thins text rest := by
  induction first generalizing thin with
  | nil => exact thins_cons hsolid hthin
  | cons d first ih =>
      obtain ⟨hd, hfirst⟩ := List.forall_mem_cons.mp hline
      cases hthin with
      | keep _ hrest =>
          obtain ⟨rest, rfl, htext⟩ := ih hfirst hrest
          exact ⟨rest, rfl, htext⟩
      | drop _ hend hrest =>
          -- what is left would begin with the end of a line, which is not in sight yet
          obtain ⟨rest, hsame, -⟩ := ih hfirst hrest
          cases first with
          | nil =>
              have hbreak : c ≠ '\n' := by
                intro hbreak
                subst hbreak
                exact absurd hsolid (by decide)
              exact absurd hsame (hend.ne_cons hbreak _)
          | cons e first => exact absurd hsame (hend.ne_cons (hfirst e List.mem_cons_self) _)

/-- Leaving out blanks joins no words. -/
theorem StopsWord.thin {text thin : Text} (hstops : StopsWord text) (hthin : Thins text thin) :
    StopsWord thin := by
  cases hthin with
  | nil => trivial
  | keep c _ => exact hstops
  | @drop c text _ _ hend _ =>
      cases thin with
      | nil => trivial
      | cons d rest =>
          obtain rfl : d = '\n' := hend
          exact fun hword => absurd hword (by decide)

/-- No word loses a character. -/
theorem thins_word {word text thin : Text} (hword : Uniform .word word)
    (hthin : Thins (word ++ text) thin) : ∃ rest, thin = word ++ rest ∧ Thins text rest := by
  induction word generalizing thin with
  | nil => exact ⟨thin, rfl, hthin⟩
  | cons c word ih =>
      obtain ⟨hc, hlater⟩ := List.forall_mem_cons.mp hword
      obtain ⟨whole, rfl, hwhole⟩ := thins_cons (isBlank_of_classOf (by simp [hc])) hthin
      obtain ⟨rest, rfl, hrest⟩ := ih hlater hwhole
      exact ⟨rest, rfl, hrest⟩

/-- To leave out blanks at the ends of lines leaves the tokens alone. -/
theorem Spaced.thin {tokens : List Token} {text thin : Text} (hspaced : Spaced tokens text)
    (hthin : Thins text thin) : Spaced tokens thin := by
  induction hspaced generalizing thin with
  | nil =>
      cases hthin
      exact .nil
  | skip hspace _ ih =>
      cases hthin with
      | keep _ hrest => exact .skip hspace (ih hrest)
      | drop _ _ hrest => exact ih hrest
  | word hchars hstops _ ih =>
      obtain ⟨rest, rfl, hrest⟩ := thins_word hchars hthin
      exact .word hchars (hstops.thin hrest) (ih hrest)
  | name name _ ih =>
      obtain ⟨whole, rfl, hwhole⟩ := thins_cons (isBlank_of_classOf (by decide)) hthin
      obtain ⟨rest, rfl, hrest⟩ := thins_append (fun c hc => ne_newline_of_mem_escaped hc)
        (isBlank_of_classOf (by decide)) hwhole
      exact .name name (ih hrest)
  | mark hmark _ ih =>
      obtain ⟨rest, rfl, hrest⟩ := thins_cons (isBlank_of_classOf (by simp [hmark])) hthin
      exact .mark hmark (ih hrest)

/-- Blanks in front are no tokens. -/
theorem Spaced.dropWhile {tokens : List Token} {text : Text} (hspaced : Spaced tokens text) :
    Spaced tokens (text.dropWhile Text.isBlank) := by
  induction text with
  | nil => exact hspaced
  | cons c rest ih =>
      rw [List.dropWhile_cons]
      split
      · rename_i hblank
        have hspace := classOf_of_isBlank hblank
        cases hspaced with
        | skip _ hrest => exact ih hrest
        | word hchars => cases hspace.symm.trans (hchars c List.mem_cons_self)
        | name => cases hspace
        | mark hmark => cases hspace.symm.trans hmark
      · exact hspaced

/-! ## Pieces of texts -/

/-- A piece of a text has these tokens, whatever the text goes on with if not with a word. -/
def Spells (tokens : List Token) (piece : Text) : Prop :=
  ∀ others later, Spaced others later → StopsWord later →
    Spaced (tokens ++ others) (piece ++ later)

/-- A piece is a text, too, if nothing follows. -/
theorem Spells.spaced {tokens : List Token} {piece : Text} (hspells : Spells tokens piece) :
    Spaced tokens piece := by
  have hwhole := hspells [] [] .nil trivial
  rwa [List.append_nil, List.append_nil] at hwhole

/-- What does not count adds nothing. -/
theorem Spaced.skipAll {tokens : List Token} {text gap : Text} (hspaced : Spaced tokens text)
    (hgap : Uniform .space gap) : Spaced tokens (gap ++ text) := by
  induction gap with
  | nil => exact hspaced
  | cons c gap ih =>
      obtain ⟨hc, hlater⟩ := List.forall_mem_cons.mp hgap
      exact .skip hc (ih hlater)

/-- A word in front of what stops it is a token. -/
theorem Spaced.wordText {word text : Text} {tokens : List Token} (hne : word ≠ [])
    (hchars : Uniform .word word) (hstops : StopsWord text)
    (hspaced : Spaced tokens text) : Spaced (.word word :: tokens) (word ++ text) := by
  cases word with
  | nil => exact absurd rfl hne
  | cons c later => exact .word hchars hstops hspaced

/-- A mark is a token, whatever follows. -/
theorem Spaced.markText (mark : Mark) {tokens : List Token} {text : Text}
    (hspaced : Spaced tokens text) : Spaced (.mark mark :: tokens) (mark.char :: text) :=
  .mark (classOf_char mark) hspaced

/-- A blank is no token. -/
theorem Spaced.blank {tokens : List Token} {text : Text} (hspaced : Spaced tokens text) :
    Spaced tokens (' ' :: text) :=
  .skip (by decide) hspaced

/-- A blank ends a word. -/
theorem stopsWord_blank (text : Text) : StopsWord (' ' :: text) :=
  fun hword => by cases hword

/-- A mark ends a word. -/
theorem stopsWord_mark (mark : Mark) (text : Text) : StopsWord (mark.char :: text) := by
  simp [StopsWord, classOf_char]

/-- Texts of one class make a text of that class. -/
theorem Uniform.append {kind : CharClass} {text other : Text} (htext : Uniform kind text)
    (hother : Uniform kind other) : Uniform kind (text ++ other) :=
  fun c hc => (List.mem_append.mp hc).elim (htext c) (hother c)

/-- Space in front of what ends a word ends it as well. -/
theorem Uniform.stopsWord {gap text : Text} (hgap : Uniform .space gap)
    (hstops : StopsWord text) : StopsWord (gap ++ text) := by
  cases gap with
  | nil => exact hstops
  | cons c later => simp [StopsWord, hgap c List.mem_cons_self]

/-- What does not count keeps words apart unless it is nothing. -/
theorem Uniform.stopsWord_of_ne_nil {gap : Text} (hgap : Uniform .space gap) (hne : gap ≠ [])
    (text : Text) : StopsWord (gap ++ text) := by
  cases gap with
  | nil => exact absurd rfl hne
  | cons c later => simp [StopsWord, hgap c List.mem_cons_self]

end Exemplar
