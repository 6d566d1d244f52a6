import Exemplar.Proofs.Layout.Types
import Exemplar.Proofs.Position

/-!
# Validators without their layout

The style of a layout decides where lines end and, with them, which lists get a comma at their
end.  `Text.squeezed` takes both away from a text: blanks outside of quoted keys, and then commas
in front of a closing bracket or brace.

Two layouts of a document are compared from the end.  `Doc.Relates` says what must hold of the
two texts that follow for something to hold of the two texts from the document on, like a
precondition for a postcondition, so that documents are put together step by step.  Most of them
only need texts that are squeezed to the same (`Almost`).  In front of a comma the texts must also
agree on whether they begin with a closing mark (`Same`), and where there may be a comma both must
begin with one (`Closing`).
-/

namespace Exemplar

/-! ## Squeezed texts -/

/-- Where a character stands with respect to quoted keys. -/
inductive Quoting where
  /-- In no quoted key. -/
  | outside
  /-- In a quoted key. -/
  | inside
  /-- Behind a backslash in a quoted key. -/
  | escaped
deriving DecidableEq, Repr

namespace Quoting

/-- Where the next character stands. -/
def next : Quoting → Char → Quoting
  | outside, c => if c = '"' then inside else outside
  | inside, c => if c = '"' then outside else if c = '\\' then escaped else inside
  | escaped, _ => inside

end Quoting

/-- A blank does not lead into a quoted key or out of one. -/
theorem Quoting.next_eq_outside_iff {quoting : Quoting} {c : Char}
    (hblank : Text.isBlank c = true) : quoting.next c = .outside ↔ quoting = .outside := by
  have hquote : c ≠ '"' := by
    rintro rfl
    exact absurd hblank (by decide)
  cases quoting with
  | outside => simp [next, hquote]
  | inside => by_cases hmark : c = '\\' <;> simp [next, hquote, hmark]
  | escaped => simp [next]

namespace Text

/-- The characters of a text but for the blanks outside of quoted keys, each with whether it
stands in a quoted key. -/
def solid : Quoting → Text → List (Char × Bool)
  | _, [] => []
  | quoting, c :: rest =>
      if quoting = .outside ∧ isBlank c = true then solid (quoting.next c) rest
      else (c, quoting ≠ .outside) :: solid (quoting.next c) rest

/-- A bracket or a brace is closed next, outside of quoted keys. -/
def closesNext : List (Char × Bool) → Bool
  | (c, false) :: _ => c = ']' || c = '\x7d'
  | _ => false

/-- Leave out the commas outside of quoted keys that a bracket or a brace follows. -/
def dropCommas : List (Char × Bool) → Text
  | [] => []
  | (c, quoted) :: rest =>
      if c = ',' ∧ quoted = false ∧ closesNext rest = true then dropCommas rest
      else c :: dropCommas rest

/-- A text without blanks outside of quoted keys, and without commas that a closing bracket or
brace then follows. -/
def squeezed (text : Text) : Text :=
  dropCommas (solid .outside text)

example : squeezed "a([\n  \"b, ]\": c,\n])" = ("a([\"b, ]\":c])" : Text) := by decide

/-! ## Quoted keys -/

/-- Quoted keys are closed in the end, and no line ends inside of one. -/
def Closed : Quoting → Text → Prop
  | quoting, [] => quoting = .outside
  | quoting, c :: rest => (c ≠ '\n' ∨ quoting = .outside) ∧ Closed (quoting.next c) rest

instance decidableClosed : (quoting : Quoting) → (text : Text) → Decidable (Closed quoting text)
  | quoting, [] => inferInstanceAs (Decidable (quoting = .outside))
  | quoting, c :: rest =>
      have := decidableClosed (quoting.next c) rest
      inferInstanceAs (Decidable ((c ≠ '\n' ∨ quoting = .outside) ∧ Closed (quoting.next c) rest))

/-- Texts with closed keys can be put one after the other. -/
theorem Closed.append {quoting : Quoting} {text later : Text} (htext : Closed quoting text)
    (hlater : Closed .outside later) : Closed quoting (text ++ later) := by
  induction text generalizing quoting with
  | nil =>
      obtain rfl : quoting = .outside := htext
      exact hlater
  | cons c rest ih => exact ⟨htext.1, ih htext.2⟩

/-- Behind a text with closed keys blanks are left out as at the start. -/
theorem solid_append {quoting : Quoting} {text : Text} (htext : Closed quoting text)
    (later : Text) :
    solid quoting (text ++ later) = solid quoting text ++ solid .outside later := by
  induction text generalizing quoting with
  | nil =>
      obtain rfl : quoting = .outside := htext
      rfl
  | cons c rest ih =>
      rw [List.cons_append, solid, solid]
      split
      · exact ih htext.2
      · rw [ih htext.2, List.cons_append]

/-- A text without quotes has no open key. -/
theorem closed_of_no_quote {text : Text} (htext : '"' ∉ text) : Closed .outside text := by
  induction text with
  | nil => rfl
  | cons c rest ih =>
      obtain ⟨hc, hrest⟩ := not_or.mp (mt List.mem_cons.mpr htext)
      have hnext : Quoting.next .outside c = .outside := if_neg (Ne.symm hc)
      refine ⟨.inr rfl, ?_⟩
      rw [hnext]
      exact ih hrest

/-- Plain characters in a quoted key do not close it. -/
theorem Closed.inside_append {text later : Text} (hquote : '"' ∉ text) (hmark : '\\' ∉ text)
    (hline : '\n' ∉ text) (hlater : Closed .inside later) : Closed .inside (text ++ later) := by
  induction text with
  | nil => exact hlater
  | cons c rest ih =>
      simp only [List.mem_cons, not_or] at hquote hmark hline
      have hnext : Quoting.next .inside c = .inside := by
        simp [Quoting.next, Ne.symm hquote.1, Ne.symm hmark.1]
      refine ⟨.inl (Ne.symm hline.1), ?_⟩
      rw [hnext]
      exact ih hquote.2 hmark.2 hline.2

/-- A character of a quoted key does not close it. -/
theorem Closed.keyChar (c : Char) {later : Text} (hlater : Closed .inside later) :
    Closed .inside (keyChar c ++ later) := by
  have hcontrol : ∀ code < 0x20, '"' ∉ hex 4 code ∧ '\\' ∉ hex 4 code ∧ '\n' ∉ hex 4 code := by
    decide +kernel
  have hescape (d : Char) (hd : d ≠ '\n') {rest : Text} (hrest : Closed .inside rest) :
      Closed .inside ('\\' :: d :: rest) :=
    ⟨.inl (by decide), .inl hd, hrest⟩
  unfold Text.keyChar
  split
  case h_8 hquote hmark hbreak _ _ _ _ =>
      split
      case isTrue hlow =>
          obtain ⟨hquotes, hmarks, hlines⟩ := hcontrol c.toNat hlow
          exact hescape 'u' (by decide) (Closed.inside_append hquotes hmarks hlines hlater)
      case isFalse =>
          exact Closed.inside_append (by simpa using Ne.symm hquote) (by simpa using Ne.symm hmark)
            (by simpa using Ne.symm hbreak) hlater
  all_goals exact hescape _ (by decide) hlater

/-- A quoted key is closed. -/
theorem closed_quotedKey (name : Text) : Closed .outside (quotedKey name) := by
  have hinside : Closed .inside (name.flatMap keyChar ++ ['"']) := by
    induction name with
    | nil => exact ⟨.inl (by decide), rfl⟩
    | cons c rest ih =>
        rw [List.flatMap_cons, List.append_assoc]
        exact ih.keyChar c
  exact ⟨.inr rfl, hinside⟩

/-! ## Blanks at the ends of lines -/

/-- Blanks outside of quoted keys leave nothing. -/
theorem solid_gap {gap : Text} (hgap : ∀ c ∈ gap, isBlank c = true) (later : Text) :
    solid .outside (gap ++ later) = solid .outside later := by
  induction gap with
  | nil => rfl
  | cons c rest ih =>
      obtain ⟨hc, hrest⟩ := List.forall_mem_cons.mp hgap
      rw [List.cons_append, solid, if_pos ⟨rfl, hc⟩, (Quoting.next_eq_outside_iff hc).mpr rfl]
      exact ih hrest

/-- The blanks in front of a text do not count. -/
theorem solid_dropWhile (text : Text) :
    solid .outside (text.dropWhile isBlank) = solid .outside text := by
  have hgap : ∀ c ∈ text.takeWhile isBlank, isBlank c = true :=
    List.all_eq_true.mp List.all_takeWhile
  rw [← solid_gap hgap, List.takeWhile_append_dropWhile]

/-- To leave out the blanks in front of a text opens no key. -/
theorem Closed.dropWhile {text : Text} (htext : Closed .outside text) :
    Closed .outside (text.dropWhile isBlank) := by
  induction text with
  | nil => exact htext
  | cons c rest ih =>
      cases hblank : isBlank c with
      | true =>
          obtain ⟨-, hrest⟩ := htext
          rw [(Quoting.next_eq_outside_iff hblank).mpr rfl] at hrest
          rw [List.dropWhile_cons_of_pos hblank]
          exact ih hrest
      | false =>
          rw [List.dropWhile_cons_of_neg (by simp [hblank])]
          exact htext

/-- Where no line ends inside of a quoted key, none of the blanks at the ends of lines stands in
one. -/
theorem outside_of_thins {text thin : Text} (hthin : Thins text thin) {quoting : Quoting}
    (hclosed : Closed quoting text) (hend : AtEnd thin) : quoting = .outside := by
  induction hthin generalizing quoting with
  | nil => exact hclosed
  | keep c hrest ih => exact hclosed.1.resolve_left (not_not_intro hend)
  | drop hblank hlater hrest ih =>
      exact (Quoting.next_eq_outside_iff hblank).mp (ih hclosed.2 hlater)

/-- **Trimmed lines.**  Removing the blanks at the ends of lines changes nothing but blanks outside
of quoted keys. -/
theorem solid_of_thins {text thin : Text} (hthin : Thins text thin) {quoting : Quoting}
    (hclosed : Closed quoting text) :
    solid quoting thin = solid quoting text ∧ Closed quoting thin := by
  induction hthin generalizing quoting with
  | nil => exact ⟨rfl, hclosed⟩
  | keep c hrest ih =>
      obtain ⟨hline, hlater⟩ := hclosed
      obtain ⟨hsame, hthere⟩ := ih hlater
      refine ⟨?_, hline, hthere⟩
      rw [solid, solid, hsame]
  | @drop c text thin hblank hend hrest ih =>
      obtain ⟨hline, hlater⟩ := hclosed
      have hnext := outside_of_thins hrest hlater hend
      obtain rfl := (Quoting.next_eq_outside_iff hblank).mp hnext
      obtain ⟨hsame, hthere⟩ := ih hlater
      rw [hnext] at hsame hthere
      refine ⟨?_, hthere⟩
      rw [solid, if_pos ⟨rfl, hblank⟩, hnext, hsame]

end Text

/-! ## Texts that are squeezed alike -/

open Text (closesNext dropCommas solid Closed)

/-- Two texts are squeezed to the same; they are given without their blanks. -/
def Almost (chars others : List (Char × Bool)) : Prop :=
  dropCommas chars = dropCommas others

/-- Two texts are squeezed to the same, and behind a comma as well. -/
def Same (chars others : List (Char × Bool)) : Prop :=
  Almost chars others ∧ closesNext chars = closesNext others

/-- Two texts are squeezed to the same and begin with a closing bracket or brace. -/
def Closing (chars others : List (Char × Bool)) : Prop :=
  Almost chars others ∧ closesNext chars = true ∧ closesNext others = true

/-- The same text can be put in front of both. -/
theorem Same.append (front : List (Char × Bool)) {chars others : List (Char × Bool)}
    (hsame : Same chars others) : Same (front ++ chars) (front ++ others) := by
  induction front with
  | nil => exact hsame
  | cons first rest ih =>
      obtain ⟨c, quoted⟩ := first
      refine ⟨?_, by cases quoted <;> rfl⟩
      rw [Almost, List.cons_append, List.cons_append, dropCommas, dropCommas, ih.1, ih.2]

/-- Behind anything but a comma it does not matter whether a text begins with a closing mark. -/
theorem Almost.append {front : List (Char × Bool)} {c : Char} {quoted : Bool}
    (hlast : front.getLast? = some (c, quoted)) (hother : c ≠ ',')
    {chars others : List (Char × Bool)} (halmost : Almost chars others) :
    Same (front ++ chars) (front ++ others) := by
  obtain ⟨before, rfl⟩ := List.getLast?_eq_some_iff.mp hlast
  rw [List.append_assoc, List.append_assoc]
  refine Same.append before ⟨?_, by cases quoted <;> rfl⟩
  simp only [Almost, List.singleton_append, dropCommas, hother, false_and, if_false]
  exact congrArg (c :: ·) halmost

/-- What is put in front begins with a closing mark, and ends in no comma that what follows could
take away. -/
theorem Almost.closing_append {front : List (Char × Bool)} {c : Char} {quoted : Bool}
    (hlast : front.getLast? = some (c, quoted)) (hother : c ≠ ',')
    (hcloses : closesNext front = true) {chars others : List (Char × Bool)}
    (halmost : Almost chars others) :
    Closing (front ++ chars) (front ++ others) := by
  have hfront (later : List (Char × Bool)) : closesNext (front ++ later) = true := by
    match front with
    | (d, false) :: rest => exact hcloses
  exact ⟨(halmost.append hlast hother).1, hfront chars, hfront others⟩

/-! ## Documents -/

namespace Doc

/-- Whatever two layouts of a document are put in front of texts that are related in one way, the
wholes are related in another way; and no layout ends in a quoted key or has a line end in one. -/
structure Relates (after before : List (Char × Bool) → List (Char × Bool) → Prop) (doc : Doc) :
    Prop where
  closed : ∀ laid, doc.Lays laid → Closed .outside laid
  related : ∀ laid other, doc.Lays laid → doc.Lays other → ∀ chars others, after chars others →
    before (solid .outside laid ++ chars) (solid .outside other ++ others)

variable {after between before : List (Char × Bool) → List (Char × Bool) → Prop}

/-- What is asked of the texts that follow may be more. -/
theorem Relates.mono {doc : Doc} (hdoc : doc.Relates between before)
    (hafter : ∀ chars others, after chars others → between chars others) :
    doc.Relates after before :=
  ⟨hdoc.closed, fun laid other hlaid hother chars others hrest =>
    hdoc.related laid other hlaid hother chars others (hafter chars others hrest)⟩

/-- Texts that agree on closing marks agree without them. -/
theorem Relates.almost {doc : Doc} (hdoc : doc.Relates after Same) : doc.Relates after Almost :=
  ⟨hdoc.closed, fun laid other hlaid hother chars others hrest =>
    (hdoc.related laid other hlaid hother chars others hrest).1⟩

/-- An empty sequence changes nothing. -/
theorem Relates.nil : (concat []).Relates after after where
  closed := by
    rintro laid rfl
    rfl
  related := by
    rintro laid other rfl rfl chars others hrest
    exact hrest

/-- A sequence relates by its first part what the later parts relate. -/
theorem Relates.cons {part : Doc} {rest : List Doc} (hpart : part.Relates between before)
    (hrest : (concat rest).Relates after between) :
    (concat (part :: rest)).Relates after before where
  closed := by
    rintro laid ⟨first, later, hfirst, hlater, rfl⟩
    exact (hpart.closed first hfirst).append (hrest.closed later hlater)
  related := by
    rintro laid other ⟨first, later, hfirst, hlater, rfl⟩ ⟨front, back, hfront, hback, rfl⟩ chars
      others hchars
    have hbetween := hrest.related later back hlater hback chars others hchars
    have hbefore := hpart.related first front hfirst hfront _ _ hbetween
    rwa [Text.solid_append (hpart.closed first hfirst),
      Text.solid_append (hpart.closed front hfront), List.append_assoc, List.append_assoc]

/-- Indentation changes blanks only. -/
theorem Relates.indent {body : Doc} (hbody : body.Relates after before) :
    (indent body).Relates after before :=
  ⟨hbody.closed, hbody.related⟩

/-- It does not matter whether a group is flat or broken. -/
theorem Relates.group {body : Doc} {marked : Bool} (hbody : body.Relates after before) :
    (group body marked).Relates after before :=
  ⟨hbody.closed, hbody.related⟩

/-- Lines relate texts as they are related without them. -/
theorem Relates.line {flat : Text} {hard : Bool} (hflat : flat.all Text.isBlank = true) :
    (Doc.line flat hard).Relates after after := by
  have hblank : ∀ laid, (Doc.line flat hard).Lays laid → ∀ c ∈ laid, Text.isBlank c = true := by
    rintro laid (rfl | ⟨indentation, rfl⟩)
    · exact List.all_eq_true.mp hflat
    · refine List.forall_mem_cons.mpr ⟨by decide, fun c hc => ?_⟩
      rw [(List.mem_replicate.mp hc).2]
      decide
  have hsolid : ∀ laid, (Doc.line flat hard).Lays laid → solid .outside laid = [] := by
    intro laid hlaid
    have hgap := Text.solid_gap (hblank laid hlaid) []
    rwa [List.append_nil] at hgap
  constructor
  · intro laid hlaid
    refine Text.closed_of_no_quote fun hmem => ?_
    exact absurd (hblank laid hlaid _ hmem) (by decide)
  · intro laid other hlaid hother chars others hrest
    rwa [hsolid laid hlaid, hsolid other hother]

/-- One text in two places relates what comes before to what comes after as it can. -/
theorem Relates.of_text {content : Text} (hclosed : Closed .outside content)
    (hrelated : ∀ chars others, after chars others →
      before (solid .outside content ++ chars) (solid .outside content ++ others)) :
    (Doc.text content).Relates after before where
  closed := by
    rintro laid rfl
    exact hclosed
  related := by
    rintro laid other rfl rfl
    exact hrelated

/-- A text with closed keys keeps two texts the same. -/
theorem Relates.text {content : Text} (hclosed : Closed .outside content) :
    (Doc.text content).Relates Same Same :=
  .of_text hclosed fun _ _ hrest => hrest.append _

/-- An empty text changes nothing. -/
theorem Relates.noText : (Doc.text []).Relates after after :=
  .of_text rfl fun _ _ hrest => hrest

/-- A comma that is there in broken layouts only, in front of a closing mark. -/
theorem Relates.comma : (ifBroken "," "").Relates Closing Almost := by
  have hlays : ∀ laid, (ifBroken "," "").Lays laid → laid = [','] ∨ laid = [] :=
    fun _ hlaid => hlaid
  have hdrops : ∀ laid, (ifBroken "," "").Lays laid → ∀ chars, closesNext chars = true →
      dropCommas (solid .outside laid ++ chars) = dropCommas chars := by
    intro laid hlaid chars hcloses
    rcases hlays laid hlaid with rfl | rfl
    · exact if_pos ⟨rfl, rfl, hcloses⟩
    · rfl
  constructor
  · intro laid hlaid
    rcases hlays laid hlaid with rfl | rfl
    · exact Text.closed_of_no_quote (by decide)
    · rfl
  · rintro laid other hlaid hother chars others ⟨halmost, hcloses, hothers⟩
    rw [Almost, hdrops laid hlaid chars hcloses, hdrops other hother others hothers]
    exact halmost

end Doc

/-! ### Words, keys and marks -/

namespace Text

/-- A text ends in something else than a blank or a comma. -/
def Firm (text : Text) : Prop :=
  text.getLast?.any (fun c => !isBlank c && c != ',') = true

instance (text : Text) : Decidable text.Firm :=
  inferInstanceAs (Decidable (_ = _))

/-- A text that ends in no blank keeps its last character. -/
theorem exists_getLast?_solid (quoting : Quoting) (before : Text) {c : Char}
    (hsolid : isBlank c = false) :
    ∃ quoted, (solid quoting (before ++ [c])).getLast? = some (c, quoted) := by
  induction before generalizing quoting with
  | nil =>
      refine ⟨quoting ≠ .outside, ?_⟩
      rw [List.nil_append, solid, if_neg (by simp [hsolid])]
      rfl
  | cons d rest ih =>
      obtain ⟨quoted, hrest⟩ := ih (quoting.next d)
      refine ⟨quoted, ?_⟩
      rw [List.cons_append, solid]
      split
      · exact hrest
      · rw [List.getLast?_cons, hrest]
        rfl

/-- A firm text keeps its last character, which is no comma. -/
theorem Firm.exists_getLast? {text : Text} (hfirm : text.Firm) :
    ∃ c quoted, (solid .outside text).getLast? = some (c, quoted) ∧ c ≠ ',' := by
  cases hlast : text.getLast? with
  | none => simp [Firm, hlast] at hfirm
  | some c =>
      obtain ⟨before, rfl⟩ := List.getLast?_eq_some_iff.mp hlast
      obtain ⟨hsolid, hother⟩ : isBlank c = false ∧ c ≠ ',' := by simpa [Firm] using hfirm
      obtain ⟨quoted, hquoted⟩ := exists_getLast?_solid .outside before hsolid
      exact ⟨c, quoted, hquoted, hother⟩

/-- A word is no quoted key and ends in a letter, a digit or an underscore. -/
theorem closed_firm_of_word {word : Text} (hne : word ≠ []) (hword : Uniform .word word) :
    Closed .outside word ∧ word.Firm := by
  refine ⟨closed_of_no_quote fun hmem => absurd (hword _ hmem) (by decide), ?_⟩
  obtain ⟨before, last, rfl⟩ := (List.eq_nil_or_concat' word).resolve_left hne
  have hlast : classOf last = .word := hword last (by simp)
  have hblank : isBlank last = false := isBlank_of_classOf (by simp [hlast])
  have hcomma : last ≠ ',' := by
    rintro rfl
    exact absurd hlast (by decide)
  simp [Firm, hblank, hcomma]

/-- An identifier has no quote, and ends in no comma. -/
theorem closed_firm_of_identifier {name : Text} (hname : name.IsAsciiIdentifier) :
    Closed .outside name ∧ name.Firm := by
  have hplain : isPlainKey name = true := by
    obtain ⟨hidentifier, hascii⟩ := hname
    cases name with
    | nil => cases hidentifier
    | cons c rest =>
        obtain ⟨hc, hrest⟩ := List.forall_mem_cons.mp hascii
        simp only [isIdentifier, startsIdentifier, hc, if_true, Bool.and_eq_true,
          List.all_eq_true] at hidentifier
        obtain ⟨hstart, hlater⟩ := hidentifier
        simp only [isPlainKey, hstart, Bool.true_or, Bool.true_and, List.all_eq_true]
        intro d hd
        have hword := hlater d hd
        rw [continuesIdentifier, if_pos (hrest d hd)] at hword
        rw [hword, Bool.true_or]
  obtain ⟨hne, hword⟩ := uniform_of_isPlainKey hplain
  exact closed_firm_of_word hne hword

/-- The key of a field is closed, and ends in no comma. -/
theorem closed_firm_fieldKey (name : Text) :
    Closed .outside (fieldKey name) ∧ (fieldKey name).Firm := by
  unfold fieldKey
  split
  case isTrue hplain =>
      obtain ⟨hne, hword⟩ := uniform_of_isPlainKey hplain
      exact closed_firm_of_word hne hword
  case isFalse =>
      refine ⟨closed_quotedKey name, ?_⟩
      rw [quotedKey, Firm, List.getLast?_concat]
      rfl

end Text

namespace Doc

/-- Behind a text that ends in no comma it does not matter what closes next. -/
theorem Relates.firm {content : Text} (hclosed : Closed .outside content) (hfirm : content.Firm) :
    (Doc.text content).Relates Almost Same := by
  obtain ⟨c, quoted, hlast, hother⟩ := hfirm.exists_getLast?
  exact .of_text hclosed fun _ _ hrest => hrest.append hlast hother

/-- A text that begins with a closing mark begins with one in both layouts. -/
theorem Relates.closing {content : Text} (hclosed : Closed .outside content)
    (hfirm : content.Firm) (hcloses : closesNext (solid .outside content) = true) :
    (Doc.text content).Relates Almost Closing := by
  obtain ⟨c, quoted, hlast, hother⟩ := hfirm.exists_getLast?
  exact .of_text hclosed fun _ _ hrest => hrest.closing_append hlast hother hcloses

end Doc

/-! ## Validators -/

namespace PropTypes

open Doc

/-- The fields of an object type, or the choices of a union, as far as they go. -/
theorem relates_joined {docs : List Doc} (hdocs : ∀ doc ∈ docs, doc.Relates Almost Same) :
    (joined (.concat [",", .spaceLine]) docs).Relates Almost Almost := by
  have hseparator : (concat [",", .spaceLine]).Relates Same Same :=
    .cons (.text (by decide)) (.cons (.line (by decide)) .nil)
  have hall : docs ≠ [] → (joined (.concat [",", .spaceLine]) docs).Relates Almost Same := by
    intro hsome
    induction docs with
    | nil => exact absurd rfl hsome
    | cons doc rest ih =>
        obtain ⟨hdoc, hrest⟩ := List.forall_mem_cons.mp hdocs
        cases rest with
        | nil => exact .cons hdoc .nil
        | cons second later =>
            have hlater := ih hrest (List.cons_ne_nil _ _)
            exact .cons (hdoc.mono fun _ _ => And.left) (.cons hseparator hlater)
  by_cases hnone : docs = []
  · subst hnone
    exact .nil
  · exact (hall hnone).almost

/-- A field is squeezed to the same if its validator is. -/
theorem relates_field (field : Field) {value : Doc} (hvalue : value.Relates Almost Same) :
    (fieldDoc field value).Relates Almost Same := by
  obtain ⟨hclosed, hfirm⟩ := Text.closed_firm_fieldKey field.name
  have hmark : (Doc.text (if field.required && !field.nullable then ".isRequired" else "")).Relates
      Almost Almost := by
    split
    · exact (Relates.firm (by decide) (by decide)).almost
    · exact .noText
  have hcolon : (Doc.text ": ").Relates Same Same :=
    .text (by decide)
  exact .cons ((Relates.firm hclosed hfirm).mono fun _ _ => And.left)
    (.cons hcolon (.cons hvalue (.cons hmark .nil)))

/-- A list of values is squeezed to the same. -/
theorem relates_values (exprs : List TypeExpr) :
    (valuesDoc (nullishNames exprs)).Relates Almost Same := by
  have hkinds : ∀ kind : Scalar, '"' ∉ kind.name := fun kind => by cases kind <;> decide
  have hnames := Text.closed_of_no_quote (not_mem_nullishNames (by decide) hkinds exprs)
  have hend : (Doc.text "])").Relates Almost Same :=
    .firm (by decide) (by decide)
  exact .cons (.text (by decide))
    (.cons (.text hnames) (.cons hend .nil))

/-- An array is squeezed to the same if its elements are. -/
theorem relates_array {element : Doc} (helement : element.Relates Almost Same) :
    (arrayDoc element).Relates Almost Same := by
  have hend : (Doc.text ")").Relates Almost Same :=
    .firm (by decide) (by decide)
  have hinside : (indentOf [softLine, element]).Relates Same Same :=
    .indent (.cons (.line (by decide)) (.cons (helement.mono fun _ _ => And.left) .nil))
  exact .group (.cons (.text (by decide))
    (.cons hinside (.cons (.line (by decide)) (.cons hend .nil))))

/-- A shape is squeezed to the same if its fields are. -/
theorem relates_object {fields : List Doc} (hfields : ∀ field ∈ fields, field.Relates Almost Same) :
    (objectDoc fields).Relates Almost Same := by
  unfold objectDoc
  split
  · exact .firm (by decide) (by decide)
  · have hopen : (Doc.text "\x7b").Relates Almost Same :=
      .firm (by decide) (by decide)
    have hclose : (Doc.text "\x7d").Relates Almost Closing :=
      .closing (by decide) (by decide) (by decide)
    have hinside : (indentOf [spaceLine, joined (.concat [",", .spaceLine]) fields]).Relates
        Almost Almost :=
      .indent (.cons (.line (by decide)) (.cons (relates_joined hfields) .nil))
    have hbraces : (groupOf
        ["\x7b", indentOf [spaceLine, joined (.concat [",", .spaceLine]) fields],
          ifBroken "," "", spaceLine, "\x7d"]).Relates Almost Same :=
      .group (.cons hopen (.cons hinside (.cons .comma (.cons (.line (by decide))
        (.cons hclose .nil)))))
    have hend : (Doc.text ")").Relates Almost Same :=
      .firm (by decide) (by decide)
    exact .cons (.text (by decide))
      (.cons (hbraces.mono fun _ _ => And.left) (.cons hend .nil))

/-- A choice is squeezed to the same if its alternatives are. -/
theorem relates_choice {docs : List Doc} (hdocs : ∀ doc ∈ docs, doc.Relates Almost Same) :
    (choiceDoc docs).Relates Almost Same := by
  have hopen : (Doc.text "PropTypes.oneOfType([").Relates Almost Same :=
    .firm (by decide) (by decide)
  have hclose : (Doc.text "])").Relates Almost Closing :=
    .closing (by decide) (by decide) (by decide)
  have hinside : (indentOf [softLine, joined (.concat [",", .spaceLine]) docs]).Relates
      Almost Almost :=
    .indent (.cons (.line (by decide)) (.cons (relates_joined hdocs) .nil))
  exact .group (.cons hopen (.cons hinside (.cons .comma (.cons (.line (by decide))
    (.cons hclose .nil)))))

/-- All layouts of the document of a validator are squeezed alike. -/
theorem TypeDoc.relates {doc : Doc} (hdoc : TypeDoc Text.IsAsciiIdentifier doc) :
    doc.Relates Almost Same := by
  induction hdoc with
  | name hname =>
      obtain ⟨hclosed, hfirm⟩ := Text.closed_firm_of_identifier hname
      exact .firm hclosed hfirm
  | scalar kind =>
      cases kind <;> exact .firm (by decide) (by decide)
  | anyArray => exact .firm (by decide) (by decide)
  | values exprs => exact relates_values exprs
  | array helement ih => exact relates_array ih
  | object hfields ih =>
      exact relates_object (List.forall_mem_map.mpr fun field hfield =>
        relates_field field.1 (ih field hfield))
  | choice hdocs ih => exact relates_choice ih

end PropTypes

/-! ## Whole texts -/

namespace Doc

/-- Without the blanks at the ends of lines nothing else is missing from a layout. -/
theorem Relates.solid_layout {after before : List (Char × Bool) → List (Char × Bool) → Prop}
    {doc : Doc} (hdoc : doc.Relates after before) (style : Style) :
    solid .outside (doc.layout style) = solid .outside (doc.print style) ∧
      Closed .outside (doc.layout style) :=
  Text.solid_of_thins (thins_unlines _) (hdoc.closed _ (doc.print_lays style))

/-- Two styles print such a document as texts that are squeezed to the same. -/
theorem Relates.squeezed_print {doc : Doc} (hdoc : doc.Relates Almost Almost)
    (style other : Style) : (doc.print style).squeezed = (doc.print other).squeezed := by
  have halmost := hdoc.related _ _ (doc.print_lays style) (doc.print_lays other) [] [] rfl
  rwa [List.append_nil, List.append_nil] at halmost

/-- So are its layouts as an expression. -/
theorem Relates.squeezed_layoutExpression {doc : Doc} (hdoc : doc.Relates Almost Almost)
    (style other : Style) :
    (doc.layoutExpression style).squeezed = (doc.layoutExpression other).squeezed := by
  have hprint (style : Style) :
      (doc.layoutExpression style).squeezed = (doc.print style).squeezed := by
    obtain ⟨hsame, hclosed⟩ := hdoc.solid_layout style
    have htrimmed := Text.solid_of_thins (thins_trimEnd _) hclosed.dropWhile
    rw [Text.solid_dropWhile, hsame] at htrimmed
    exact congrArg dropCommas htrimmed.1
  rw [hprint style, hprint other, hdoc.squeezed_print style other]

/-- The line feed at the end of a program changes nothing either. -/
theorem Relates.squeezed_layout {after before : List (Char × Bool) → List (Char × Bool) → Prop}
    {doc : Doc} (hdoc : doc.Relates after before) (style : Style) :
    (doc.layout style ++ ['\n']).squeezed = (doc.print style).squeezed := by
  obtain ⟨hsame, hclosed⟩ := hdoc.solid_layout style
  rw [Text.squeezed, Text.solid_append hclosed, hsame]
  exact congrArg dropCommas (List.append_nil _)

/-- Lines of such documents are such a document. -/
theorem Relates.lines {docs : List Doc} (hdocs : ∀ doc ∈ docs, doc.Relates Almost Almost) :
    (joined hardLine docs).Relates Almost Almost := by
  induction docs with
  | nil => exact .nil
  | cons doc rest ih =>
      obtain ⟨hdoc, hrest⟩ := List.forall_mem_cons.mp hdocs
      cases rest with
      | nil => exact .cons hdoc .nil
      | cons second later => exact .cons hdoc (.cons (.line (by decide)) (ih hrest))

/-- Two layouts of the same statements with the same terminator are squeezed alike. -/
theorem squeezed_layoutProgram {statements : List Doc}
    (hstatements : ∀ statement ∈ statements, statement.Relates Almost Same) {style other : Style}
    (hterminator : other.terminator = style.terminator) :
    (layoutProgram style statements).squeezed = (layoutProgram other statements).squeezed := by
  have hend : (text style.terminator).Relates Almost Almost := by
    unfold Style.terminator
    split
    · exact (Relates.firm (by decide) (by decide)).almost
    · exact .noText
  have hlines := Relates.lines (List.forall_mem_map.mpr fun statement hmem =>
    Relates.cons (hstatements statement hmem).almost (.cons hend .nil))
  unfold layoutProgram
  split
  · rfl
  · simp only [hterminator]
    rw [hlines.squeezed_layout, hlines.squeezed_layout, hlines.squeezed_print style other]

end Doc

/-- The import is squeezed to the same. -/
theorem PropTypes.relates_preamble : ∀ statement ∈ preamble, statement.Relates Almost Same := by
  refine List.forall_mem_cons.mpr ⟨.firm (by decide) (by decide), nofun⟩

/-- A declaration is squeezed to the same if its body is. -/
theorem PropTypes.relates_declaration {name : Name} (hname : name.IsAsciiIdentifier) {body : Doc}
    (hbody : body.Relates Almost Same) : (declaration name body).Relates Almost Same := by
  obtain ⟨hclosed, hfirm⟩ := Text.closed_firm_of_identifier hname
  exact .cons (.text (by decide)) (.cons (.text hclosed) (.cons (.text (by decide))
    (.cons hbody .nil)))

/-- Every validator is squeezed to the same, if the names in it are identifiers. -/
theorem TypeExpr.relates_doc (style : Style) {expr : TypeExpr}
    (hnames : ∀ name ∈ expr.references, Text.IsAsciiIdentifier name) :
    (expr.doc .propTypes style).Relates Almost Same :=
  (PropTypes.typeDoc_doc expr hnames).relates

namespace Model

section

variable {model : Model} (hguarded : model.Guarded)
  (hnames : ∀ name ∈ model.typeNames, Text.IsAsciiIdentifier name) {style other : Style}
include hguarded hnames

/-- Two styles give programs that are squeezed to the same. -/
theorem squeezed_named (hsame : other.semicolons = style.semicolons) :
    ∃ text again, model.renderNamed? .propTypes style = some text ∧
      model.renderNamed? .propTypes other = some again ∧ text.squeezed = again.squeezed := by
  obtain ⟨declarations, hdeclarations, -, hall⟩ := exists_statements hguarded .propTypes style
  have hothers : model.declarations? .propTypes other = some declarations := hdeclarations
  have hterminator : other.terminator = style.terminator := by
    rw [Style.terminator, Style.terminator, hsame]
  refine ⟨_, _, renderNamed?_eq hdeclarations, renderNamed?_eq hothers, ?_⟩
  refine Doc.squeezed_layoutProgram (fun statement hstatement => ?_) hterminator
  split at hstatement
  case isTrue hnone => exact absurd hstatement List.not_mem_nil
  case isFalse hsome =>
    rcases List.mem_append.mp hstatement with hbefore | hdeclaration
    · exact PropTypes.relates_preamble statement hbefore
    · obtain ⟨name, expr, hname, hmentions, rfl⟩ := hall statement hdeclaration
      exact PropTypes.relates_declaration (hnames name hname)
        (expr.relates_doc style fun mention hmention => hnames mention (hmentions mention hmention))

/-- Two styles give expressions that are squeezed to the same. -/
theorem squeezed_inlined (root : Option Keypath) :
    ∃ text again, model.renderInlined? .propTypes style root = some text ∧
      model.renderInlined? .propTypes other root = some again ∧
      text.squeezed = again.squeezed := by
  rcases renderInlined?_cases hguarded .propTypes root with hnothing | ⟨key, expr, hexpr, htext⟩
  · exact ⟨[], [], hnothing _, hnothing _, rfl⟩
  · have hdoc := expr.relates_doc style fun name hname =>
      hnames name (mem_typeNames_of_mem_references hexpr name hname)
    refine ⟨_, _, htext style, htext other, ?_⟩
    exact hdoc.almost.squeezed_layoutExpression style other

/-- **Only the layout changes.**  In a model in which every cycle of fields passes through a named
type and all type names are ASCII identifiers, take two styles that agree on semicolons.  In every
mode and for every root the two texts of prop-types are the same but for blanks outside of quoted
keys and commas that a closing bracket or brace then follows. -/
theorem squeezed_render_eq (options : RenderOptions)
    (hsame : other.semicolons = options.style.semicolons) :
    ∃ text again, model.render? .propTypes options = some text ∧
      model.render? .propTypes { options with style := other } = some again ∧
      text.squeezed = again.squeezed := by
  obtain ⟨inlined, root, style⟩ := options
  cases inlined with
  | true => exact squeezed_inlined hguarded hnames root
  | false => exact squeezed_named hguarded hnames hsame

end

/-- Programs of widths 20 and 200 differ, and are squeezed to the same. -/
theorem squeezed_render_eq_guild :
    let model := (Builder.afterAll {} guild).model
    let narrow : Style := { semicolons := true, width := ⟨20, by decide⟩ }
    let wide : Style := { semicolons := true, width := ⟨200, by decide⟩, tab := ⟨8, by decide⟩ }
    model.Guarded ∧ (∀ name ∈ model.typeNames, Text.IsAsciiIdentifier name) ∧
      wide.semicolons = narrow.semicolons ∧
      model.render? .propTypes { style := narrow } ≠ model.render? .propTypes { style := wide } ∧
      ∃ text again, model.render? .propTypes { style := narrow } = some text ∧
        model.render? .propTypes { style := wide } = some again ∧
        text.squeezed = again.squeezed := by
  intro model narrow wide
  have hguarded : model.Guarded := guarded_of_rank List.length (by decide +kernel)
  have hnames : ∀ name ∈ model.typeNames, Text.IsAsciiIdentifier name := by decide +kernel
  have hsame : wide.semicolons = narrow.semicolons := rfl
  have hdiffer : model.render? .propTypes { style := narrow } ≠
      model.render? .propTypes { style := wide } := by
    decide +kernel
  exact ⟨hguarded, hnames, hsame, hdiffer,
    squeezed_render_eq hguarded hnames { style := narrow } hsame⟩

end Model

end Exemplar
