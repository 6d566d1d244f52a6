import Exemplar.Proofs.Reading.Grammar
import Mathlib.Data.List.Forall2

/-!
# What the documents of types are read as

Each way in which TypeScript types are put together is read back, for every layout of
the document.  `Doc.IsType` and `Doc.IsAlternative` say that all layouts of a document
are read as a given type or alternative; a document that is made of such documents is
again one, whatever the printer does with the lines between them.

For every form of a type a lemma `lays_…` says what its layouts look like, and the
theorem after it what they are read as.
-/

namespace Exemplar

open TypeScript

/-! ## Lines -/

/-- A line is laid out as space. -/
theorem uniform_of_line {flat laid : Text} {hard : Bool} (hflat : Uniform .space flat)
    (hlaid : (Doc.line flat hard).Lays laid) : Uniform .space laid := by
  rcases hlaid with rfl | ⟨indentation, rfl⟩
  · exact hflat
  · intro c hc
    rcases List.mem_cons.mp hc with rfl | hspace
    · decide
    · rw [(List.mem_replicate.mp hspace).2]
      decide

/-- A soft line is laid out as space. -/
theorem uniform_of_softLine {laid : Text} (hlaid : Doc.softLine.Lays laid) : Uniform .space laid :=
  uniform_of_line (by decide) hlaid

/-- A line that is a space when flat keeps words apart. -/
theorem uniform_of_spaceLine {laid : Text} (hlaid : Doc.spaceLine.Lays laid) :
    Uniform .space laid ∧ laid ≠ [] := by
  refine ⟨uniform_of_line (by decide) hlaid, ?_⟩
  rcases hlaid with rfl | ⟨indentation, rfl⟩
  · decide
  · exact List.cons_ne_nil _ _

/-! ## Alternatives and types -/

/-- A text of an alternative. -/
def WritesAlternative (alternative : Alternative) (text : Text) : Prop :=
  ∃ tokens, Spells tokens text ∧ ∀ rest, Parses readAlternative (tokens ++ rest) alternative rest

/-- A text of a type. -/
def WritesType (tree : TypeTree) (text : Text) : Prop :=
  ∃ tokens, Spells tokens text ∧
    ∀ rest, NoBar rest → Parses readType (skipBar (tokens ++ rest)) tree rest

/-- A text of a field of an object type. -/
def WritesField (field : Text × Bool × TypeTree) (text : Text) : Prop :=
  ∃ tokens, Spells tokens text ∧ ∀ rest later last, Parses readFields rest later last →
    Parses readFields (tokens ++ rest) (field :: later) last

namespace Doc

/-- All layouts of a document are read as one alternative. -/
def IsAlternative (doc : Doc) (alternative : Alternative) : Prop :=
  ∀ laid, doc.Lays laid → WritesAlternative alternative laid

/-- All layouts of a document are read as one type. -/
def IsType (doc : Doc) (tree : TypeTree) : Prop :=
  ∀ laid, doc.Lays laid → WritesType tree laid

/-- All layouts of a document are read as one field. -/
def IsField (doc : Doc) (field : Text × Bool × TypeTree) : Prop :=
  ∀ laid, doc.Lays laid → WritesField field laid

/-- A single alternative is a type. -/
theorem IsAlternative.isType {doc : Doc} {alternative : Alternative}
    (hdoc : doc.IsAlternative alternative) : doc.IsType [alternative] := by
  intro laid hlaid
  obtain ⟨tokens, hspells, hparses⟩ := hdoc laid hlaid
  refine ⟨tokens, hspells, fun rest hbar => ?_⟩
  rw [skipBar_of_noBar ((hparses rest).noBar readAlternative_bar)]
  exact (hparses rest).last hbar

end Doc

/-! ## Scalars and arrays -/

/-- The type of values without parts. -/
theorem isAlternative_scalar (kind : Scalar) :
    (Doc.text (scalarText kind)).IsAlternative (.scalar kind) := by
  intro laid hlaid
  obtain rfl : laid = scalarText kind := hlaid
  by_cases hfunction : kind = .function
  · -- Only this one is more than a word.
    subst hfunction
    refine ⟨[.mark .openBrace, .mark .openParen, .mark .closeParen, .mark .colon,
      .word ("any" : Text), .mark .closeBrace], fun others later hlater _ => ?_,
      fun rest => parses_function _ rest⟩
    have htext : scalarText .function =
        ['\x7b', ' ', '(', ')', ':', ' '] ++ (("any" : Text) ++ [' ', '\x7d']) := rfl
    simp only [htext, List.cons_append, List.nil_append, List.append_assoc]
    refine .markText .openBrace (.blank (.markText .openParen (.markText .closeParen
      (.markText .colon (.blank ?_)))))
    exact .wordText (by decide) (by decide) (stopsWord_blank _)
      (.blank (.markText .closeBrace hlater))
  · refine ⟨[.word (scalarText kind)], fun others later hlater hstops => ?_, parses_scalar kind⟩
    have hchars : Uniform .word (scalarText kind) := by
      cases kind <;> first | decide | exact absurd rfl hfunction
    have hne : scalarText kind ≠ [] := by
      cases kind <;> decide
    exact .wordText hne hchars hstops hlater

/-- An array is laid out between angle brackets, with space around its element. -/
theorem lays_arrayDoc {element : Doc} {laid : Text} (hlaid : (arrayDoc element).Lays laid) :
    ∃ before inner after, Uniform .space before ∧ element.Lays inner ∧ Uniform .space after ∧
      laid = ("Array" : Text) ++ '<' :: (before ++ (inner ++ (after ++ ['>']))) := by
  obtain ⟨_, _, rfl, ⟨_, _, ⟨before, _, hbefore, ⟨inner, _, hinner, rfl, rfl⟩, rfl⟩,
    ⟨after, _, hafter, ⟨_, _, rfl, rfl, rfl⟩, rfl⟩, rfl⟩, rfl⟩ := hlaid
  refine ⟨before, inner, after, uniform_of_softLine hbefore, hinner, uniform_of_softLine hafter, ?_⟩
  have hopen : ("Array<" : Text) = ("Array" : Text) ++ ['<'] := rfl
  have hclose : (">" : Text) = ['>'] := rfl
  simp only [hopen, hclose, List.append_assoc, List.cons_append, List.nil_append, List.append_nil]

/-- Arrays of a type. -/
theorem isAlternative_array {element : Doc} {tree : TypeTree} (helement : element.IsType tree) :
    (arrayDoc element).IsAlternative (.array tree) := by
  intro laid hlaid
  obtain ⟨before, inner, after, hbefore, hinner, hafter, rfl⟩ := lays_arrayDoc hlaid
  obtain ⟨tokens, hspells, hparses⟩ := helement inner hinner
  refine ⟨.word ("Array" : Text) :: .mark .openAngle :: (tokens ++ [.mark .closeAngle]),
    fun others later hlater _ => ?_, fun rest => ?_⟩
  · have hclose : Spaced (.mark .closeAngle :: others) (after ++ '>' :: later) :=
      (Spaced.markText .closeAngle hlater).skipAll hafter
    have hstops : StopsWord (after ++ '>' :: later) :=
      hafter.stopsWord (stopsWord_mark .closeAngle _)
    have hinside := (hspells _ _ hclose hstops).skipAll hbefore
    have hangle : Spaced (.mark .openAngle :: (tokens ++ .mark .closeAngle :: others))
        ('<' :: (before ++ (inner ++ (after ++ '>' :: later)))) := .markText .openAngle hinside
    simp only [List.append_assoc, List.cons_append, List.nil_append]
    exact .wordText (by decide) (by decide) (stopsWord_mark .openAngle _) hangle
  · have hrest : NoBar (.mark .closeAngle :: rest) := nofun
    have hinside := hparses _ hrest
    simp only [List.cons_append, List.append_assoc, List.nil_append]
    exact parses_array hinside

/-- Arrays of whose elements nothing is known are one way to write arrays of any values. -/
theorem isAlternative_anyArray : (Doc.text "Array<any>").IsAlternative (.array TypeTree.any) := by
  intro laid hlaid
  obtain rfl : laid = ("Array<any>" : Text) := hlaid
  have hany : (Doc.text "any").IsType TypeTree.any := (isAlternative_scalar .unknown).isType
  refine isAlternative_array hany _ ⟨"Array<", "any>", rfl, ⟨"any", ">", ?_, ?_, ?_⟩, ?_⟩
  · exact ⟨[], "any", Or.inl rfl, ⟨"any", [], rfl, rfl, by decide⟩, rfl⟩
  · exact ⟨[], ">", Or.inl rfl, ⟨">", [], rfl, rfl, by decide⟩, rfl⟩
  · decide
  · decide

/-! ## Unions -/

/-- Alternatives are separated by space and a bar. -/
theorem lays_alternativeSeparator {laid : Text}
    (hlaid : (Doc.concat [.spaceLine, "| "]).Lays laid) :
    ∃ gap, Uniform .space gap ∧ gap ≠ [] ∧ laid = gap ++ ['|', ' '] := by
  obtain ⟨gap, _, hgap, ⟨bar, _, hbar, rfl, rfl⟩, rfl⟩ := hlaid
  obtain rfl : bar = ['|', ' '] := hbar
  obtain ⟨hspace, hne⟩ := uniform_of_spaceLine hgap
  exact ⟨gap, hspace, hne, by rw [List.append_nil]⟩

/-- Alternatives with bars between them. -/
theorem writes_joined_alternatives {docs : List Doc} {tree : TypeTree}
    (hdocs : List.Forall₂ Doc.IsAlternative docs tree) (hne : tree ≠ []) {laid : Text}
    (hlaid : Doc.LaysAll (docs.intersperse (.concat [.spaceLine, "| "])) laid) :
    ∃ tokens, Spells tokens laid ∧
      ∀ rest, NoBar rest → Parses readType (tokens ++ rest) tree rest := by
  induction hdocs generalizing laid with
  | nil => exact absurd rfl hne
  | @cons doc alternative docs tree hdoc hrest ih =>
      cases hrest with
      | nil =>
          obtain ⟨first, _, hfirst, rfl, rfl⟩ := hlaid
          obtain ⟨tokens, hspells, hparses⟩ := hdoc first hfirst
          rw [List.append_nil]
          exact ⟨tokens, hspells, fun rest hbar => (hparses rest).last hbar⟩
      | @cons second next docs tree hsecond hlater =>
          obtain ⟨first, between, later, hfirst, hbetween, hlast, rfl⟩ :=
            Doc.laysAll_intersperse_cons_cons hlaid
          obtain ⟨gap, hspace, hapart, rfl⟩ := lays_alternativeSeparator hbetween
          obtain ⟨tokens, hspells, hparses⟩ := hdoc first hfirst
          obtain ⟨others, hothers, hreads⟩ := ih (List.cons_ne_nil _ _) hlast
          refine ⟨tokens ++ .mark .bar :: others, fun more text htext hstops => ?_,
            fun rest hbar => ?_⟩
          · simp only [List.append_assoc, List.cons_append, List.nil_append]
            refine hspells _ _ ?_ (hspace.stopsWord_of_ne_nil hapart _)
            refine Spaced.skipAll (.markText .bar (.blank ?_)) hspace
            exact hothers more text htext hstops
          · rw [List.append_assoc]
            exact (hparses _).more (hreads rest hbar)

/-- A union may be laid out with a bar in front. -/
theorem lays_unionDoc {docs : List Doc} {laid : Text} (hlaid : (unionDoc docs).Lays laid) :
    ∃ gap joined, Uniform .space gap ∧
      Doc.LaysAll (docs.intersperse (.concat [.spaceLine, "| "])) joined ∧
      (laid = gap ++ '|' :: ' ' :: joined ∨ laid = gap ++ joined) := by
  obtain ⟨_, _, ⟨gap, _, hgap, ⟨front, _, hfront, ⟨joined, _, hjoined, rfl, rfl⟩, rfl⟩, rfl⟩,
    rfl, rfl⟩ := hlaid
  refine ⟨gap, joined, uniform_of_softLine hgap, hjoined, ?_⟩
  simp only [List.append_nil]
  rcases hfront with hbar | hplain
  · obtain rfl : front = ['|', ' '] := hbar
    exact Or.inl rfl
  · obtain rfl : front = [] := hplain
    exact Or.inr rfl

/-- A union of alternatives, with a bar in front of the first one or without. -/
theorem isType_union {docs : List Doc} {tree : TypeTree}
    (hdocs : List.Forall₂ Doc.IsAlternative docs tree) (hne : tree ≠ []) :
    (unionDoc docs).IsType tree := by
  intro laid hlaid
  obtain ⟨gap, joined, hgap, hjoined, hfront⟩ := lays_unionDoc hlaid
  obtain ⟨tokens, hspells, hparses⟩ := writes_joined_alternatives hdocs hne hjoined
  rcases hfront with rfl | rfl
  · refine ⟨.mark .bar :: tokens, fun others later hlater hstops => ?_, hparses⟩
    simp only [List.append_assoc, List.cons_append]
    refine Spaced.skipAll (.markText .bar (.blank ?_)) hgap
    exact hspells others later hlater hstops
  · refine ⟨tokens, fun others later hlater hstops => ?_, fun rest hrest => ?_⟩
    · rw [List.append_assoc]
      exact (hspells others later hlater hstops).skipAll hgap
    · rw [skipBar_of_noBar ((hparses rest hrest).noBar readType_bar)]
      exact hparses rest hrest

/-! ## Fields -/

/-- The token of a key. -/
def keyToken (name : Text) : Token :=
  if Text.isPlainKey name then .word name else .name name

/-- The token of a key stands for the name of its field. -/
theorem key?_keyToken (name : Text) : (keyToken name).key? = some name := by
  unfold keyToken
  split <;> rfl

/-- A plain key is a word. -/
theorem uniform_of_isPlainKey {name : Text} (hplain : Text.isPlainKey name = true) :
    name ≠ [] ∧ Uniform .word name := by
  cases name with
  | nil => cases hplain
  | cons c rest =>
      simp only [Text.isPlainKey, Bool.and_eq_true, List.all_eq_true] at hplain
      refine ⟨List.cons_ne_nil _ _, List.forall_mem_cons.mpr ⟨?_, fun d hd => ?_⟩⟩
      · have hword : isWordChar c = true := by
          simp only [isWordChar, Char.isAlphanum, Bool.or_eq_true] at hplain ⊢
          tauto
        simp [classOf, hword]
      · have hword : isWordChar d = true := hplain.2 d hd
        simp [classOf, hword]

/-- The key of a field is one token. -/
theorem Spaced.key (name : Text) {tokens : List Token} {text : Text} (hstops : StopsWord text)
    (hspaced : Spaced tokens text) : Spaced (keyToken name :: tokens) (fieldKey name ++ text) := by
  unfold keyToken fieldKey
  split
  · rename_i hplain
    obtain ⟨hne, hchars⟩ := uniform_of_isPlainKey hplain
    exact .wordText hne hchars hstops hspaced
  · simp only [Text.quotedKey, List.cons_append, List.append_assoc, List.nil_append]
    exact .name name hspaced

/-- A field is laid out as its key, perhaps a question mark, a colon, and its type. -/
theorem lays_fieldDoc {field : Field} {value : Doc} {laid : Text}
    (hlaid : (fieldDoc field value).Lays laid) :
    ∃ inner, value.Lays inner ∧ laid =
      fieldKey field.name ++ ((if field.required then [] else ['?']) ++ ':' :: ' ' :: inner) := by
  obtain ⟨_, _, rfl, ⟨_, _, rfl, ⟨_, _, rfl, ⟨inner, _, hinner, rfl, rfl⟩, rfl⟩, rfl⟩, rfl⟩ :=
    hlaid
  refine ⟨inner, hinner, ?_⟩
  have hcolon : (": " : Text) = [':', ' '] := rfl
  have hquestion : ("?" : Text) = ['?'] := rfl
  have hnone : ("" : Text) = [] := rfl
  simp only [hcolon, hquestion, hnone, List.cons_append, List.nil_append, List.append_nil]

/-- A field of an object type. -/
theorem isField_fieldDoc (field : Field) {value : Doc} {tree : TypeTree}
    (hvalue : value.IsType tree) :
    (fieldDoc field value).IsField (field.name, field.required, tree) := by
  intro laid hlaid
  obtain ⟨inner, hinner, rfl⟩ := lays_fieldDoc hlaid
  obtain ⟨tokens, hspells, hparses⟩ := hvalue inner hinner
  refine ⟨keyToken field.name :: ((if field.required then [] else [.mark .question]) ++
    .mark .colon :: tokens), fun others later hlater hstops => ?_,
    fun rest fields last hfields => ?_⟩
  · have hinside : Spaced (.mark .colon :: (tokens ++ others)) (':' :: ' ' :: (inner ++ later)) :=
      .markText .colon (.blank (hspells others later hlater hstops))
    simp only [List.append_assoc, List.cons_append]
    cases field.required with
    | true => exact .key _ (stopsWord_mark .colon _) hinside
    | false => exact .key _ (stopsWord_mark .question _) (.markText .question hinside)
  · have hvalues := hparses rest (hfields.noBar readFields_bar)
    simp only [List.append_assoc, List.cons_append]
    refine parses_fields_cons (key?_keyToken field.name) ?_ hvalues hfields
    cases field.required <;> rfl

/-! ## Object types -/

section

variable {terminator : Text} (hterminator : Uniform .space terminator)
include hterminator

/-- The end of a field counts as space, whether the object is broken or not. -/
theorem uniform_of_terminator {flat : Doc} (hflat : ∀ laid, flat.Lays laid → Uniform .space laid)
    {laid : Text} (hlaid : (Doc.ifBroken (.text terminator) flat).Lays laid) :
    Uniform .space laid := by
  rcases hlaid with rfl | hplain
  · exact hterminator
  · exact hflat laid hplain

/-- Fields are separated by space. -/
theorem lays_fieldSeparator {laid : Text}
    (hlaid : (Doc.concat [.ifBroken (.text terminator) ";", .spaceLine]).Lays laid) :
    Uniform .space laid ∧ laid ≠ [] := by
  obtain ⟨mark, _, hmark, ⟨gap, _, hgap, rfl, rfl⟩, rfl⟩ := hlaid
  obtain ⟨hspace, hne⟩ := uniform_of_spaceLine hgap
  have hsemicolon : Uniform .space mark := by
    refine uniform_of_terminator hterminator (fun plain hplain => ?_) hmark
    obtain rfl : plain = (";" : Text) := hplain
    decide
  rw [List.append_nil]
  exact ⟨hsemicolon.append hspace, by simp [hne]⟩

/-- Fields with separators between them. -/
theorem writes_joined_fields {docs : List Doc} {fields : List (Text × Bool × TypeTree)}
    (hdocs : List.Forall₂ Doc.IsField docs fields) {laid : Text}
    (hlaid : Doc.LaysAll
      (docs.intersperse (.concat [.ifBroken (.text terminator) ";", .spaceLine])) laid) :
    ∃ tokens, Spells tokens laid ∧ ∀ rest later last, Parses readFields rest later last →
      Parses readFields (tokens ++ rest) (fields ++ later) last := by
  induction hdocs generalizing laid with
  | nil =>
      obtain rfl : laid = [] := hlaid
      exact ⟨[], fun _ _ hlater _ => hlater, fun _ _ _ hparses => hparses⟩
  | @cons doc field docs fields hdoc hrest ih =>
      cases hrest with
      | nil =>
          obtain ⟨first, _, hfirst, rfl, rfl⟩ := hlaid
          rw [List.append_nil]
          exact hdoc first hfirst
      | @cons second next docs fields hsecond hlater =>
          obtain ⟨first, between, later, hfirst, hbetween, hlast, rfl⟩ :=
            Doc.laysAll_intersperse_cons_cons hlaid
          obtain ⟨hspace, hapart⟩ := lays_fieldSeparator hterminator hbetween
          obtain ⟨tokens, hspells, hparses⟩ := hdoc first hfirst
          obtain ⟨others, hothers, hreads⟩ := ih hlast
          refine ⟨tokens ++ others, fun more text htext hstops => ?_,
            fun rest fields last hfields => ?_⟩
          · simp only [List.append_assoc]
            refine hspells _ _ ?_ (hspace.stopsWord_of_ne_nil hapart _)
            exact (hothers more text htext hstops).skipAll hspace
          · rw [List.append_assoc]
            exact hparses _ _ _ (hreads rest fields last hfields)

/-- An object type is laid out between braces, with space around its fields. -/
theorem lays_objectDoc {docs : List Doc} (hne : docs ≠ []) {laid : Text}
    (hlaid : (objectDoc terminator docs).Lays laid) :
    ∃ before joined after, Uniform .space before ∧ Uniform .space after ∧
      Doc.LaysAll
        (docs.intersperse (.concat [.ifBroken (.text terminator) ";", .spaceLine])) joined ∧
      laid = '\x7b' :: (before ++ (joined ++ (after ++ ['\x7d']))) := by
  have hmore : docs.isEmpty ≠ true := by simpa using hne
  rw [objectDoc, if_neg hmore] at hlaid
  obtain ⟨_, _, rfl, ⟨_, _, ⟨before, _, hbefore, ⟨joined, _, hjoined, rfl, rfl⟩, rfl⟩,
    ⟨mark, _, hmark, ⟨after, _, hafter, ⟨_, _, rfl, rfl, rfl⟩, rfl⟩, rfl⟩, rfl⟩, rfl⟩ := hlaid
  have hend : Uniform .space mark := by
    refine uniform_of_terminator hterminator (fun plain hplain => ?_) hmark
    obtain rfl : plain = ("" : Text) := hplain
    decide
  refine ⟨before, joined, mark ++ after, (uniform_of_spaceLine hbefore).1,
    hend.append (uniform_of_spaceLine hafter).1, hjoined, ?_⟩
  have hopen : ("\x7b" : Text) = ['\x7b'] := rfl
  have hclose : ("\x7d" : Text) = ['\x7d'] := rfl
  simp only [hopen, hclose, List.append_assoc, List.cons_append, List.nil_append, List.append_nil]

/-- An object type, with or without terminators of its fields. -/
theorem isAlternative_object {docs : List Doc} {fields : List (Text × Bool × TypeTree)}
    (hdocs : List.Forall₂ Doc.IsField docs fields) :
    (objectDoc terminator docs).IsAlternative (.object fields) := by
  intro laid hlaid
  by_cases hnone : docs = []
  · subst hnone
    cases hdocs
    obtain rfl : laid = ['\x7b', '\x7d'] := hlaid
    refine ⟨[.mark .openBrace, .mark .closeBrace], fun others later hlater _ => ?_,
      fun rest => parses_object (parses_fields_nil rest)⟩
    exact .markText .openBrace (.markText .closeBrace hlater)
  · obtain ⟨before, joined, after, hbefore, hafter, hjoined, rfl⟩ :=
      lays_objectDoc hterminator hnone hlaid
    obtain ⟨tokens, hspells, hparses⟩ := writes_joined_fields hterminator hdocs hjoined
    refine ⟨.mark .openBrace :: (tokens ++ [.mark .closeBrace]), fun others later hlater _ => ?_,
      fun rest => ?_⟩
    · have hclose : Spaced (.mark .closeBrace :: others) (after ++ '\x7d' :: later) :=
        (Spaced.markText .closeBrace hlater).skipAll hafter
      have hstops : StopsWord (after ++ '\x7d' :: later) :=
        hafter.stopsWord (stopsWord_mark .closeBrace _)
      have hinside := (hspells _ _ hclose hstops).skipAll hbefore
      simp only [List.append_assoc, List.cons_append, List.nil_append]
      exact .markText .openBrace hinside
    · have hfields := hparses _ [] _ (parses_fields_nil rest)
      rw [List.append_nil] at hfields
      simp only [List.cons_append, List.append_assoc, List.nil_append]
      exact parses_object hfields

end

end Exemplar
