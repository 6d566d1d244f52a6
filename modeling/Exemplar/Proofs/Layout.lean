import Exemplar.Layout.Printer

/-!
# What layouts have in common

The printer decides by the width of the line which groups to break.  What a document
means does not depend on it: `Doc.Lays` admits every decision at every line, and
`printTasks_lays` says that the printer takes some of them.

Afterwards the blanks at the ends of the lines and of the whole text are removed.
`Thins` describes that without lines: going from the end to the front, a blank may be
left out where nothing follows or a line ends.
-/

namespace Exemplar

namespace Doc

mutual

/-- A document can be laid out as a text, with each of its lines broken or not. -/
def Lays : Doc → Text → Prop
  | text content, laid => laid = content
  | concat parts, laid => LaysAll parts laid
  | indent body, laid => body.Lays laid
  | group body _, laid => body.Lays laid
  | line flat _, laid => laid = flat ∨ ∃ indentation, laid = '\n' :: List.replicate indentation ' '
  | ifBroken broken flat, laid => broken.Lays laid ∨ flat.Lays laid

/-- Documents can be laid out as a text, one after the other. -/
def LaysAll : List Doc → Text → Prop
  | [], laid => laid = []
  | part :: rest, laid =>
      ∃ first later, part.Lays first ∧ LaysAll rest later ∧ laid = first ++ later

end

/-- Documents are laid out one after the other. -/
theorem laysAll_append_iff (docs others : List Doc) (laid : Text) :
    LaysAll (docs ++ others) laid ↔
      ∃ first later, LaysAll docs first ∧ LaysAll others later ∧ laid = first ++ later := by
  induction docs generalizing laid with
  | nil => simp [LaysAll]
  | cons doc rest ih =>
      constructor
      · intro hlaid
        obtain ⟨first, later, hfirst, hlater, rfl⟩ := hlaid
        obtain ⟨middle, last, hmiddle, hlast, rfl⟩ := (ih later).mp hlater
        exact ⟨first ++ middle, last, ⟨first, middle, hfirst, hmiddle, rfl⟩, hlast,
          (List.append_assoc ..).symm⟩
      · intro hlaid
        obtain ⟨_, last, ⟨first, middle, hfirst, hmiddle, rfl⟩, hlast, rfl⟩ := hlaid
        exact ⟨first, middle ++ last, hfirst, (ih _).mpr ⟨middle, last, hmiddle, hlast, rfl⟩,
          List.append_assoc ..⟩

/-- A layout of separated documents begins with one of the first document and one of a separator. -/
theorem laysAll_intersperse_cons_cons {separator first second : Doc} {later : List Doc}
    {laid : Text} (hlaid : LaysAll ((first :: second :: later).intersperse separator) laid) :
    ∃ front between rest, first.Lays front ∧ separator.Lays between ∧
      LaysAll ((second :: later).intersperse separator) rest ∧
      laid = front ++ (between ++ rest) := by
  obtain ⟨front, _, hfront, ⟨between, rest, hbetween, hrest, rfl⟩, rfl⟩ := hlaid
  exact ⟨front, between, rest, hfront, hbetween, hrest, rfl⟩

mutual

/-- Marking groups leaves the texts of a document alone. -/
theorem lays_of_propagate (doc : Doc) {laid : Text} (hlaid : doc.propagate.1.Lays laid) :
    doc.Lays laid := by
  cases doc with
  | text content => exact hlaid
  | line flat hard => exact hlaid
  | concat parts => exact laysAll_of_propagate parts hlaid
  | indent body => exact body.lays_of_propagate hlaid
  | group body marked => exact body.lays_of_propagate hlaid
  | ifBroken broken flat =>
      rcases hlaid with hbroken | hflat
      · exact Or.inl (broken.lays_of_propagate hbroken)
      · exact Or.inr (flat.lays_of_propagate hflat)

/-- Marking groups leaves the texts of several documents alone. -/
theorem laysAll_of_propagate (docs : List Doc) {laid : Text}
    (hlaid : LaysAll (propagateAll docs).1 laid) : LaysAll docs laid := by
  cases docs with
  | nil => exact hlaid
  | cons doc rest =>
      obtain ⟨first, later, hfirst, hlater, rfl⟩ := hlaid
      exact ⟨first, later, doc.lays_of_propagate hfirst, laysAll_of_propagate rest hlater, rfl⟩

end

end Doc

/-- The printer lays its tasks out one after the other. -/
theorem printTasks_lays (style : Style) (column : Nat) (tasks : List Task) :
    Doc.LaysAll (tasks.map Task.doc) (printTasks style column tasks) := by
  fun_induction printTasks style column tasks with
  | case1 => rfl
  | case2 column indentation mode rest content ih => exact ⟨_, _, rfl, ih, rfl⟩
  | case3 column indentation mode rest parts ih =>
      have hspread : (Task.spread indentation mode parts rest).map Task.doc =
          parts ++ rest.map Task.doc := by
        simp [Task.spread, Function.comp_def]
      rw [hspread, Doc.laysAll_append_iff] at ih
      exact ih
  | case4 column indentation mode rest body ih => exact ih
  | case5 column indentation mode rest body marked chosen ih => exact ih
  | case6 column indentation mode rest flat hard hflat ih => exact ⟨_, _, .inl rfl, ih, rfl⟩
  | case7 column indentation mode rest flat hard hbroken ih =>
      exact ⟨_, _, .inr ⟨indentation, rfl⟩, ih, rfl⟩
  | case8 column indentation mode rest broken flat ih =>
      obtain ⟨first, later, hfirst, hlater, hsame⟩ := ih
      refine ⟨first, later, ?_, hlater, hsame⟩
      cases mode with
      | broken => exact Or.inl hfirst
      | flat => exact Or.inr hfirst

/-- What is printed is a layout of the document. -/
theorem Doc.print_lays (style : Style) (doc : Doc) : doc.Lays (doc.print style) := by
  obtain ⟨first, later, hfirst, hlater, hsame⟩ :=
    printTasks_lays style 0 [⟨0, .broken, doc.propagate.1⟩]
  obtain rfl : later = [] := hlater
  rw [Doc.print, hsame, List.append_nil]
  exact doc.lays_of_propagate hfirst

/-! ## Blanks at the ends -/

/-- Nothing stands here, or the end of a line. -/
def AtEnd : Text → Prop
  | [] => True
  | c :: _ => c = '\n'

/-- One text is another one without some of the blanks at the ends of its lines. -/
inductive Thins : Text → Text → Prop
  | nil : Thins [] []
  | keep (c : Char) {text thin : Text} (hrest : Thins text thin) : Thins (c :: text) (c :: thin)
  | drop {c : Char} {text thin : Text} (hblank : Text.isBlank c = true) (hend : AtEnd thin)
      (hrest : Thins text thin) : Thins (c :: text) thin

/-- A character goes when all that follows it goes and it is to be dropped itself. -/
theorem trimEnd_cons (drop : Char → Bool) (c : Char) (text : Text) :
    Text.trimEnd drop (c :: text) =
      if Text.trimEnd drop text = [] ∧ drop c = true then [] else c :: Text.trimEnd drop text := by
  simp only [Text.trimEnd, List.reverse_cons, List.dropWhile_append, List.reverse_eq_nil_iff,
    List.isEmpty_iff]
  by_cases hnone : text.reverse.dropWhile drop = []
  · by_cases hdrop : drop c = true <;> simp [hnone, hdrop]
  · simp [hnone]

/-- To trim a line leaves out blanks behind which nothing follows. -/
theorem thins_trimEnd (text : Text) : Thins text (Text.trimEnd Text.isBlank text) := by
  induction text with
  | nil => exact .nil
  | cons c rest ih =>
      rw [trimEnd_cons]
      split
      · rename_i hend
        rw [hend.1] at ih
        exact .drop hend.2 trivial ih
      · exact .keep c ih

/-- A line feed stands between the first two lines. -/
theorem unlines_cons_cons (first second : Text) (later : List Text) :
    Text.unlines (first :: second :: later) = first ++ '\n' :: Text.unlines (second :: later) := by
  simp [Text.unlines, Text.joined_cons_cons]

/-- The first line goes on with a character. -/
theorem unlines_cons_char (c : Char) (line : Text) (later : List Text) :
    Text.unlines ((c :: line) :: later) = c :: Text.unlines (line :: later) := by
  cases later with
  | nil => simp [Text.unlines, Text.joined]
  | cons second last => simp [unlines_cons_cons]

/-- In front of an empty line a line ends. -/
theorem atEnd_unlines_of_nil (later : List Text) : AtEnd (Text.unlines ([] :: later)) := by
  cases later with
  | nil => trivial
  | cons second last =>
      rw [unlines_cons_cons]
      rfl

/-- To trim the lines of a text thins it. -/
theorem thins_unlines (text : Text) :
    Thins text (Text.unlines ((Text.lines text).map (Text.trimEnd Text.isBlank))) := by
  induction text with
  | nil => exact .nil
  | cons c rest ih =>
      simp only [Text.lines, Text.parts, Text.firstPart, List.map_cons] at ih ⊢
      generalize (Text.firstPart '\n' rest).1 = line at ih ⊢
      generalize (Text.firstPart '\n' rest).2 = later at ih ⊢
      by_cases hbreak : c = '\n'
      · simp only [hbreak, if_true, List.map_cons, Text.trimEnd, List.reverse_nil,
          List.dropWhile_nil, unlines_cons_cons, List.nil_append]
        exact .keep '\n' ih
      · simp only [hbreak, if_false, trimEnd_cons]
        split
        · rename_i hend
          rw [hend.1] at ih
          exact .drop hend.2 (atEnd_unlines_of_nil _) ih
        · rw [unlines_cons_char]
          exact .keep c ih

/-- **Layouts.**  An expression is written as one of the texts of its document, without some of
the blanks at the ends of the lines, without the blanks in front, and without some at the end. -/
theorem Doc.layoutExpression_lays (style : Style) (doc : Doc) :
    ∃ laid thin, doc.Lays laid ∧ Thins laid thin ∧
      Thins (thin.dropWhile Text.isBlank) (doc.layoutExpression style) :=
  ⟨doc.print style, doc.layout style, doc.print_lays style, thins_unlines _, thins_trimEnd _⟩

end Exemplar
