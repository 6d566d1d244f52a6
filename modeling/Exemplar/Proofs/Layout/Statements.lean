import Exemplar.Proofs.Layout
import Exemplar.Proofs.Layout.Recursive
import Exemplar.Proofs.Parts

/-!
# Programs statement by statement

The hard lines between the statements of a program part it: a statement starts in the first
column, and what the printer looks ahead to ends where the statement does.  So every statement is
laid out as if it stood alone (`layoutProgram_eq`), and what holds of a program follows from what
holds of its statements.
-/

namespace Exemplar

/-! ## Lines of texts -/

namespace Text

/-- A text without the blanks at the ends of its lines. -/
def trimLines (text : Text) : Text :=
  unlines ((lines text).map (trimEnd isBlank))

/-- To trim a text leaves out characters only. -/
theorem trimEnd_sublist (drop : Char → Bool) (text : Text) : (trimEnd drop text).Sublist text := by
  have hreversed := (text.reverse.dropWhile_sublist drop).reverse
  rwa [List.reverse_reverse] at hreversed

/-- A line feed parts the lines in front of it from those behind it. -/
theorem lines_append_newline (before after : Text) :
    lines (before ++ '\n' :: after) = lines before ++ lines after :=
  parts_append_separator before after

/-- One text stands for itself. -/
theorem unlines_singleton (text : Text) : unlines [text] = text := by
  simp [unlines, joined]

/-- A line feed stands between two lists of lines. -/
theorem unlines_append {texts later : List Text} (htexts : texts ≠ []) (hlater : later ≠ []) :
    unlines (texts ++ later) = unlines texts ++ '\n' :: unlines later := by
  obtain ⟨next, last, rfl⟩ := List.exists_cons_of_ne_nil hlater
  induction texts with
  | nil => exact absurd rfl htexts
  | cons first texts ih =>
      cases texts with
      | nil => simp [unlines_cons_cons, unlines_singleton]
      | cons second texts =>
          rw [List.cons_append] at ih ⊢
          rw [List.cons_append, unlines_cons_cons, ih (List.cons_ne_nil _ _), unlines_cons_cons,
            List.append_assoc, List.cons_append]

/-- The lines in front of a line feed and those behind it are trimmed apart. -/
theorem trimLines_append_newline (before after : Text) :
    trimLines (before ++ '\n' :: after) = trimLines before ++ '\n' :: trimLines after := by
  have hbefore : (lines before).map (trimEnd isBlank) ≠ [] := by simp [lines, parts]
  have hafter : (lines after).map (trimEnd isBlank) ≠ [] := by simp [lines, parts]
  rw [trimLines, lines_append_newline, List.map_append, unlines_append hbefore hafter, trimLines,
    trimLines]

/-- Each text of several ones is trimmed on its own. -/
theorem trimLines_unlines (texts : List Text) :
    trimLines (unlines texts) = unlines (texts.map trimLines) := by
  induction texts with
  | nil => rfl
  | cons first later ih =>
      cases later with
      | nil => simp only [unlines_singleton, List.map_cons, List.map_nil]
      | cons second last =>
          rw [unlines_cons_cons, trimLines_append_newline, ih]
          simp only [List.map_cons, unlines_cons_cons]

/-- No line has a line feed. -/
theorem newline_not_mem_lines (text : Text) : ∀ line ∈ lines text, '\n' ∉ line := by
  induction text with
  | nil => simp [lines, parts, firstPart]
  | cons c rest ih =>
      simp only [lines, parts, firstPart] at ih ⊢
      by_cases hbreak : c = '\n'
      · simpa [hbreak] using ih
      · simpa [hbreak, Ne.symm hbreak] using ih

/-- Lines are joined by as many line feeds as there are lines after the first one. -/
theorem count_unlines {texts : List Text} (htexts : texts ≠ [])
    (hlines : ∀ text ∈ texts, '\n' ∉ text) : (unlines texts).count '\n' + 1 = texts.length := by
  induction texts with
  | nil => exact absurd rfl htexts
  | cons first later ih =>
      obtain ⟨hfirst, hlater⟩ := List.forall_mem_cons.mp hlines
      cases later with
      | nil => rw [unlines_singleton, List.count_eq_zero_of_not_mem hfirst, List.length_singleton]
      | cons second last =>
          have hrest := ih (List.cons_ne_nil _ _) hlater
          rw [unlines_cons_cons, List.count_append, List.count_eq_zero_of_not_mem hfirst,
            List.count_cons_self, Nat.zero_add, hrest]
          rfl

/-- There is one line more than line feeds. -/
theorem length_lines (text : Text) : (lines text).length = text.count '\n' + 1 := by
  have hsome : lines text ≠ [] := List.cons_ne_nil _ _
  have hcount := count_unlines hsome (newline_not_mem_lines text)
  rw [← hcount, unlines_lines]

/-- To trim lines leaves as many of them. -/
theorem count_trimLines (text : Text) : (trimLines text).count '\n' = text.count '\n' := by
  have hlines : ∀ line ∈ (lines text).map (trimEnd isBlank), '\n' ∉ line := by
    refine List.forall_mem_map.mpr fun line hline hmem => ?_
    exact newline_not_mem_lines text line hline ((trimEnd_sublist isBlank line).mem hmem)
  have hcount := count_unlines (by simp [lines, parts]) hlines
  rw [List.length_map, length_lines] at hcount
  exact Nat.add_right_cancel hcount

/-- To trim lines leaves one line where there was one. -/
theorem newline_mem_trimLines_iff (text : Text) : '\n' ∈ trimLines text ↔ '\n' ∈ text := by
  rw [← List.count_pos_iff, count_trimLines, List.count_pos_iff]

end Text

/-! ## Statements -/

namespace Doc

/-- Each statement is marked by itself. -/
theorem propagateAll_statements (docs : List Doc) :
    (propagateAll (docs.intersperse hardLine)).1 =
      (docs.map fun doc => doc.propagate.1).intersperse hardLine := by
  induction docs with
  | nil => rfl
  | cons doc rest ih =>
      cases rest with
      | nil => rfl
      | cons second later =>
          simp only [List.intersperse_cons_cons, propagateAll, ih, List.map_cons]
          rfl

/-- Statements are printed one by one. -/
theorem writeAll_settleAll_statements (style : Style) (docs : List Doc) :
    writeAll style 0 .broken (settleAll style 0 .broken [] 0 (docs.intersperse hardLine)).1 =
      Text.unlines (docs.map fun doc => (doc.settled style).write style 0 .broken) := by
  induction docs with
  | nil => rfl
  | cons doc rest ih =>
      cases rest with
      | nil => simp [settleAll, writeAll, settled, aheadAll, Text.unlines_singleton]
      | cons second later =>
          -- the hard line ends the text ahead, and the next statement starts in the first column
          have hahead : aheadAll .broken [] (hardLine :: (second :: later).intersperse hardLine) =
              [] := by
            simp [aheadAll, hardLine, ahead]
          have hline (follows : Text) (column : Nat) :
              hardLine.settle style 0 .broken follows column = (hardLine, 0) := by
            simp [hardLine, settle]
          have hwrite : hardLine.write style 0 .broken = ['\n'] := by
            simp [hardLine, write]
          rw [List.intersperse_cons_cons]
          simp only [settleAll, hahead, hline, writeAll, hwrite, ih, List.map_cons,
            unlines_cons_cons]
          rfl

/-- Documents with hard lines between them are printed one by one. -/
theorem print_joined_hardLine (style : Style) (docs : List Doc) :
    (joined hardLine docs).print style = Text.unlines (docs.map (print style)) := by
  have hprint := writeAll_settleAll_statements style (docs.map fun doc => doc.propagate.1)
  rw [← propagateAll_statements, List.map_map] at hprint
  rw [print_eq_write_settled]
  refine Eq.trans hprint (congrArg Text.unlines (List.map_congr_left fun doc _ => ?_))
  exact (print_eq_write_settled style doc).symm

/-- A statement laid out by itself. -/
def layoutStatement (style : Style) (statement : Doc) : Text :=
  (concat [statement, text style.terminator]).layout style

/-- A statement is printed with its terminator and trimmed. -/
theorem layoutStatement_eq (style : Style) (statement : Doc) :
    layoutStatement style statement =
      ((concat [statement, text style.terminator]).print style).trimLines :=
  rfl

/-- **Statements.**  A program consists of its statements, each of them laid out by itself. -/
theorem layoutProgram_eq (style : Style) {statements : List Doc} (hsome : statements ≠ []) :
    layoutProgram style statements =
      Text.unlines (statements.map (layoutStatement style)) ++ ['\n'] := by
  have hlayout (doc : Doc) : doc.layout style = (doc.print style).trimLines := rfl
  have hstatement : layoutStatement style = fun statement =>
      ((concat [statement, text style.terminator]).print style).trimLines := rfl
  have hempty : statements.isEmpty = false := by simpa using hsome
  simp only [layoutProgram, hempty, Bool.false_eq_true, if_false, hlayout, print_joined_hardLine,
    Text.trimLines_unlines, List.map_map, Function.comp_def, hstatement]

end Doc

end Exemplar
