import Exemplar.Text.Basic

/-!
# Parts of texts

How a text is cut at a separator when it is put together from others: in front of a separator
it is cut on its own (`firstPart_append_separator`), and a text without separators belongs to the
part after which it is put.

For lines this says where the last line of one text and the first line of the next one go: they
make one line of both (`mem_lines_append`).
-/

namespace Exemplar.Text

variable {separator : Char}

/-- What stands in front of a separator is cut into parts on its own. -/
theorem firstPart_append_separator (before after : Text) :
    firstPart separator (before ++ separator :: after) =
      ((firstPart separator before).1,
        (firstPart separator before).2 ++ parts separator after) := by
  induction before with
  | nil => simp [firstPart, parts]
  | cons c rest ih =>
      simp only [List.cons_append, firstPart, ih]
      split <;> rfl

/-- A separator parts what stands in front of it from what stands behind. -/
theorem parts_append_separator (before after : Text) :
    parts separator (before ++ separator :: after) =
      parts separator before ++ parts separator after := by
  rw [parts, firstPart_append_separator]
  rfl

/-- A text without the separator is one part. -/
theorem firstPart_of_not_mem {text : Text} (hfree : separator ∉ text) :
    firstPart separator text = (text, []) := by
  induction text with
  | nil => rfl
  | cons c rest ih =>
      obtain ⟨hc, hrest⟩ := not_or.mp (mt List.mem_cons.mpr hfree)
      simp [firstPart, ih hrest, Ne.symm hc]

/-- What is appended to a text of one part belongs to that part. -/
theorem firstPart_append_of_nil {text later : Text} (hfree : separator ∉ later)
    (hone : (firstPart separator text).2 = []) :
    firstPart separator (text ++ later) = ((firstPart separator text).1 ++ later, []) := by
  induction text with
  | nil => exact firstPart_of_not_mem hfree
  | cons c rest ih =>
      by_cases hc : c = separator
      · simp [firstPart, hc] at hone
      · simp only [firstPart, hc, if_false] at hone
        simp [firstPart, hc, ih hone]

/-- What is appended to a text of several parts belongs to the last one. -/
theorem firstPart_append_of_concat {text later last : Text} {init : List Text}
    (hfree : separator ∉ later) (hlast : (firstPart separator text).2 = init ++ [last]) :
    firstPart separator (text ++ later) =
      ((firstPart separator text).1, init ++ [last ++ later]) := by
  induction text generalizing init with
  | nil => simp [firstPart] at hlast
  | cons c rest ih =>
      by_cases hc : c = separator
      · simp only [firstPart, hc, if_true, List.cons_append] at hlast ⊢
        cases init with
        | nil =>
            obtain ⟨rfl, hone⟩ := List.cons.inj hlast
            simp [firstPart_append_of_nil hfree hone]
        | cons first init =>
            obtain ⟨rfl, hmore⟩ := List.cons.inj hlast
            simp [ih hmore]
      · simp only [firstPart, hc, if_false] at hlast
        simp [firstPart, hc, ih hlast]

/-! ## First and last lines -/

/-- The text up to the first line feed. -/
def firstLine (text : Text) : Text :=
  text.takeWhile (· ≠ '\n')

/-- The text after the last line feed. -/
def lastLine (text : Text) : Text :=
  (text.reverse.takeWhile (· ≠ '\n')).reverse

/-- The first part between line feeds is the first line. -/
theorem firstPart_newline (text : Text) : (firstPart '\n' text).1 = firstLine text := by
  induction text with
  | nil => rfl
  | cons c rest ih =>
      by_cases hc : c = '\n'
      · simp [firstPart, firstLine, hc]
      · simpa [firstPart, firstLine, hc] using ih

/-- What follows a text without line feeds goes on with its line. -/
theorem firstLine_append {text : Text} (hline : '\n' ∉ text) (later : Text) :
    firstLine (text ++ later) = text ++ firstLine later := by
  refine List.takeWhile_append_of_pos fun c hc => decide_eq_true ?_
  rintro rfl
  exact hline hc

/-- A text without line feeds goes on with the last line. -/
theorem lastLine_append {text later : Text} (hline : '\n' ∉ later) :
    lastLine (text ++ later) = lastLine text ++ later := by
  have hreversed : '\n' ∉ later.reverse := by simpa using hline
  calc lastLine (text ++ later)
      = (firstLine (later.reverse ++ text.reverse)).reverse := by
        rw [← List.reverse_append]
        rfl
    _ = lastLine text ++ later := by
        rw [firstLine_append hreversed, List.reverse_append, List.reverse_reverse]
        rfl

/-- Behind the last line feed stands the last line. -/
theorem lastLine_append_newline {text later : Text} (hline : '\n' ∉ later) :
    lastLine (text ++ '\n' :: later) = later := by
  have hsplit : text ++ '\n' :: later = (text ++ ['\n']) ++ later := by simp
  rw [hsplit, lastLine_append hline]
  simp [lastLine]

/-- In front of the last line there is nothing or a line feed. -/
theorem eq_lastLine_or (text : Text) :
    '\n' ∉ lastLine text ∧
      (lastLine text = text ∨ ∃ before, text = before ++ '\n' :: lastLine text) := by
  by_cases hbreak : '\n' ∈ text.reverse
  · obtain ⟨after, before, hform, hline⟩ := List.eq_append_cons_of_mem hbreak
    have htext : text = before.reverse ++ '\n' :: after.reverse := by
      rw [← text.reverse_reverse, hform]
      simp
    have hlast : lastLine text = after.reverse := by
      rw [htext]
      exact lastLine_append_newline (by simpa using hline)
    rw [hlast]
    exact ⟨by simpa using hline, Or.inr ⟨before.reverse, htext⟩⟩
  · have hline : '\n' ∉ text := by simpa using hbreak
    have hlast : lastLine ([] ++ text) = lastLine [] ++ text := lastLine_append hline
    replace hlast : lastLine text = text := hlast
    exact ⟨hlast.symm ▸ hline, Or.inl hlast⟩

/-- **A line across two texts.**  The last line of one text and the first line of another one are
a line of the two together. -/
theorem mem_lines_append (text later : Text) :
    lastLine text ++ firstLine later ∈ lines (text ++ later) := by
  obtain ⟨hline, hrest⟩ := eq_lastLine_or text
  have hhead : lastLine text ++ firstLine later ∈ lines (lastLine text ++ later) := by
    rw [lines, parts, firstPart_newline, firstLine_append hline]
    exact List.mem_cons_self
  rcases hrest with hwhole | ⟨before, hbefore⟩
  · rw [hwhole] at hhead ⊢
    exact hhead
  · have htext : text ++ later = before ++ '\n' :: (lastLine text ++ later) := by
      calc text ++ later
          = (before ++ '\n' :: lastLine text) ++ later := congrArg (· ++ later) hbefore
        _ = before ++ '\n' :: (lastLine text ++ later) := List.append_assoc ..
    rw [htext, lines, parts_append_separator]
    exact List.mem_append_right _ hhead

end Exemplar.Text
