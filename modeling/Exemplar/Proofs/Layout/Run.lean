import Exemplar.Layout.Printer

/-!
# The printer step by step

`printTasks` gives the whole text at once.  Here the printer is a machine whose states say what
has been written, in which column, and what is left to do, so that one can speak of the moment
at which it comes to a document.  `step` takes the first task apart in the way of `printTasks`.

No step changes the text that comes out in the end (`output_step`), and every step leaves fewer
nodes to do, so that the run ends with the text of the document (`exists_steps_eq_print`).
-/

namespace Exemplar

/-- A state of the printer: what it has written, the column, and what is left to do. -/
structure Printing where
  /-- The text so far. -/
  written : Text
  /-- The column after it. -/
  column : Nat
  /-- What is still to be printed. -/
  tasks : List Task

namespace Printing

/-- The state in which the printer starts with a document. -/
def start (doc : Doc) : Printing where
  written := []
  column := 0
  tasks := [⟨0, .broken, doc.propagate.1⟩]

/-- One step of the printer; without tasks it stands still. -/
def step (style : Style) : Printing → Printing
  | ⟨written, column, []⟩ => ⟨written, column, []⟩
  | ⟨written, column, ⟨indentation, mode, doc⟩ :: rest⟩ =>
      match doc with
      | .text content => ⟨written ++ content, column + content.length, rest⟩
      | .concat parts => ⟨written, column, Task.spread indentation mode parts rest⟩
      | .indent body => ⟨written, column, ⟨indentation + style.tab.1, mode, body⟩ :: rest⟩
      | .group body marked =>
          let chosen := groupMode style column mode marked ⟨indentation, .flat, body⟩ rest
          ⟨written, column, ⟨indentation, chosen, body⟩ :: rest⟩
      | .line flat hard =>
          if mode == .flat && !hard then ⟨written ++ flat, column + flat.length, rest⟩
          else ⟨written ++ '\n' :: List.replicate indentation ' ', indentation, rest⟩
      | .ifBroken broken flat =>
          ⟨written, column, ⟨indentation, mode, mode.choose broken flat⟩ :: rest⟩

/-- The state after some steps. -/
def steps (style : Style) : Nat → Printing → Printing
  | 0, s => s
  | n + 1, s => steps style n (s.step style)

/-- Steps can be taken in two portions. -/
theorem steps_add (style : Style) (n m : Nat) (s : Printing) :
    s.steps style (n + m) = (s.steps style n).steps style m := by
  induction n generalizing s with
  | zero => rw [Nat.zero_add]; rfl
  | succ n ih => rw [Nat.succ_add]; exact ih (s.step style)

/-- What every step keeps, all steps keep. -/
theorem steps_keep {P : Printing → Prop} {style : Style} (hstep : ∀ s, P s → P (s.step style))
    (n : Nat) {s : Printing} (hs : P s) : P (s.steps style n) := by
  induction n generalizing s with
  | zero => exact hs
  | succ n ih => exact ih (hstep s hs)

/-- The text that comes of a state. -/
def output (style : Style) (s : Printing) : Text :=
  s.written ++ printTasks style s.column s.tasks

/-- **One step.**  A step does not change what comes out. -/
theorem output_step (style : Style) (s : Printing) :
    (s.step style).output style = s.output style := by
  obtain ⟨written, column, tasks⟩ := s
  cases tasks with
  | nil => rfl
  | cons task rest =>
      obtain ⟨indentation, mode, doc⟩ := task
      cases doc with
      | line flat hard =>
          rw [output, output, printTasks, step]
          split <;> simp
      | _ => simp [output, step, printTasks]

/-- No number of steps changes what comes out. -/
theorem output_steps (style : Style) (n : Nat) (s : Printing) :
    (s.steps style n).output style = s.output style := by
  induction n generalizing s with
  | zero => rfl
  | succ n ih => exact (ih (s.step style)).trans (output_step style s)

/-- Every step leaves fewer nodes to do. -/
theorem weight_step (style : Style) {s : Printing} (hbusy : s.tasks ≠ []) :
    Task.weight (s.step style).tasks < Task.weight s.tasks := by
  obtain ⟨written, column, tasks⟩ := s
  cases tasks with
  | nil => exact absurd rfl hbusy
  | cons task rest =>
      obtain ⟨indentation, mode, doc⟩ := task
      cases doc with
      | line flat hard =>
          simp only [step]
          split <;> simp [Task.weight, Doc.size]
      | ifBroken broken flat =>
          cases mode <;> simp only [step, Task.weight, Doc.size, Mode.choose] <;> omega
      | _ => simp [step, Task.weight, Task.weight_spread, Doc.size]

/-- The printer comes to an end. -/
theorem exists_steps_nil (style : Style) (s : Printing) : ∃ n, (s.steps style n).tasks = [] := by
  induction hweight : Task.weight s.tasks using Nat.strongRecOn generalizing s with
  | ind weight ih =>
      by_cases hdone : s.tasks = []
      · exact ⟨0, hdone⟩
      · have hless := weight_step style hdone
        obtain ⟨n, hn⟩ := ih _ (hweight ▸ hless) (s.step style) rfl
        exact ⟨n + 1, hn⟩

/-- **The whole run.**  In the end the printer has written the text of the document. -/
theorem exists_steps_eq_print (style : Style) (doc : Doc) :
    ∃ n column, (start doc).steps style n = ⟨doc.print style, column, []⟩ := by
  obtain ⟨n, hdone⟩ := exists_steps_nil style (start doc)
  have houtput := output_steps style n (start doc)
  refine ⟨n, ((start doc).steps style n).column, ?_⟩
  generalize (start doc).steps style n = last at hdone houtput ⊢
  obtain ⟨written, column, tasks⟩ := last
  obtain rfl : tasks = [] := hdone
  have hwritten : written = doc.print style := by
    simpa [output, printTasks, start, Doc.print] using houtput
  rw [hwritten]

end Printing

end Exemplar
