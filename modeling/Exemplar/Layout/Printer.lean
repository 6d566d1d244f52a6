import Exemplar.Layout.Doc
import Exemplar.Layout.Style

/-!
# Printing documents

The printer keeps a list of tasks, each a document with the indentation and the
mode it is to be printed in, and takes the first task apart until texts and
lines are left.  A group is printed flat when the group around it is flat, or
when the text from here to the next line break fits into the columns that are
left of the line; `fits` finds that out by going through the pending tasks in the
same way without printing.  Both end because every step leaves fewer nodes in the
tasks (`weight`).

`layout` prints a whole document and removes the blanks at the ends of its lines.
-/

namespace Exemplar

/-- How the lines directly inside a group are printed. -/
inductive Mode where
  /-- They start new output lines. -/
  | broken
  /-- They stay in the line. -/
  | flat
deriving DecidableEq, Repr, Inhabited

/-- A document that is still to be printed. -/
structure Task where
  /-- The number of spaces after a line break. -/
  indentation : Nat
  /-- The mode of the group around the document. -/
  mode : Mode
  /-- The document. -/
  doc : Doc

/-- The document that `ifBroken` stands for in a mode. -/
def Mode.choose {α : Type} (mode : Mode) (broken flat : α) : α :=
  match mode with
  | .broken => broken
  | .flat => flat

namespace Task

/-- The number of nodes in a list of tasks. -/
def weight : List Task → Nat
  | [] => 0
  | task :: rest => task.doc.size + weight rest

/-- The parts of a document as tasks, followed by other tasks. -/
def spread (indentation : Nat) (mode : Mode) (parts : List Doc) (rest : List Task) : List Task :=
  parts.map (⟨indentation, mode, ·⟩) ++ rest

/-- To take a document apart into its parts leaves one node fewer. -/
theorem weight_spread (indentation : Nat) (mode : Mode) (parts : List Doc) (rest : List Task) :
    weight (spread indentation mode parts rest) = Doc.sizeAll parts + weight rest := by
  induction parts with
  | nil => simp [spread, Doc.sizeAll]
  | cons part parts ih =>
      simp only [spread, List.map_cons, List.cons_append, weight, Doc.sizeAll] at ih ⊢
      omega

end Task

/-- Whether the tasks, up to the first line break they print, take no more than `room` columns. -/
def fits (room : Nat) : List Task → Bool
  | [] => true
  | ⟨indentation, mode, doc⟩ :: rest =>
      match doc with
      | .text content =>
          content.length ≤ room && fits (room - content.length) rest
      | .concat parts => fits room (Task.spread indentation mode parts rest)
      | .indent body => fits room (⟨indentation, mode, body⟩ :: rest)
      | .group body marked =>
          fits room (⟨indentation, if marked then .broken else mode, body⟩ :: rest)
      | .line flat hard =>
          mode == .broken || hard || (flat.length ≤ room && fits (room - flat.length) rest)
      | .ifBroken broken flat =>
          fits room (⟨indentation, mode, mode.choose broken flat⟩ :: rest)
termination_by tasks => Task.weight tasks
decreasing_by
  all_goals simp only [Task.weight, Task.weight_spread, Doc.size]
  all_goals try omega
  cases mode <;> simp only [Mode.choose] <;> omega

/-- The mode in which a group is printed: broken if it is marked, else flat if the group around
it is flat or if the text up to the next line break fits. -/
def groupMode (style : Style) (column : Nat) (mode : Mode) (marked : Bool)
    (flattened : Task) (rest : List Task) : Mode :=
  if marked then .broken
  else if mode == .flat then .flat
  else if column ≤ style.width.1 && fits (style.width.1 - column) (flattened :: rest) then .flat
  else .broken

/-- The text that tasks print, from a given column on. -/
def printTasks (style : Style) (column : Nat) : List Task → Text
  | [] => []
  | ⟨indentation, mode, doc⟩ :: rest =>
      match doc with
      | .text content => content ++ printTasks style (column + content.length) rest
      | .concat parts => printTasks style column (Task.spread indentation mode parts rest)
      | .indent body => printTasks style column (⟨indentation + style.tab.1, mode, body⟩ :: rest)
      | .group body marked =>
          let chosen := groupMode style column mode marked ⟨indentation, .flat, body⟩ rest
          printTasks style column (⟨indentation, chosen, body⟩ :: rest)
      | .line flat hard =>
          if mode == .flat && !hard then flat ++ printTasks style (column + flat.length) rest
          else '\n' :: List.replicate indentation ' ' ++ printTasks style indentation rest
      | .ifBroken broken flat =>
          printTasks style column (⟨indentation, mode, mode.choose broken flat⟩ :: rest)
termination_by tasks => Task.weight tasks
decreasing_by
  all_goals simp only [Task.weight, Task.weight_spread, Doc.size]
  all_goals try omega
  cases mode <;> simp only [Mode.choose] <;> omega

namespace Doc

/-- The text of a document before the blanks at the ends of its lines are removed. -/
def print (style : Style) (doc : Doc) : Text :=
  printTasks style 0 [⟨0, .broken, doc.propagate.1⟩]

/-- The text of a document. -/
def layout (style : Style) (doc : Doc) : Text :=
  Text.unlines ((Text.lines (doc.print style)).map (Text.trimEnd Text.isBlank))

/-- The text of a document that stands as an expression, without blanks around it. -/
def layoutExpression (style : Style) (doc : Doc) : Text :=
  Text.trim Text.isBlank (doc.layout style)

/-- The text of statements, each of them terminated and on lines of its own. -/
def layoutProgram (style : Style) (statements : List Doc) : Text :=
  if statements.isEmpty then []
  else
    let terminated := statements.map fun statement => concat [statement, text style.terminator]
    (joined hardLine terminated).layout style ++ ['\n']

end Doc

end Exemplar
