import Exemplar.Layout.Printer

/-!
# What documents mean

The printer works off a list of tasks and looks ahead along the same list.  A document also has
a meaning by recursion over its nodes, in two steps.

`settle` decides how every group is laid out and marks the broken ones.  A group lies flat if it
is not marked and either the group around it lies flat, or its contents and the text that follows
them fit into what is left of the line (`LiesFlat`).  What follows, up to the next line break, is
written down by `ahead`, in which pending groups do not decide anything yet: they take the mode
in which they are pending.

`write` then writes a settled document: texts as they stand, lines as spaces or as new output
lines, depending on the group around them.

`printTasks_cons` says that the printer, given a task, does both for the document of the task and
goes on with the others.  What `fits` counts is the text ahead (`fits_iff`).  So a document is
printed as its settled form is written (`print_eq_write`).
-/

namespace Exemplar

namespace Doc

mutual

/-- The text of a document up to its first line break, and, if there is none, what `follows`.  Of
the groups inside, marked ones are broken and the others take the mode of the document. -/
def ahead (mode : Mode) (follows : Text) : Doc → Text
  | text content => content ++ follows
  | concat parts => aheadAll mode follows parts
  | indent body => body.ahead mode follows
  | group body marked => body.ahead (if marked then .broken else mode) follows
  | line flat hard => if mode = .broken ∨ hard = true then [] else flat ++ follows
  | ifBroken broken flat =>
      match mode with
      | .broken => broken.ahead .broken follows
      | .flat => flat.ahead .flat follows

/-- The text of documents one after the other, up to the first line break. -/
def aheadAll (mode : Mode) (follows : Text) : List Doc → Text
  | [] => follows
  | part :: rest => part.ahead mode (aheadAll mode follows rest)

end

/-- A group lies flat: it is not marked, and the group around it lies flat or the text from the
column to the next line break fits into the width. -/
def LiesFlat (style : Style) (mode : Mode) (follows : Text) (column : Nat) (body : Doc)
    (marked : Bool) : Prop :=
  marked = false ∧ (mode = .flat ∨ column + (body.ahead .flat follows).length ≤ style.width.1)

instance (style : Style) (mode : Mode) (follows : Text) (column : Nat) (body : Doc)
    (marked : Bool) : Decidable (LiesFlat style mode follows column body marked) :=
  inferInstanceAs (Decidable (_ ∧ _))

mutual

/-- Decide the groups of a document that starts in a column, `depth` levels deep, and before a
text that follows: in the result exactly the broken ones are marked.  The second part is the
column after the document. -/
def settle (style : Style) (depth : Nat) (mode : Mode) (follows : Text) (column : Nat) :
    Doc → Doc × Nat
  | text content => (text content, column + content.length)
  | concat parts =>
      let (parts, column) := settleAll style depth mode follows column parts
      (concat parts, column)
  | indent body =>
      let (body, column) := body.settle style (depth + 1) mode follows column
      (indent body, column)
  | group body marked =>
      if LiesFlat style mode follows column body marked then
        let (body, column) := body.settle style depth .flat follows column
        (group body false, column)
      else
        let (body, column) := body.settle style depth .broken follows column
        (group body true, column)
  | line flat hard =>
      (line flat hard,
        if mode = .flat ∧ hard = false then column + flat.length else depth * style.tab.1)
  | ifBroken broken flat =>
      match mode with
      | .broken =>
          let (broken, column) := broken.settle style depth .broken follows column
          (ifBroken broken flat, column)
      | .flat =>
          let (flat, column) := flat.settle style depth .flat follows column
          (ifBroken broken flat, column)

/-- Decide the groups of several documents, each followed by the later ones. -/
def settleAll (style : Style) (depth : Nat) (mode : Mode) (follows : Text) (column : Nat) :
    List Doc → List Doc × Nat
  | [] => ([], column)
  | part :: rest =>
      let (part, column) := part.settle style depth mode (aheadAll mode follows rest) column
      let (rest, column) := settleAll style depth mode follows column rest
      (part :: rest, column)

end

mutual

/-- The text of a settled document, `depth` levels deep in a group that is laid out in a mode. -/
def write (style : Style) (depth : Nat) (mode : Mode) : Doc → Text
  | text content => content
  | concat parts => writeAll style depth mode parts
  | indent body => body.write style (depth + 1) mode
  | group body broken => body.write style depth (if broken then .broken else .flat)
  | line flat hard =>
      if mode = .flat ∧ hard = false then flat
      else '\n' :: List.replicate (depth * style.tab.1) ' '
  | ifBroken broken flat =>
      match mode with
      | .broken => broken.write style depth .broken
      | .flat => flat.write style depth .flat

/-- The text of settled documents one after the other. -/
def writeAll (style : Style) (depth : Nat) (mode : Mode) : List Doc → Text
  | [] => []
  | part :: rest => part.write style depth mode ++ writeAll style depth mode rest

end

/-- A document with all its groups decided, standing alone and outside of any group. -/
def settled (style : Style) (doc : Doc) : Doc :=
  (doc.settle style 0 .broken [] 0).1

mutual

/-- A document with the marks of its groups taken away. -/
def unmarked : Doc → Doc
  | text content => text content
  | concat parts => concat (unmarkedAll parts)
  | indent body => indent body.unmarked
  | group body _ => group body.unmarked false
  | line flat hard => line flat hard
  | ifBroken broken flat => ifBroken broken.unmarked flat.unmarked

/-- Documents with the marks of their groups taken away. -/
def unmarkedAll : List Doc → List Doc
  | [] => []
  | part :: rest => part.unmarked :: unmarkedAll rest

end

mutual

/-- Settling a document changes marks only. -/
theorem unmarked_settle (style : Style) (depth : Nat) (mode : Mode) (follows : Text)
    (column : Nat) (doc : Doc) :
    (doc.settle style depth mode follows column).1.unmarked = doc.unmarked := by
  cases doc with
  | text content => rfl
  | line flat hard => rfl
  | concat parts =>
      exact congrArg concat (unmarkedAll_settleAll style depth mode follows column parts)
  | indent body =>
      exact congrArg indent (unmarked_settle style (depth + 1) mode follows column body)
  | group body marked =>
      rw [settle]
      split <;> exact congrArg (group · false) (unmarked_settle style depth _ follows column body)
  | ifBroken broken flat =>
      cases mode with
      | broken =>
          exact congrArg (ifBroken · flat.unmarked)
            (unmarked_settle style depth .broken follows column broken)
      | flat =>
          exact congrArg (ifBroken broken.unmarked ·)
            (unmarked_settle style depth .flat follows column flat)

/-- Settling several documents changes marks only. -/
theorem unmarkedAll_settleAll (style : Style) (depth : Nat) (mode : Mode) (follows : Text)
    (column : Nat) (docs : List Doc) :
    unmarkedAll (settleAll style depth mode follows column docs).1 = unmarkedAll docs := by
  cases docs with
  | nil => rfl
  | cons doc rest =>
      have hfirst := unmarked_settle style depth mode (aheadAll mode follows rest) column doc
      have hlater := unmarkedAll_settleAll style depth mode follows
        (doc.settle style depth mode (aheadAll mode follows rest) column).2 rest
      rw [settleAll, unmarkedAll, unmarkedAll, hfirst, hlater]

end

end Doc

/-! ## Looking ahead -/

/-- The text that tasks print up to the first line break, before any of their groups is decided. -/
def Task.ahead : List Task → Text
  | [] => []
  | task :: rest => task.doc.ahead task.mode (Task.ahead rest)

/-- The text ahead of a sequence is that of its parts. -/
theorem ahead_spread (indentation : Nat) (mode : Mode) (parts : List Doc) (rest : List Task) :
    Task.ahead (Task.spread indentation mode parts rest) =
      Doc.aheadAll mode (Task.ahead rest) parts := by
  induction parts with
  | nil => rfl
  | cons part parts ih =>
      rw [Doc.aheadAll, ← ih]
      rfl

/-- **Looking ahead.**  Tasks fit exactly when the text ahead of them does. -/
theorem fits_iff (room : Nat) (tasks : List Task) :
    fits room tasks = true ↔ (Task.ahead tasks).length ≤ room := by
  fun_induction fits room tasks with
  | case1 room => simp [Task.ahead]
  | case2 room indentation mode rest content ih =>
      simp only [Bool.and_eq_true, decide_eq_true_eq, ih, Task.ahead, Doc.ahead,
        List.length_append]
      omega
  | case3 room indentation mode rest parts ih =>
      rw [ih, ahead_spread]
      rfl
  | case4 room indentation mode rest body ih => exact ih
  | case5 room indentation mode rest body marked ih => exact ih
  | case6 room indentation mode rest flat hard ih =>
      simp only [Bool.or_eq_true, Bool.and_eq_true, beq_iff_eq, decide_eq_true_eq, ih,
        Task.ahead, Doc.ahead]
      by_cases hbreaks : mode = .broken ∨ hard = true
      · simp [hbreaks]
      · rw [if_neg hbreaks, or_iff_right hbreaks, List.length_append]
        omega
  | case7 room indentation mode rest broken flat ih =>
      rw [ih]
      cases mode <;> rfl

/-- The printer decides a group as its meaning does. -/
theorem groupMode_eq (style : Style) (column : Nat) (mode : Mode) (marked : Bool)
    (indentation : Nat) (body : Doc) (rest : List Task) :
    groupMode style column mode marked ⟨indentation, .flat, body⟩ rest =
      if body.LiesFlat style mode (Task.ahead rest) column marked then .flat else .broken := by
  have hfits : column ≤ style.width.1 ∧
      fits (style.width.1 - column) (⟨indentation, .flat, body⟩ :: rest) = true ↔
        column + (body.ahead .flat (Task.ahead rest)).length ≤ style.width.1 := by
    simp only [fits_iff, Task.ahead]
    omega
  cases marked with
  | true => simp [groupMode, Doc.LiesFlat]
  | false =>
      cases mode with
      | flat => simp [groupMode, Doc.LiesFlat]
      | broken => simp [groupMode, Doc.LiesFlat, hfits]

/-! ## Printing -/

mutual

/-- **One task.**  To print a task is to settle its document, to write what comes of it, and to
go on with the other tasks in the column after it. -/
theorem printTasks_cons (style : Style) (depth : Nat) (mode : Mode) (column : Nat) (doc : Doc)
    (rest : List Task) :
    printTasks style column (⟨depth * style.tab.1, mode, doc⟩ :: rest) =
      (doc.settle style depth mode (Task.ahead rest) column).1.write style depth mode ++
        printTasks style (doc.settle style depth mode (Task.ahead rest) column).2 rest := by
  cases doc with
  | text content => rw [printTasks]; rfl
  | concat parts =>
      rw [printTasks]
      exact printTasks_spread style depth mode column parts rest
  | indent body =>
      have hdeeper : depth * style.tab.1 + style.tab.1 = (depth + 1) * style.tab.1 := by
        rw [Nat.add_mul, Nat.one_mul]
      rw [printTasks, hdeeper]
      exact printTasks_cons style (depth + 1) mode column body rest
  | group body marked =>
      rw [printTasks, groupMode_eq, Doc.settle]
      split <;> exact printTasks_cons style depth _ column body rest
  | line flat hard =>
      rw [printTasks, Doc.settle, Doc.write]
      by_cases hflat : mode = .flat ∧ hard = false
      · simp [hflat]
      · have hbroken : ¬ (mode == .flat && !hard) = true := by simpa using hflat
        rw [if_neg hflat, if_neg hflat, if_neg hbroken]
  | ifBroken broken flat =>
      rw [printTasks]
      cases mode with
      | broken => exact printTasks_cons style depth .broken column broken rest
      | flat => exact printTasks_cons style depth .flat column flat rest

/-- To print parts as tasks is to settle and to write them one after the other. -/
theorem printTasks_spread (style : Style) (depth : Nat) (mode : Mode) (column : Nat)
    (docs : List Doc) (rest : List Task) :
    printTasks style column (Task.spread (depth * style.tab.1) mode docs rest) =
      Doc.writeAll style depth mode
          (Doc.settleAll style depth mode (Task.ahead rest) column docs).1 ++
        printTasks style (Doc.settleAll style depth mode (Task.ahead rest) column docs).2 rest := by
  cases docs with
  | nil => rfl
  | cons doc docs =>
      have hspread : Task.spread (depth * style.tab.1) mode (doc :: docs) rest =
          ⟨depth * style.tab.1, mode, doc⟩ ::
            Task.spread (depth * style.tab.1) mode docs rest := rfl
      rw [hspread, printTasks_cons, printTasks_spread, ahead_spread, Doc.settleAll, Doc.writeAll,
        List.append_assoc]

end

/-- A document is printed as its settled form is written. -/
theorem Doc.print_eq_write_settled (style : Style) (doc : Doc) :
    doc.print style = (doc.propagate.1.settled style).write style 0 .broken := by
  have hprint := printTasks_cons style 0 .broken 0 doc.propagate.1 []
  rw [Nat.zero_mul] at hprint
  rw [Doc.print, hprint, printTasks, List.append_nil]
  rfl

/-- **What is printed.**  The printed text of a document, before the blanks at the ends of its
lines are removed, is that of its recursive meaning: the hard lines mark the groups around them,
every group is decided by the text ahead of it, and the result, which differs from the document
in marks only, is written from its nodes. -/
theorem print_eq_write (style : Style) (doc : Doc) :
    doc.print style = (doc.propagate.1.settled style).write style 0 .broken ∧
      (doc.propagate.1.settled style).unmarked = doc.propagate.1.unmarked :=
  ⟨Doc.print_eq_write_settled style doc, Doc.unmarked_settle style 0 .broken [] 0 doc.propagate.1⟩

end Exemplar
