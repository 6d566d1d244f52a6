import Exemplar.Proofs.Layout.Recursive
import Exemplar.Proofs.Layout.Run
import Exemplar.Proofs.Parts

/-!
# The width of lines

Where the printer lays a group flat, the whole line on which the group stands fits into the
width.  That is not what the printer measures.  It measures the text ahead, in which the groups
after this one are not laid flat, and may lay them flat later.

Two things together make up for it.  First, a group that is laid flat later is measured with the
same text in front of it, so that each decision on the line renews the bound
(`length_firstLine_le`).  Second, when the contents of a flat group are worked off, no line is
broken and nothing is measured.  That needs documents in which no break is forced inside a flat
group (`Doc.Unforced`).  A hard line marks the groups around it, which are then not flat, but in a
flat alternative it would mark nothing, and a group that is marked from the start would break
inside a flat one.

The states of the printer are then `Sound`: pending flat documents come before all others and have
no line break inside, the column is the length of the last line, and in front of a flat document
the text ahead fits.
-/

namespace Exemplar

/-! ## Where documents break -/

namespace Doc

mutual

/-- Every node of a document has a property. -/
def Everywhere (property : Doc → Prop) : Doc → Prop
  | text content => property (text content)
  | concat parts => property (concat parts) ∧ EverywhereAll property parts
  | indent body => property (indent body) ∧ body.Everywhere property
  | group body marked => property (group body marked) ∧ body.Everywhere property
  | line flat hard => property (line flat hard)
  | ifBroken broken flat =>
      property (ifBroken broken flat) ∧ broken.Everywhere property ∧ flat.Everywhere property

/-- Every node of several documents has a property. -/
def EverywhereAll (property : Doc → Prop) : List Doc → Prop
  | [] => True
  | part :: rest => part.Everywhere property ∧ EverywhereAll property rest

end

/-- A document has no hard line inside. -/
def Soft : Doc → Prop :=
  Everywhere fun
    | line _ hard => hard = false
    | _ => True

/-- No group is marked, no hard line is in a flat alternative, and no text has a line feed. -/
def Unforced : Doc → Prop :=
  Everywhere fun
    | text content => '\n' ∉ content
    | line flat _ => '\n' ∉ flat
    | group _ marked => marked = false
    | ifBroken _ flat => flat.Soft
    | _ => True

/-- Laid out flat, a document takes one line. -/
def OneLine : Doc → Prop :=
  Everywhere fun
    | text content => '\n' ∉ content
    | line flat hard => '\n' ∉ flat ∧ hard = false
    | group _ marked => marked = false
    | _ => True

/-- Whatever a document lays out flat takes one line. -/
def Tidy : Doc → Prop :=
  Everywhere fun
    | text content => '\n' ∉ content
    | line flat _ => '\n' ∉ flat
    | group body marked => marked = false → body.OneLine
    | ifBroken _ flat => flat.OneLine
    | _ => True

mutual

/-- Without a hard line there is nothing to report. -/
theorem propagate_of_soft (doc : Doc) (hsoft : doc.Soft) : doc.propagate.2 = false := by
  cases doc with
  | text content => rfl
  | line flat hard => exact hsoft
  | concat parts => exact propagateAll_of_soft parts hsoft
  | indent body => exact propagate_of_soft body hsoft.2
  | group body marked => exact propagate_of_soft body hsoft.2
  | ifBroken broken flat => exact propagate_of_soft broken hsoft.2.1

/-- Without a hard line in any of them several documents report nothing. -/
theorem propagateAll_of_soft (docs : List Doc) (hsoft : (concat docs).Soft) :
    (propagateAll docs).2 = false := by
  cases docs with
  | nil => rfl
  | cons doc rest =>
      obtain ⟨-, hdoc, hrest⟩ := hsoft
      have hfirst : doc.propagate.2 = false := propagate_of_soft doc hdoc
      have hlater : (propagateAll rest).2 = false := propagateAll_of_soft rest ⟨trivial, hrest⟩
      simp [propagateAll, hfirst, hlater]

end

mutual

/-- Marking makes a document tidy, and without a hard line that marks anything it takes one line
when it is laid out flat. -/
theorem propagate_of_unforced (doc : Doc) (hdoc : doc.Unforced) :
    doc.propagate.1.Tidy ∧ (doc.propagate.2 = false → doc.propagate.1.OneLine) := by
  cases doc with
  | text content => exact ⟨hdoc, fun _ => hdoc⟩
  | line flat hard => exact ⟨hdoc, fun hsoft => ⟨hdoc, hsoft⟩⟩
  | concat parts => exact propagateAll_of_unforced parts hdoc
  | indent body =>
      obtain ⟨htidy, hone⟩ := propagate_of_unforced body hdoc.2
      exact ⟨⟨trivial, htidy⟩, fun hsoft => ⟨trivial, hone hsoft⟩⟩
  | group body marked =>
      obtain ⟨hmarked, hbody⟩ := hdoc
      obtain rfl : marked = false := hmarked
      obtain ⟨htidy, hone⟩ := propagate_of_unforced body hbody
      exact ⟨⟨hone, htidy⟩, fun hsoft => ⟨hsoft, hone hsoft⟩⟩
  | ifBroken broken flat =>
      obtain ⟨hsoft, hbroken, hflat⟩ := hdoc
      obtain ⟨htidy, hone⟩ := propagate_of_unforced broken hbroken
      obtain ⟨hflatTidy, hflatOne⟩ := propagate_of_unforced flat hflat
      have hline := hflatOne (propagate_of_soft flat hsoft)
      exact ⟨⟨hline, htidy, hflatTidy⟩, fun hnone => ⟨trivial, hone hnone, hline⟩⟩

/-- Once marked, several such documents lay flat only what takes one line. -/
theorem propagateAll_of_unforced (docs : List Doc) (hdocs : (concat docs).Unforced) :
    (concat (propagateAll docs).1).Tidy ∧
      ((propagateAll docs).2 = false → (concat (propagateAll docs).1).OneLine) := by
  cases docs with
  | nil => exact ⟨⟨trivial, trivial⟩, fun _ => ⟨trivial, trivial⟩⟩
  | cons doc rest =>
      obtain ⟨-, hdoc, hrest⟩ := hdocs
      obtain ⟨htidy, hone⟩ := propagate_of_unforced doc hdoc
      obtain ⟨⟨-, hlaterTidy⟩, hlaterOne⟩ := propagateAll_of_unforced rest ⟨trivial, hrest⟩
      refine ⟨⟨trivial, htidy, hlaterTidy⟩, fun hsoft => ?_⟩
      obtain ⟨hfirst, hlater⟩ := Bool.or_eq_false_iff.mp hsoft
      exact ⟨trivial, hone hfirst, (hlaterOne hlater).2⟩

end

/-- Several documents have a property everywhere if each of them does. -/
theorem everywhereAll_iff {property : Doc → Prop} {docs : List Doc} :
    EverywhereAll property docs ↔ ∀ doc ∈ docs, doc.Everywhere property := by
  induction docs with
  | nil => simp [EverywhereAll]
  | cons doc rest ih => simp [EverywhereAll, ih]

mutual

/-- What follows from a property holds where the property does. -/
theorem Everywhere.imp {property other : Doc → Prop} (himp : ∀ doc, property doc → other doc)
    {doc : Doc} (hdoc : doc.Everywhere property) : doc.Everywhere other := by
  cases doc with
  | text content => exact himp _ hdoc
  | line flat hard => exact himp _ hdoc
  | concat parts => exact ⟨himp _ hdoc.1, EverywhereAll.imp himp hdoc.2⟩
  | indent body => exact ⟨himp _ hdoc.1, Everywhere.imp himp hdoc.2⟩
  | group body marked => exact ⟨himp _ hdoc.1, Everywhere.imp himp hdoc.2⟩
  | ifBroken broken flat =>
      obtain ⟨hnode, hbroken, hflat⟩ := hdoc
      exact ⟨himp _ hnode, Everywhere.imp himp hbroken, Everywhere.imp himp hflat⟩

/-- What follows from a property of several documents holds of them. -/
theorem EverywhereAll.imp {property other : Doc → Prop} (himp : ∀ doc, property doc → other doc)
    {docs : List Doc} (hdocs : EverywhereAll property docs) : EverywhereAll other docs := by
  cases docs with
  | nil => trivial
  | cons doc rest => exact ⟨Everywhere.imp himp hdocs.1, EverywhereAll.imp himp hdocs.2⟩

end

/-- No text of a document has a line feed. -/
def Lined : Doc → Prop :=
  Everywhere fun
    | text content => '\n' ∉ content
    | line flat _ => '\n' ∉ flat
    | _ => True

/-- What takes one line has no line feed in its texts. -/
theorem OneLine.lined {doc : Doc} (hdoc : doc.OneLine) : doc.Lined :=
  hdoc.imp fun node hnode => by
    cases node with
    | text content => exact hnode
    | line flat hard => exact hnode.1
    | _ => trivial

/-- A tidy document has no line feed in its texts. -/
theorem Tidy.lined {doc : Doc} (hdoc : doc.Tidy) : doc.Lined :=
  hdoc.imp fun node hnode => by
    cases node with
    | text content => exact hnode
    | line flat hard => exact hnode
    | _ => trivial

mutual

/-- What follows a document of one line follows the text of the document. -/
theorem ahead_of_oneLine (doc : Doc) (hdoc : doc.OneLine) :
    '\n' ∉ doc.ahead .flat [] ∧
      ∀ follows, doc.ahead .flat follows = doc.ahead .flat [] ++ follows := by
  cases doc with
  | text content =>
      have hcontent : '\n' ∉ content := hdoc
      simpa [Doc.ahead] using hcontent
  | line flat hard =>
      obtain ⟨hflat, rfl⟩ : '\n' ∉ flat ∧ hard = false := hdoc
      simpa [Doc.ahead] using hflat
  | concat parts => exact aheadAll_of_oneLine parts hdoc
  | indent body => exact ahead_of_oneLine body hdoc.2
  | group body marked =>
      obtain ⟨hmarked, hbody⟩ := hdoc
      obtain rfl : marked = false := hmarked
      exact ahead_of_oneLine body hbody
  | ifBroken broken flat => exact ahead_of_oneLine flat hdoc.2.2

/-- Ahead of several flat documents there is no line feed, and what follows them comes behind. -/
theorem aheadAll_of_oneLine (docs : List Doc) (hdocs : (concat docs).OneLine) :
    '\n' ∉ aheadAll .flat [] docs ∧
      ∀ follows, aheadAll .flat follows docs = aheadAll .flat [] docs ++ follows := by
  cases docs with
  | nil => simp [aheadAll]
  | cons doc rest =>
      obtain ⟨-, hdoc, hrest⟩ := hdocs
      obtain ⟨hfirst, hfollows⟩ := ahead_of_oneLine doc hdoc
      obtain ⟨hlater, hlast⟩ := aheadAll_of_oneLine rest ⟨trivial, hrest⟩
      constructor
      · rw [aheadAll, hfollows, List.mem_append]
        exact not_or.mpr ⟨hfirst, hlater⟩
      · intro follows
        rw [aheadAll, aheadAll, hlast, hfollows, hfollows (aheadAll .flat [] rest),
          List.append_assoc]

end

end Doc

/-! ## After a flat group -/

/-- Where the text ahead of a group fits, the text ahead of its contents does. -/
theorem ahead_groupMode_le {style : Style} {column indentation : Nat} {mode : Mode} {body : Doc}
    {marked : Bool} {rest : List Task} (hroom : column +
      ((Doc.group body marked).ahead mode (Task.ahead rest)).length ≤ style.width.1) :
    column + (body.ahead (groupMode style column mode marked ⟨indentation, .flat, body⟩ rest)
      (Task.ahead rest)).length ≤ style.width.1 := by
  rw [groupMode_eq]
  split
  case isTrue hflat =>
      obtain ⟨rfl, rfl | hfits⟩ := hflat
      · exact hroom
      · exact hfits
  case isFalse hbroken =>
      cases marked with
      | true => exact hroom
      | false =>
          cases mode with
          | broken => exact hroom
          | flat => exact absurd ⟨rfl, .inl rfl⟩ hbroken

/-- **The rest of a line.**  If the text ahead fits, what is printed up to the first line feed
fits, whatever becomes of the groups in it. -/
theorem length_firstLine_le (style : Style) {column : Nat} {tasks : List Task}
    (hlined : ∀ task ∈ tasks, task.doc.Lined)
    (hroom : column + (Task.ahead tasks).length ≤ style.width.1) :
    column + (Text.firstLine (printTasks style column tasks)).length ≤ style.width.1 := by
  fun_induction printTasks style column tasks with
  | case1 column => exact hroom
  | case2 column indentation mode rest content ih =>
      obtain ⟨hcontent, hrest⟩ := List.forall_mem_cons.mp hlined
      rw [Task.ahead, Doc.ahead, List.length_append, ← Nat.add_assoc] at hroom
      rw [Text.firstLine_append hcontent, List.length_append, ← Nat.add_assoc]
      exact ih hrest hroom
  | case3 column indentation mode rest parts ih =>
      obtain ⟨hparts, hrest⟩ := List.forall_mem_cons.mp hlined
      refine ih ?_ (by rwa [ahead_spread])
      intro task htask
      rcases List.mem_append.mp htask with hpart | hlater
      · obtain ⟨part, hmem, rfl⟩ := List.mem_map.mp hpart
        exact Doc.everywhereAll_iff.mp hparts.2 part hmem
      · exact hrest task hlater
  | case4 column indentation mode rest body ih =>
      obtain ⟨hbody, hrest⟩ := List.forall_mem_cons.mp hlined
      exact ih (List.forall_mem_cons.mpr ⟨hbody.2, hrest⟩) hroom
  | case5 column indentation mode rest body marked chosen ih =>
      obtain ⟨hbody, hrest⟩ := List.forall_mem_cons.mp hlined
      exact ih (List.forall_mem_cons.mpr ⟨hbody.2, hrest⟩) (ahead_groupMode_le hroom)
  | case6 column indentation mode rest flat hard hflat ih =>
      obtain ⟨hline, hrest⟩ := List.forall_mem_cons.mp hlined
      have hstays : ¬ (mode = .broken ∨ hard = true) := by
        cases mode <;> simp_all
      rw [Task.ahead, Doc.ahead, if_neg hstays, List.length_append, ← Nat.add_assoc] at hroom
      rw [Text.firstLine_append hline, List.length_append, ← Nat.add_assoc]
      exact ih hrest hroom
  | case7 column indentation mode rest flat hard hbroken ih =>
      exact Nat.le_trans (Nat.le_add_right column _) hroom
  | case8 column indentation mode rest broken flat ih =>
      obtain ⟨hnode, hrest⟩ := List.forall_mem_cons.mp hlined
      cases mode with
      | broken => exact ih (List.forall_mem_cons.mpr ⟨hnode.2.1, hrest⟩) hroom
      | flat => exact ih (List.forall_mem_cons.mpr ⟨hnode.2.2, hrest⟩) hroom

/-! ## The states of the printer -/

namespace Printing

/-- Pending flat documents come before the broken ones and take one line each. -/
inductive Queued : List Task → Prop
  | broken {tasks : List Task} (hbroken : ∀ task ∈ tasks, task.mode = .broken ∧ task.doc.Tidy) :
      Queued tasks
  | flat {indentation : Nat} {doc : Doc} {rest : List Task} (hdoc : doc.OneLine)
      (hrest : Queued rest) : Queued (⟨indentation, .flat, doc⟩ :: rest)

/-- No pending document has a line feed in its texts. -/
theorem Queued.lined {tasks : List Task} (hqueued : Queued tasks) :
    ∀ task ∈ tasks, task.doc.Lined := by
  induction hqueued with
  | broken hbroken => exact fun task htask => (hbroken task htask).2.lined
  | flat hdoc hrest ih => exact List.forall_mem_cons.mpr ⟨hdoc.lined, ih⟩

/-- The parts of a flat document are pending flat documents. -/
theorem Queued.spread {indentation : Nat} {parts : List Doc} {rest : List Task}
    (hparts : ∀ part ∈ parts, part.OneLine) (hrest : Queued rest) :
    Queued (Task.spread indentation .flat parts rest) := by
  induction parts with
  | nil => exact hrest
  | cons part parts ih =>
      obtain ⟨hpart, hlater⟩ := List.forall_mem_cons.mp hparts
      exact .flat hpart (ih hlater)

/-- What holds of every state of the printer. -/
structure Sound (style : Style) (s : Printing) : Prop where
  /-- The pending documents are in order. -/
  queued : Queued s.tasks
  /-- The column is the length of the last line. -/
  column : s.column = (Text.lastLine s.written).length
  /-- In front of a flat document the text ahead fits. -/
  room : (∀ task ∈ s.tasks, task.mode = .broken) ∨
    s.column + (Task.ahead s.tasks).length ≤ style.width.1

/-- Texts in a line leave the state sound. -/
theorem Sound.write {style : Style} {written content : Text} {column : Nat} {rest : List Task}
    (hcontent : '\n' ∉ content) (hrest : Queued rest)
    (hcolumn : column = (Text.lastLine written).length)
    (hroom : column + (content ++ Task.ahead rest).length ≤ style.width.1) :
    Sound style ⟨written ++ content, column + content.length, rest⟩ where
  queued := hrest
  column := by rw [Text.lastLine_append hcontent, List.length_append, hcolumn]
  room := by
    rw [List.length_append, ← Nat.add_assoc] at hroom
    exact .inr hroom

/-- **One step in a flat group.** -/
theorem Sound.step_flat {style : Style} {written : Text} {column indentation : Nat} {doc : Doc}
    {rest : List Task} (hdoc : doc.OneLine) (hrest : Queued rest)
    (hcolumn : column = (Text.lastLine written).length)
    (hroom : column + (Task.ahead (⟨indentation, .flat, doc⟩ :: rest)).length ≤ style.width.1) :
    Sound style (step style ⟨written, column, ⟨indentation, .flat, doc⟩ :: rest⟩) := by
  cases doc with
  | text content => exact Sound.write hdoc hrest hcolumn hroom
  | concat parts =>
      refine ⟨.spread (Doc.everywhereAll_iff.mp hdoc.2) hrest, hcolumn, .inr ?_⟩
      simp only [step, ahead_spread]
      exact hroom
  | indent body => exact ⟨.flat hdoc.2 hrest, hcolumn, .inr hroom⟩
  | group body marked =>
      obtain ⟨hmarked, hbody⟩ := hdoc
      obtain rfl : marked = false := hmarked
      exact ⟨.flat hbody hrest, hcolumn, .inr hroom⟩
  | line flat hard =>
      obtain ⟨hflat, rfl⟩ : '\n' ∉ flat ∧ hard = false := hdoc
      exact Sound.write hflat hrest hcolumn hroom
  | ifBroken broken flat => exact ⟨.flat hdoc.2.2 hrest, hcolumn, .inr hroom⟩

/-- What stays broken needs no room. -/
theorem Sound.of_broken {style : Style} {written : Text} {column : Nat} {tasks : List Task}
    (hbroken : ∀ task ∈ tasks, task.mode = .broken ∧ task.doc.Tidy)
    (hcolumn : column = (Text.lastLine written).length) : Sound style ⟨written, column, tasks⟩ :=
  ⟨.broken hbroken, hcolumn, .inl fun task htask => (hbroken task htask).1⟩

/-- **One step outside of flat groups.** -/
theorem Sound.step_broken {style : Style} {written : Text} {column indentation : Nat} {doc : Doc}
    {rest : List Task} (hdoc : doc.Tidy)
    (hbroken : ∀ task ∈ rest, task.mode = .broken ∧ task.doc.Tidy)
    (hcolumn : column = (Text.lastLine written).length) :
    Sound style (step style ⟨written, column, ⟨indentation, .broken, doc⟩ :: rest⟩) := by
  have hinside {indentation : Nat} {body : Doc} (hbody : body.Tidy) :
      Sound style ⟨written, column, ⟨indentation, .broken, body⟩ :: rest⟩ :=
    Sound.of_broken (List.forall_mem_cons.mpr ⟨⟨rfl, hbody⟩, hbroken⟩) hcolumn
  cases doc with
  | text content =>
      refine Sound.of_broken hbroken ?_
      rw [Text.lastLine_append hdoc, List.length_append, hcolumn]
  | concat parts =>
      refine Sound.of_broken (fun task htask => ?_) hcolumn
      rcases List.mem_append.mp htask with hpart | hlater
      · obtain ⟨part, hmem, rfl⟩ := List.mem_map.mp hpart
        exact ⟨rfl, Doc.everywhereAll_iff.mp hdoc.2 part hmem⟩
      · exact hbroken task hlater
  | indent body => exact hinside hdoc.2
  | group body marked =>
      obtain ⟨hone, hbody⟩ := hdoc
      simp only [step]
      rw [groupMode_eq]
      split
      case isTrue hflat =>
          obtain ⟨hunmarked, hmode | hfits⟩ := hflat
          · cases hmode
          · exact ⟨.flat (hone hunmarked) (.broken hbroken), hcolumn, .inr hfits⟩
      case isFalse => exact hinside hbody
  | line flat hard =>
      have hspaces : '\n' ∉ List.replicate indentation ' ' := by simp
      refine Sound.of_broken hbroken ?_
      rw [Text.lastLine_append_newline hspaces, List.length_replicate]
  | ifBroken broken flat => exact hinside hdoc.2.1

/-- **One step.** -/
theorem Sound.step {style : Style} {s : Printing} (hsound : Sound style s) :
    Sound style (s.step style) := by
  obtain ⟨written, column, tasks⟩ := s
  obtain ⟨hqueued, hcolumn, hroom⟩ := hsound
  cases hqueued with
  | flat hdoc hrest =>
      rcases hroom with hmodes | hroom
      · cases hmodes _ List.mem_cons_self
      · exact Sound.step_flat hdoc hrest hcolumn hroom
  | broken hbroken =>
      cases tasks with
      | nil => exact Sound.of_broken hbroken hcolumn
      | cons task rest =>
          obtain ⟨indentation, mode, doc⟩ := task
          obtain ⟨⟨hmode, hdoc⟩, hlater⟩ := List.forall_mem_cons.mp hbroken
          obtain rfl : mode = .broken := hmode
          exact Sound.step_broken hdoc hlater hcolumn

/-- **The whole run.** -/
theorem sound_steps (style : Style) {doc : Doc} (hdoc : doc.Unforced) (n : Nat) :
    Sound style ((start doc).steps style n) := by
  have hbroken : ∀ task ∈ (start doc).tasks, task.mode = .broken ∧ task.doc.Tidy := by
    simpa [start] using (Doc.propagate_of_unforced doc hdoc).1
  exact steps_keep (fun _ hsound => hsound.step) n (Sound.of_broken hbroken rfl)

/-! ## Flat groups -/

mutual

/-- A document of one line is worked off without a line break. -/
theorem exists_steps_oneLine (style : Style) (doc : Doc) (hdoc : doc.OneLine) (written : Text)
    (column indentation : Nat) (rest : List Task) :
    ∃ n, steps style n ⟨written, column, ⟨indentation, .flat, doc⟩ :: rest⟩ =
      ⟨written ++ doc.ahead .flat [], column + (doc.ahead .flat []).length, rest⟩ := by
  cases doc with
  | text content => exact ⟨1, by simp [steps, step, Doc.ahead]⟩
  | line flat hard =>
      obtain ⟨-, rfl⟩ : '\n' ∉ flat ∧ hard = false := hdoc
      exact ⟨1, by simp [steps, step, Doc.ahead]⟩
  | concat parts =>
      obtain ⟨n, hn⟩ := exists_steps_spread style parts hdoc written column indentation rest
      exact ⟨n + 1, hn⟩
  | indent body =>
      obtain ⟨n, hn⟩ := exists_steps_oneLine style body hdoc.2 written column
        (indentation + style.tab.1) rest
      exact ⟨n + 1, hn⟩
  | group body marked =>
      obtain ⟨hmarked, hbody⟩ := hdoc
      obtain rfl : marked = false := hmarked
      obtain ⟨n, hn⟩ := exists_steps_oneLine style body hbody written column indentation rest
      exact ⟨n + 1, hn⟩
  | ifBroken broken flat =>
      obtain ⟨n, hn⟩ :=
        exists_steps_oneLine style flat hdoc.2.2 written column indentation rest
      exact ⟨n + 1, hn⟩

/-- The printer writes flat documents one after the other into the line. -/
theorem exists_steps_spread (style : Style) (docs : List Doc) (hdocs : (Doc.concat docs).OneLine)
    (written : Text) (column indentation : Nat) (rest : List Task) :
    ∃ n, steps style n ⟨written, column, Task.spread indentation .flat docs rest⟩ =
      ⟨written ++ Doc.aheadAll .flat [] docs,
        column + (Doc.aheadAll .flat [] docs).length, rest⟩ := by
  cases docs with
  | nil => exact ⟨0, by simp [steps, Task.spread, Doc.aheadAll]⟩
  | cons doc docs =>
      obtain ⟨-, hdoc, hlater⟩ := hdocs
      obtain ⟨n, hn⟩ := exists_steps_oneLine style doc hdoc written column indentation
        (Task.spread indentation .flat docs rest)
      obtain ⟨m, hm⟩ := exists_steps_spread style docs ⟨trivial, hlater⟩
        (written ++ doc.ahead .flat []) (column + (doc.ahead .flat []).length) indentation rest
      have hahead : Doc.aheadAll .flat [] (doc :: docs) =
          doc.ahead .flat [] ++ Doc.aheadAll .flat [] docs := (Doc.ahead_of_oneLine doc hdoc).2 _
      have hspread : Task.spread indentation .flat (doc :: docs) rest =
          ⟨indentation, .flat, doc⟩ :: Task.spread indentation .flat docs rest := rfl
      refine ⟨n + m, ?_⟩
      rw [hspread, steps_add, hn, hm, hahead, List.append_assoc, List.length_append, Nat.add_assoc]

end

/-- The printer comes to a group, with other tasks after it, and lays it flat. -/
def LaysFlat (style : Style) (s : Printing) (body : Doc) (rest : List Task) : Prop :=
  ∃ indentation mode marked, s.tasks = ⟨indentation, mode, .group body marked⟩ :: rest ∧
    groupMode style s.column mode marked ⟨indentation, .flat, body⟩ rest = .flat

/-- **Flat groups keep to the width.**  In a document in which nothing but a hard line that all
groups around it see forces a break, take any moment at which the printer lays a group flat.  The
printer then writes the contents of the group into the line in which it stands, and this line of
the printed text, with what stood in it before the group and all that comes after it, is no longer
than the width. -/
theorem flat_group_line_le_width (style : Style) {doc : Doc} (hdoc : doc.Unforced) {n : Nat}
    {s : Printing} (hreached : (start doc).steps style n = s) {body : Doc} {rest : List Task}
    (hflat : s.LaysFlat style body rest) :
    ∃ m laid later, laid = body.ahead .flat [] ∧ '\n' ∉ laid ∧
      s.steps style m = ⟨s.written ++ laid, s.column + laid.length, rest⟩ ∧
      doc.print style = s.written ++ laid ++ later ∧
      Text.lastLine s.written ++ laid ++ Text.firstLine later ∈ Text.lines (doc.print style) ∧
      (Text.lastLine s.written ++ laid ++ Text.firstLine later).length ≤ style.width.1 := by
  have hsound : Sound style s := hreached ▸ sound_steps style hdoc n
  have houtput : s.output style = doc.print style := by
    rw [← hreached, output_steps]
    rfl
  obtain ⟨written, column, tasks⟩ := s
  obtain ⟨indentation, mode, marked, rfl, hmode⟩ := hflat
  -- the next step leaves the contents of the group to be laid out flat
  have hstep : step style ⟨written, column, ⟨indentation, mode, .group body marked⟩ :: rest⟩ =
      ⟨written, column, ⟨indentation, .flat, body⟩ :: rest⟩ := by
    simp only [step, hmode]
  have hnext := hsound.step
  rw [hstep] at hnext
  obtain ⟨hqueued, hcolumn, hroom⟩ := hnext
  cases hqueued with
  | broken hbroken => cases (hbroken _ List.mem_cons_self).1
  | flat hbody hrest =>
      rcases hroom with hmodes | hroom
      · cases hmodes _ List.mem_cons_self
      · obtain ⟨hline, hfollows⟩ := Doc.ahead_of_oneLine body hbody
        obtain ⟨m, hm⟩ := exists_steps_oneLine style body hbody written column indentation rest
        generalize hlaid : body.ahead .flat [] = laid at *
        have hdone : steps style (m + 1)
            ⟨written, column, ⟨indentation, mode, .group body marked⟩ :: rest⟩ =
              ⟨written ++ laid, column + laid.length, rest⟩ := by
          rw [steps, hstep, hm]
        have hprint : doc.print style =
            written ++ laid ++ printTasks style (column + laid.length) rest := by
          rw [← houtput, ← output_steps style (m + 1), hdone]
          rfl
        have hbound : column + laid.length +
            (Text.firstLine (printTasks style (column + laid.length) rest)).length ≤
              style.width.1 := by
          refine length_firstLine_le style hrest.lined ?_
          rwa [Task.ahead, hfollows, List.length_append, ← Nat.add_assoc] at hroom
        have hmem := Text.mem_lines_append (written ++ laid)
          (printTasks style (column + laid.length) rest)
        rw [Text.lastLine_append hline, ← hprint] at hmem
        refine ⟨m + 1, laid, _, rfl, hline, hdone, hprint, hmem, ?_⟩
        rwa [List.length_append, List.length_append, ← hcolumn]

/-- A name in front of two lists of arguments; the second one does not fit after the first. -/
def curriedCall : Doc :=
  .concat [.text "compose", arguments "(f)", arguments "(argument)", .text ";"]
where
  /-- Arguments that can stand on a line of their own. -/
  arguments (content : Text) : Doc :=
    .group (.indent (.concat [Doc.softLine, .text content])) false

/-- The first arguments of the call are laid flat: the text ahead of them ends where the second
ones can break. -/
theorem flat_group_line_le_width_curriedCall :
    let style : Style := { width := ⟨20, by decide⟩ }
    let body : Doc := .indent (.concat [Doc.softLine, .text "(f)"])
    let rest : List Task :=
      [⟨0, .broken, curriedCall.arguments "(argument)"⟩, ⟨0, .broken, .text ";"⟩]
    let s : Printing := ⟨"compose", 7, ⟨0, .broken, curriedCall.arguments "(f)"⟩ :: rest⟩
    curriedCall.Unforced ∧ (start curriedCall).steps style 2 = s ∧ s.LaysFlat style body rest ∧
      ∃ m laid later, laid = body.ahead .flat [] ∧ '\n' ∉ laid ∧
        s.steps style m = ⟨s.written ++ laid, s.column + laid.length, rest⟩ ∧
        curriedCall.print style = s.written ++ laid ++ later ∧
        Text.lastLine s.written ++ laid ++ Text.firstLine later ∈
          Text.lines (curriedCall.print style) ∧
        (Text.lastLine s.written ++ laid ++ Text.firstLine later).length ≤ style.width.1 := by
  intro style body rest s
  have hdoc : curriedCall.Unforced := by
    simp [Doc.Unforced, Doc.Everywhere, Doc.EverywhereAll, curriedCall, curriedCall.arguments,
      Doc.softLine]
  have hreached : (start curriedCall).steps style 2 = s := rfl
  have hflat : s.LaysFlat style body rest := by
    refine ⟨0, .broken, false, rfl, ?_⟩
    rw [groupMode_eq, if_pos]
    decide
  exact ⟨hdoc, hreached, hflat, flat_group_line_le_width style hdoc hreached hflat⟩

end Printing

end Exemplar
