import Exemplar.Proofs.Layout.Width

/-!
# Which groups a hard line breaks

A hard line breaks every group around it, except those around an `ifBroken` that has it in its flat
alternative: that alternative is printed only where they lie flat.  `Doc.HasHardLine` says so from
the nodes of a document.  The printer itself does not look for hard lines; `propagate` marks the
groups beforehand.

To speak of one group before and after that, nodes are addressed by the path from the root
(`Doc.at?`).  Everything about marks comes from one equation, `at?_propagate`: the node of the
marked document at a path is the node of the document there, marked as a document of its own.

The printer takes documents apart and never puts any together, so all it ever comes to are nodes
of the marked document (`Printing.Within`), and a group with a hard line is marked there.
`propagate_exact` puts it all together.
-/

namespace Exemplar

namespace Doc

/-- To prove something of all documents, prove it of each from the documents inside. -/
@[elab_as_elim]
theorem ind {P : Doc → Prop} (text : ∀ content, P (.text content))
    (line : ∀ flat hard, P (.line flat hard))
    (concat : ∀ parts : List Doc, (∀ part ∈ parts, P part) → P (.concat parts))
    (indent : ∀ body, P body → P (.indent body))
    (group : ∀ body marked, P body → P (.group body marked))
    (ifBroken : ∀ broken flat, P broken → P flat → P (.ifBroken broken flat)) (doc : Doc) :
    P doc := by
  refine @Doc.rec P (fun parts => ∀ part ∈ parts, P part) text concat indent group line ifBroken
    ?_ ?_ doc
  · intro part hmem
    exact absurd hmem List.not_mem_nil
  · intro part rest hpart hrest other hother
    rcases List.mem_cons.mp hother with rfl | hmem
    · exact hpart
    · exact hrest other hmem

/-! ## Nodes -/

/-- The documents directly inside a document, of an `ifBroken` the broken alternative first. -/
def children : Doc → List Doc
  | text _ => []
  | line _ _ => []
  | concat parts => parts
  | indent body => [body]
  | group body _ => [body]
  | ifBroken broken flat => [broken, flat]

/-- The node at the end of a path, which says at every node to which of its children to go. -/
def at? (doc : Doc) : List Nat → Option Doc
  | [] => some doc
  | i :: path => doc.children[i]?.bind fun child => child.at? path

/-- To follow a path and then another one is to follow both in a row. -/
theorem at?_append (doc : Doc) (path later : List Nat) :
    doc.at? (path ++ later) = (doc.at? path).bind fun node => node.at? later := by
  induction path generalizing doc with
  | nil => rfl
  | cons i path ih =>
      rw [List.cons_append, at?, at?]
      cases doc.children[i]? with
      | none => rfl
      | some child => exact ih child

/-- The children of a node are nodes. -/
theorem exists_at?_of_mem_children {doc node child : Doc} {path : List Nat}
    (hnode : doc.at? path = some node) (hmem : child ∈ node.children) :
    ∃ longer, doc.at? longer = some child := by
  obtain ⟨i, hi⟩ := List.mem_iff_getElem?.mp hmem
  refine ⟨path ++ [i], ?_⟩
  rw [at?_append, hnode, Option.bind_some, at?, hi]
  rfl

/-! ## Hard lines and marks -/

/-- A hard line stands in the document, at whatever depth, on a path that does not enter the flat
alternative of an `ifBroken`. -/
inductive HasHardLine : Doc → Prop
  | line {flat : Text} : HasHardLine (.line flat true)
  | concat {parts : List Doc} {part : Doc} (hmem : part ∈ parts) (hinside : HasHardLine part) :
      HasHardLine (.concat parts)
  | indent {body : Doc} (hinside : HasHardLine body) : HasHardLine (.indent body)
  | group {body : Doc} {marked : Bool} (hinside : HasHardLine body) :
      HasHardLine (.group body marked)
  | ifBroken {broken flat : Doc} (hinside : HasHardLine broken) :
      HasHardLine (.ifBroken broken flat)

/-- Several documents are marked one by one, and have a hard line if one of them does. -/
theorem propagateAll_eq (docs : List Doc) :
    propagateAll docs =
      (docs.map fun doc => doc.propagate.1, docs.any fun doc => doc.propagate.2) := by
  induction docs with
  | nil => rfl
  | cons doc rest ih => rw [propagateAll, ih, List.map_cons, List.any_cons]

/-- A sequence is marked part by part. -/
theorem propagate_concat (parts : List Doc) :
    (concat parts).propagate = (concat (parts.map fun part => part.propagate.1),
      parts.any fun part => part.propagate.2) := by
  rw [propagate, propagateAll_eq]

/-- Marks are taken away one by one. -/
theorem unmarkedAll_eq_map (docs : List Doc) : unmarkedAll docs = docs.map unmarked := by
  induction docs with
  | nil => rfl
  | cons doc rest ih => rw [unmarkedAll, ih, List.map_cons]

/-- Marking a document changes marks only. -/
theorem unmarked_propagate (doc : Doc) : doc.propagate.1.unmarked = doc.unmarked := by
  induction doc using Doc.ind with
  | text content => rfl
  | line flat hard => rfl
  | concat parts ih =>
      rw [propagate_concat, unmarked, unmarked, unmarkedAll_eq_map, unmarkedAll_eq_map,
        List.map_map]
      exact congrArg Doc.concat (List.map_congr_left ih)
  | indent body ih => exact congrArg Doc.indent ih
  | group body marked ih => exact congrArg (Doc.group · false) ih
  | ifBroken broken flat hbroken hflat =>
      have hdocs : (ifBroken broken flat).propagate.1.unmarked =
          ifBroken broken.propagate.1.unmarked flat.propagate.1.unmarked := rfl
      rw [hdocs, hbroken, hflat, unmarked]

/-- Marking a document tells whether it has a hard line. -/
theorem propagate_snd_iff (doc : Doc) : doc.propagate.2 = true ↔ doc.HasHardLine := by
  induction doc using Doc.ind with
  | text content =>
      constructor
      · intro hnone
        cases hnone
      · intro hhard
        cases hhard
  | line flat hard =>
      constructor
      · intro hhard
        obtain rfl : hard = true := hhard
        exact .line
      · intro hhard
        cases hhard
        rfl
  | concat parts ih =>
      rw [propagate_concat, List.any_eq_true]
      constructor
      · rintro ⟨part, hmem, hpart⟩
        exact .concat hmem ((ih part hmem).mp hpart)
      · intro hhard
        cases hhard with
        | concat hmem hinside => exact ⟨_, hmem, (ih _ hmem).mpr hinside⟩
  | indent body ih =>
      refine ih.trans ⟨.indent, fun hhard => ?_⟩
      cases hhard with
      | indent hinside => exact hinside
  | group body marked ih =>
      refine ih.trans ⟨.group, fun hhard => ?_⟩
      cases hhard with
      | group hinside => exact hinside
  | ifBroken broken flat hbroken _ =>
      refine hbroken.trans ⟨.ifBroken, fun hhard => ?_⟩
      cases hhard with
      | ifBroken hinside => exact hinside

/-- **Marking twice.**  A marked document is marked already, and tells the same of itself. -/
theorem propagate_propagate (doc : Doc) : doc.propagate.1.propagate = doc.propagate := by
  induction doc using Doc.ind with
  | text content => rfl
  | line flat hard => rfl
  | concat parts ih =>
      have hparts : parts.map (fun part => part.propagate.1.propagate) =
          parts.map fun part => part.propagate := List.map_congr_left ih
      have hdocs := congrArg (List.map Prod.fst) hparts
      have hflags := congrArg (List.any · Prod.snd) hparts
      simp only [List.map_map, List.any_map, Function.comp_def] at hdocs hflags
      simp only [propagate_concat, List.map_map, List.any_map, Function.comp_def, hdocs, hflags]
  | indent body ih => exact congrArg (fun done => (Doc.indent done.1, done.2)) ih
  | group body marked ih =>
      have hmark : ((marked || body.propagate.2) || body.propagate.1.propagate.2) =
          (marked || body.propagate.2) := by
        rw [ih, Bool.or_assoc, Bool.or_self]
      have hgroup : (group body marked).propagate.1.propagate =
          (group body.propagate.1.propagate.1
            ((marked || body.propagate.2) || body.propagate.1.propagate.2),
            body.propagate.1.propagate.2) := rfl
      rw [hgroup, hmark, ih]
      rfl
  | ifBroken broken flat hbroken hflat =>
      have hdocs : (ifBroken broken flat).propagate.1.propagate =
          (ifBroken broken.propagate.1.propagate.1 flat.propagate.1.propagate.1,
            broken.propagate.1.propagate.2) := rfl
      rw [hdocs, hbroken, hflat]
      rfl

/-- Marking leaves the hard lines where they are. -/
theorem hasHardLine_propagate_iff (doc : Doc) :
    doc.propagate.1.HasHardLine ↔ doc.HasHardLine := by
  rw [← propagate_snd_iff, propagate_propagate, propagate_snd_iff]

/-- The children of a marked document are the marked children. -/
theorem children_propagate (doc : Doc) :
    doc.propagate.1.children = doc.children.map fun child => child.propagate.1 := by
  cases doc with
  | concat parts => rw [propagate_concat]; rfl
  | _ => rfl

/-- **Marking node by node.**  The node of a marked document at a path is the node of the document
there, marked as a document of its own. -/
theorem at?_propagate (doc : Doc) (path : List Nat) :
    doc.propagate.1.at? path = (doc.at? path).map fun node => node.propagate.1 := by
  induction path generalizing doc with
  | nil => rfl
  | cons i path ih =>
      rw [at?, at?, children_propagate, List.getElem?_map]
      cases doc.children[i]? with
      | none => rfl
      | some child => exact ih child

/-- Marking makes groups of groups only. -/
theorem propagate_eq_group_iff {node body : Doc} {marked : Bool} :
    node.propagate.1 = group body marked ↔
      ∃ source before, node = group source before ∧ body = source.propagate.1 ∧
        (marked = true ↔ before = true ∨ source.HasHardLine) := by
  constructor
  · intro hgroup
    cases node with
    | group source before =>
        obtain ⟨rfl, rfl⟩ : source.propagate.1 = body ∧
            (before || source.propagate.2) = marked := by simpa [propagate] using hgroup
        exact ⟨source, before, rfl, rfl, by rw [Bool.or_eq_true, propagate_snd_iff]⟩
    | _ => simp [propagate] at hgroup
  · rintro ⟨source, before, rfl, rfl, hmarked⟩
    have hmark : (before || source.propagate.2) = marked := by
      rw [Bool.eq_iff_iff, hmarked, Bool.or_eq_true, propagate_snd_iff]
    rw [← hmark]
    rfl

/-- **Marks.**  The groups of a marked document are those of the document, and one of them is
marked exactly when it was marked before or has a hard line. -/
theorem at?_propagate_eq_group_iff {doc body : Doc} {path : List Nat} {marked : Bool} :
    doc.propagate.1.at? path = some (group body marked) ↔
      ∃ source before, doc.at? path = some (group source before) ∧ body = source.propagate.1 ∧
        (marked = true ↔ before = true ∨ source.HasHardLine) := by
  rw [at?_propagate, Option.map_eq_some_iff]
  constructor
  · rintro ⟨node, hnode, hgroup⟩
    obtain ⟨source, before, rfl, hbody, hmarked⟩ := propagate_eq_group_iff.mp hgroup
    exact ⟨source, before, hnode, hbody, hmarked⟩
  · rintro ⟨source, before, hnode, hbody, hmarked⟩
    exact ⟨_, hnode, propagate_eq_group_iff.mpr ⟨source, before, rfl, hbody, hmarked⟩⟩

end Doc

/-! ## What the printer comes to -/

namespace Printing

/-- Every pending document is a node of a document. -/
def Within (doc : Doc) (s : Printing) : Prop :=
  ∀ task ∈ s.tasks, ∃ path, doc.at? path = some task.doc

/-- A step puts children of the first document in its place. -/
theorem mem_children_of_step (style : Style) {written : Text} {column : Nat} {first task : Task}
    {rest : List Task} (hmem : task ∈ (step style ⟨written, column, first :: rest⟩).tasks) :
    task.doc ∈ first.doc.children ∨ task ∈ rest := by
  obtain ⟨indentation, mode, doc⟩ := first
  cases doc with
  | text content => exact .inr hmem
  | concat parts =>
      rcases List.mem_append.mp hmem with hspread | hlater
      · obtain ⟨part, hpart, rfl⟩ := List.mem_map.mp hspread
        exact .inl hpart
      · exact .inr hlater
  | indent body => exact (List.mem_cons.mp hmem).imp_left fun heq => by simp [heq, Doc.children]
  | group body marked =>
      exact (List.mem_cons.mp hmem).imp_left fun heq => by simp [heq, Doc.children]
  | line flat hard =>
      simp only [step] at hmem
      split at hmem <;> exact .inr hmem
  | ifBroken broken flat =>
      refine (List.mem_cons.mp hmem).imp_left fun heq => ?_
      cases mode <;> simp [heq, Doc.children, Mode.choose]

/-- **One step.** -/
theorem Within.step {style : Style} {doc : Doc} {s : Printing} (hwithin : s.Within doc) :
    (s.step style).Within doc := by
  obtain ⟨written, column, tasks⟩ := s
  cases tasks with
  | nil => exact hwithin
  | cons first rest =>
      intro task hmem
      rcases mem_children_of_step style hmem with hchild | hlater
      · obtain ⟨path, hpath⟩ := hwithin first List.mem_cons_self
        exact Doc.exists_at?_of_mem_children hpath hchild
      · exact hwithin task (List.mem_cons_of_mem first hlater)

/-- **The whole run.**  All that the printer comes to are nodes of the marked document. -/
theorem within_steps (style : Style) (doc : Doc) (n : Nat) :
    ((start doc).steps style n).Within doc.propagate.1 := by
  have hstart : (start doc).Within doc.propagate.1 := by
    intro task hmem
    obtain rfl := List.mem_singleton.mp hmem
    exact ⟨[], rfl⟩
  exact steps_keep (fun _ hwithin => hwithin.step) n hstart

/-- A group that the printer lays flat is an unmarked group of the document without a hard line. -/
theorem exists_group_of_laysFlat {style : Style} {doc body : Doc} {n : Nat} {rest : List Task}
    (hflat : ((start doc).steps style n).LaysFlat style body rest) :
    ∃ path source, doc.at? path = some (.group source false) ∧ body = source.propagate.1 ∧
      ¬ source.HasHardLine := by
  obtain ⟨indentation, mode, marked, htasks, hmode⟩ := hflat
  obtain ⟨path, hpath⟩ := within_steps style doc n _ (htasks ▸ List.mem_cons_self)
  obtain ⟨source, before, hsource, hbody, hmarked⟩ := Doc.at?_propagate_eq_group_iff.mp hpath
  have hunmarked : ¬ marked = true := by
    rintro rfl
    simp [groupMode] at hmode
  obtain ⟨hbefore, hsoft⟩ := not_or.mp (mt hmarked.mpr hunmarked)
  obtain rfl : before = false := Bool.eq_false_iff.mpr hbefore
  exact ⟨path, source, hsource, hbody, hsoft⟩

end Printing

/-- **Marking is exact.**  Marking a document changes nothing but marks.  A group of the result is
marked exactly when it was marked before or has a hard line, at whatever depth, on a path that does
not enter a flat alternative; the answer that comes with the result says whether the whole document
has one; and to mark the result again changes neither of the two.  Whatever its style, the printer
never lays a group with such a hard line flat. -/
theorem propagate_exact (doc : Doc) :
    doc.propagate.1.unmarked = doc.unmarked ∧
      (∀ path body marked, doc.propagate.1.at? path = some (.group body marked) ↔
        ∃ source before, doc.at? path = some (.group source before) ∧
          body = source.propagate.1 ∧ (marked = true ↔ before = true ∨ source.HasHardLine)) ∧
      (doc.propagate.2 = true ↔ doc.HasHardLine) ∧
      doc.propagate.1.propagate = doc.propagate ∧
      ∀ style n body rest, ((Printing.start doc).steps style n).LaysFlat style body rest →
        ¬ body.HasHardLine ∧ ∃ path source, doc.at? path = some (.group source false) ∧
          body = source.propagate.1 := by
  refine ⟨doc.unmarked_propagate, fun path body marked => Doc.at?_propagate_eq_group_iff,
    doc.propagate_snd_iff, doc.propagate_propagate, fun style n body rest hflat => ?_⟩
  obtain ⟨path, source, hsource, rfl, hsoft⟩ := Printing.exists_group_of_laysFlat hflat
  exact ⟨mt (Doc.hasHardLine_propagate_iff source).mp hsoft, path, source, hsource, rfl⟩

/-- A hard line in a flat alternative marks the group inside of the alternative, and not the one
around it. -/
example : (Doc.group (.ifBroken (.text "a") (.group .hardLine false)) false).propagate =
    (.group (.ifBroken (.text "a") (.group .hardLine true)) false, false) := rfl

end Exemplar
