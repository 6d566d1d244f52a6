import Exemplar.Proofs.Layout.SingleLine

/-!
# Wider layouts

With a larger width a single group is more likely to lie flat, but a whole document need not get
fewer lines: a group that now lies flat can push the next one in its line over the width.  The
documents of types are spared that, since broken groups part their contents by lines in such a way
that no line has two of them (`Doc.OnePerLine`).

So two layouts that differ in the width agree on the column of every group that both of them
decide, and where only one of them lays a group flat it is the wider one
(`Doc.OnePerLine.count_le`).  For a program this is the claim, statement by statement.  An
expression also loses the blanks around it, and only a broken union starts with a line that goes
(`Model.lines_of_wider_le`).
-/

namespace Exemplar

namespace Doc

/-! ## Groups and lines -/

/-- Laid out broken, a document has no two groups in one line, except for groups inside of groups.
The first flag says that the line has a group already, the second one that it has one after the
document. -/
inductive OnePerLine : Bool → Doc → Bool → Prop
  | text (crowded : Bool) (content : Text) : OnePerLine crowded (text content) crowded
  | line (crowded : Bool) (flat : Text) (hard : Bool) : OnePerLine crowded (line flat hard) false
  | indent {crowded after : Bool} {body : Doc} (hbody : OnePerLine crowded body after) :
      OnePerLine crowded (indent body) after
  | ifBroken {crowded after : Bool} {broken : Doc} (flat : Doc)
      (hbroken : OnePerLine crowded broken after) : OnePerLine crowded (ifBroken broken flat) after
  | group {after : Bool} {body : Doc} (hbody : OnePerLine false body after) :
      OnePerLine false (group body false) true
  | nil (crowded : Bool) : OnePerLine crowded (concat []) crowded
  | cons {crowded between after : Bool} {part : Doc} {rest : List Doc}
      (hpart : OnePerLine crowded part between) (hrest : OnePerLine between (concat rest) after) :
      OnePerLine crowded (concat (part :: rest)) after

/-- **Two layouts.**  The wider layout of a document has no more line feeds.  Both layouts end in
one column if no group was in the last line, and start in one column unless a group was in the
first one. -/
theorem OnePerLine.count_le {narrow wide : Style} (htab : wide.tab = narrow.tab)
    (hwidth : narrow.width.1 ≤ wide.width.1) {crowded after : Bool} {doc : Doc}
    (hdoc : OnePerLine crowded doc after) (hone : doc.OneLine) (depth : Nat) (follows : Text)
    {column other : Nat} (hcolumn : crowded = false → other = column) :
    (after = false → (doc.settle wide depth .broken follows other).2 =
        (doc.settle narrow depth .broken follows column).2) ∧
      ((doc.settle wide depth .broken follows other).1.write wide depth .broken).count '\n' ≤
        ((doc.settle narrow depth .broken follows column).1.write narrow depth .broken).count
          '\n' := by
  induction hdoc generalizing depth follows column other with
  | text crowded content =>
      exact ⟨fun hafter => congrArg (· + content.length) (hcolumn hafter), Nat.le_refl _⟩
  | line crowded flat hard => simp [settle, write, htab]
  | indent hbody ih => exact ih hone.2 (depth + 1) follows hcolumn
  | ifBroken flat hbroken ih => exact ih hone.2.1 depth follows hcolumn
  | @group after body hbody ih =>
      refine ⟨nofun, ?_⟩
      obtain rfl : other = column := hcolumn rfl
      have hinner : body.OneLine := hone.2
      rw [settle, settle]
      by_cases hflat : body.LiesFlat wide .broken follows other false
      · -- the wider layout takes one line
        have hline := newline_not_mem_flatText hinner
        rw [← (settle_flat wide depth follows other body hinner).1] at hline
        rw [if_pos hflat]
        exact Nat.le_trans (Nat.le_of_eq (List.count_eq_zero_of_not_mem hline)) (Nat.zero_le _)
      · have hbroken : ¬ body.LiesFlat narrow .broken follows other false := by
          rw [liesFlat_iff hinner] at hflat ⊢
          omega
        rw [if_neg hflat, if_neg hbroken]
        exact (ih hinner depth follows fun _ => rfl).2
  | nil crowded => exact ⟨hcolumn, Nat.le_refl _⟩
  | @cons crowded between after part rest hpart hrest ihPart ihRest =>
      obtain ⟨hfirst, hlater⟩ := oneLine_cons.mp hone
      obtain ⟨hmiddle, hcount⟩ := ihPart hfirst depth (aheadAll .broken follows rest) hcolumn
      obtain ⟨hlast, hrestCount⟩ := ihRest hlater depth follows hmiddle
      refine ⟨hlast, ?_⟩
      simp only [settle, settleAll, write, writeAll, List.count_append] at hrestCount ⊢
      exact Nat.add_le_add hcount hrestCount

/-- A larger width prints such a document on no more lines. -/
theorem OnePerLine.count_print_le {narrow wide : Style} (htab : wide.tab = narrow.tab)
    (hwidth : narrow.width.1 ≤ wide.width.1) {after : Bool} {doc : Doc}
    (hdoc : OnePerLine false doc after) (hone : doc.OneLine) :
    (doc.print wide).count '\n' ≤ (doc.print narrow).count '\n' := by
  rw [print_of_oneLine wide hone, print_of_oneLine narrow hone]
  exact (hdoc.count_le htab hwidth hone 0 [] fun _ => rfl).2

/-! ## Documents of types -/

/-- Documents with separators that end in a line. -/
theorem OnePerLine.joined {separator : Doc}
    (hseparator : ∀ crowded, OnePerLine crowded separator false) {docs : List Doc}
    (hdocs : ∀ doc ∈ docs, ∃ after, OnePerLine false doc after) :
    ∃ after, OnePerLine false (joined separator docs) after := by
  induction docs with
  | nil => exact ⟨false, .nil false⟩
  | cons doc rest ih =>
      obtain ⟨⟨between, hdoc⟩, hrest⟩ := List.forall_mem_cons.mp hdocs
      cases rest with
      | nil => exact ⟨between, .cons hdoc (.nil between)⟩
      | cons second later =>
          obtain ⟨after, hlater⟩ := ih hrest
          exact ⟨after, .cons hdoc (.cons (hseparator between) hlater)⟩

end Doc

open Doc in
/-- Laid out broken, a type has one group to a line. -/
theorem TypeScript.TypeDoc.onePerLine {terminator : Text} {sort : Name → Prop} {doc : Doc}
    (hdoc : TypeDoc terminator sort doc) : ∃ after, OnePerLine false doc after := by
  induction hdoc with
  | name | scalar | anyArray => exact ⟨false, .text false _⟩
  | array helement ih =>
      obtain ⟨after, hinner⟩ := ih
      have hinside : OnePerLine false (indentOf [softLine, _]) after :=
        .indent (.cons (.line ..) (.cons hinner (.nil after)))
      exact ⟨true, .group (.cons (.text ..) (.cons hinside (.cons (.line ..)
        (.cons (.text ..) (.nil false)))))⟩
  | @object fields hfields ih =>
      have hseparator : ∀ crowded, OnePerLine crowded
          (concat [.ifBroken (.text terminator) ";", spaceLine]) false := fun crowded =>
        .cons (.ifBroken _ (.text ..)) (.cons (.line crowded ..) (.nil false))
      have hdocs : ∀ doc ∈ fields.map fun field => fieldDoc field.1 field.2,
          ∃ after, OnePerLine false doc after := by
        refine List.forall_mem_map.mpr fun field hfield => ?_
        obtain ⟨after, hvalue⟩ := ih field hfield
        exact ⟨after, .cons (.text ..) (.cons (.text ..) (.cons (.text ..)
          (.cons hvalue (.nil after))))⟩
      obtain ⟨after, hjoined⟩ := OnePerLine.joined hseparator hdocs
      unfold objectDoc
      split
      · exact ⟨false, .text false _⟩
      · have hinside : OnePerLine false (indentOf [spaceLine, _]) after :=
          .indent (.cons (.line ..) (.cons hjoined (.nil after)))
        exact ⟨true, .group (.cons (.text ..) (.cons hinside (.cons (.ifBroken _ (.text ..))
          (.cons (.line ..) (.cons (.text ..) (.nil false))))))⟩
  | @union docs hdocs ih =>
      have hseparator : ∀ crowded, OnePerLine crowded (concat [spaceLine, "| "]) false :=
        fun crowded => .cons (.line crowded ..) (.cons (.text ..) (.nil false))
      obtain ⟨after, hjoined⟩ := OnePerLine.joined hseparator ih
      exact ⟨true, .group (.cons (.indent (.cons (.line ..) (.cons (.ifBroken _ (.text ..))
        (.cons hjoined (.nil after))))) (.nil after))⟩

open Doc in
/-- Laid out broken, a validator has one group to a line. -/
theorem PropTypes.TypeDoc.onePerLine {sort : Name → Prop} {doc : Doc}
    (hdoc : TypeDoc sort doc) : ∃ after, OnePerLine false doc after := by
  have hseparator : ∀ crowded, OnePerLine crowded (concat [",", spaceLine]) false :=
    fun crowded => .cons (.text ..) (.cons (.line crowded ..) (.nil false))
  induction hdoc with
  | name | scalar | anyArray => exact ⟨false, .text false _⟩
  | values exprs =>
      exact ⟨false, .cons (.text ..) (.cons (.text ..) (.cons (.text ..) (.nil false)))⟩
  | array helement ih =>
      obtain ⟨after, hinner⟩ := ih
      have hinside : OnePerLine false (indentOf [softLine, _]) after :=
        .indent (.cons (.line ..) (.cons hinner (.nil after)))
      exact ⟨true, .group (.cons (.text ..) (.cons hinside (.cons (.line ..)
        (.cons (.text ..) (.nil false)))))⟩
  | @object fields hfields ih =>
      have hdocs : ∀ doc ∈ fields.map fun field => fieldDoc field.1 field.2,
          ∃ after, OnePerLine false doc after := by
        refine List.forall_mem_map.mpr fun field hfield => ?_
        obtain ⟨after, hvalue⟩ := ih field hfield
        exact ⟨after, .cons (.text ..) (.cons (.text ..) (.cons hvalue
          (.cons (.text ..) (.nil after))))⟩
      obtain ⟨after, hjoined⟩ := OnePerLine.joined hseparator hdocs
      unfold objectDoc
      split
      · exact ⟨false, .text false _⟩
      · have hinside : OnePerLine false (indentOf [spaceLine, _]) after :=
          .indent (.cons (.line ..) (.cons hjoined (.nil after)))
        have hgroup : OnePerLine false (groupOf ["\x7b", _, .ifBroken "," "", spaceLine, "\x7d"])
            true :=
          .group (.cons (.text ..) (.cons hinside (.cons (.ifBroken _ (.text ..))
            (.cons (.line ..) (.cons (.text ..) (.nil false))))))
        exact ⟨true, .cons (.text ..) (.cons hgroup (.cons (.text ..) (.nil true)))⟩
  | @choice docs hdocs ih =>
      obtain ⟨after, hjoined⟩ := OnePerLine.joined hseparator ih
      have hinside : OnePerLine false (indentOf [softLine, _]) after :=
        .indent (.cons (.line ..) (.cons hjoined (.nil after)))
      exact ⟨true, .group (.cons (.text ..) (.cons hinside (.cons (.ifBroken _ (.text ..))
        (.cons (.line ..) (.cons (.text ..) (.nil false))))))⟩

/-- In both dialects a type that is laid out broken has one group to a line. -/
theorem TypeExpr.onePerLine_doc (dialect : Dialect) (style : Style) (expr : TypeExpr) :
    ∃ after, Doc.OnePerLine false (expr.doc dialect style) after := by
  cases dialect with
  | typeScript =>
      have hdoc : TypeScript.TypeDoc style.terminator (fun _ => True) _ :=
        TypeScript.typeDoc_doc expr fun _ _ => trivial
      exact hdoc.onePerLine
  | propTypes =>
      have hdoc : PropTypes.TypeDoc (fun _ => True) _ :=
        PropTypes.typeDoc_doc expr fun _ _ => trivial
      exact hdoc.onePerLine

/-! ## Programs -/

/-- A declaration puts no other group into the line of its body. -/
theorem Dialect.onePerLine_declaration (dialect : Dialect) (name : Name) {body : Doc}
    (hbody : ∃ after, Doc.OnePerLine false body after) :
    ∃ after, Doc.OnePerLine false (dialect.declaration name body) after := by
  obtain ⟨after, hbody⟩ := hbody
  cases dialect <;>
    exact ⟨after, .cons (.text ..) (.cons (.text ..) (.cons (.text ..)
      (.cons hbody (.nil after))))⟩

/-- The preamble has no group. -/
theorem Dialect.onePerLine_preamble (dialect : Dialect) :
    ∀ statement ∈ dialect.preamble,
      statement.OneLine ∧ ∃ after, Doc.OnePerLine false statement after := by
  cases dialect with
  | typeScript => nofun
  | propTypes =>
      refine List.forall_mem_cons.mpr ⟨⟨?_, false, .text false _⟩, nofun⟩
      exact Doc.oneLine_text.mpr (by decide)

/-- The wider layout of a statement has no more line feeds. -/
theorem Doc.OnePerLine.count_layoutStatement_le {style : Style} {width : Bounded widthLimits}
    (hwidth : style.width.1 ≤ width.1) {statement : Doc} {after : Bool}
    (hstatement : OnePerLine false statement after) (hone : statement.OneLine) :
    (statement.layoutStatement { style with width := width }).count '\n' ≤
      (statement.layoutStatement style).count '\n' := by
  have hterminated : (concat [statement, .text style.terminator]).OneLine :=
    oneLine_concat.mpr (by simp [hone, oneLine_text, newline_not_mem_terminator])
  have hgroups : OnePerLine false (concat [statement, .text style.terminator]) after :=
    .cons hstatement (.cons (.text ..) (.nil after))
  have htab : ({ style with width := width } : Style).tab = style.tab := rfl
  rw [layoutStatement_eq, layoutStatement_eq, Text.count_trimLines, Text.count_trimLines]
  exact hgroups.count_print_le htab hwidth hterminated

/-- Texts that have no more line feeds one by one have no more of them together. -/
theorem Text.count_unlines_le {α : Type} {items : List α} {write other : α → Text}
    (hall : ∀ item ∈ items, (other item).count '\n' ≤ (write item).count '\n') :
    (unlines (items.map other)).count '\n' ≤ (unlines (items.map write)).count '\n' := by
  induction items with
  | nil => exact Nat.le_refl _
  | cons item rest ih =>
      obtain ⟨hitem, hrest⟩ := List.forall_mem_cons.mp hall
      cases rest with
      | nil => simpa only [List.map_cons, List.map_nil, unlines_singleton] using hitem
      | cons second later =>
          have hlater := ih hrest
          simp only [List.map_cons, unlines_cons_cons, List.count_append,
            List.count_cons_self] at hlater ⊢
          omega

/-! ## Expressions -/

namespace Text

/-- A line feed in front is kept. -/
theorem trimLines_cons_newline (rest : Text) : trimLines ('\n' :: rest) = '\n' :: trimLines rest :=
  trimLines_append_newline [] rest

/-- A character stays at the front of its line, unless it is a blank in front of nothing. -/
theorem trimLines_cons_or (c : Char) (rest : Text) :
    trimLines (c :: rest) = c :: trimLines rest ∨
      isBlank c = true ∧ trimLines (c :: rest) = trimLines rest := by
  by_cases hbreak : c = '\n'
  · subst hbreak
    exact .inl (trimLines_cons_newline rest)
  · simp only [trimLines, lines, parts, firstPart, hbreak, if_false, List.map_cons, trimEnd_cons]
    split
    case isTrue hend => exact .inr ⟨hend.2, by rw [hend.1]⟩
    case isFalse => exact .inl (unlines_cons_char c _ _)

/-- Blanks in front of a text can be removed before or after those at the ends of the lines. -/
theorem dropWhile_trimLines (text : Text) :
    (trimLines text).dropWhile isBlank = trimLines (text.dropWhile isBlank) := by
  induction text with
  | nil => rfl
  | cons c rest ih =>
      cases hblank : isBlank c with
      | true =>
          rw [List.dropWhile_cons_of_pos hblank, ← ih]
          rcases trimLines_cons_or c rest with hkept | ⟨-, hdropped⟩
          · rw [hkept, List.dropWhile_cons_of_pos hblank]
          · rw [hdropped]
      | false =>
          have hsolid : ¬ isBlank c = true := by simp [hblank]
          rcases trimLines_cons_or c rest with hkept | ⟨hdropped, -⟩
          · rw [List.dropWhile_cons_of_neg hsolid, hkept, List.dropWhile_cons_of_neg hsolid]
          · exact absurd hdropped hsolid

/-- The last character of a text is no blank. -/
def EndsSolid (text : Text) : Prop :=
  ∃ before last, text = before ++ [last] ∧ isBlank last = false

/-- Only the end of a text counts for how it ends. -/
theorem EndsSolid.append (before : Text) {text : Text} (htext : EndsSolid text) :
    EndsSolid (before ++ text) := by
  obtain ⟨middle, last, rfl, hlast⟩ := htext
  exact ⟨before ++ middle, last, (List.append_assoc ..).symm, hlast⟩

/-- To trim lines keeps a last character that is no blank. -/
theorem EndsSolid.trimLines {text : Text} (htext : EndsSolid text) : EndsSolid text.trimLines := by
  obtain ⟨before, last, rfl, hlast⟩ := htext
  induction before with
  | nil =>
      rcases trimLines_cons_or last [] with hkept | ⟨hblank, -⟩
      · exact ⟨[], last, hkept, hlast⟩
      · simp [hlast] at hblank
  | cons c rest ih =>
      rcases trimLines_cons_or c (rest ++ [last]) with hkept | ⟨-, hdropped⟩
      · rw [List.cons_append, hkept]
        exact ih.append [c]
      · rwa [List.cons_append, hdropped]

/-- To leave out blanks in front keeps the end. -/
theorem EndsSolid.dropWhile {text : Text} (htext : EndsSolid text) :
    EndsSolid (text.dropWhile isBlank) := by
  obtain ⟨before, last, rfl, hlast⟩ := htext
  induction before with
  | nil => exact ⟨[], last, List.dropWhile_cons_of_neg (by simp [hlast]), hlast⟩
  | cons c rest ih =>
      rw [List.cons_append]
      cases hblank : isBlank c with
      | true => rwa [List.dropWhile_cons_of_pos hblank]
      | false =>
          rw [List.dropWhile_cons_of_neg (by simp [hblank])]
          exact ⟨c :: rest, last, rfl, hlast⟩

/-- There is nothing to trim at the end of such a text. -/
theorem EndsSolid.trimEnd_eq {text : Text} (htext : EndsSolid text) :
    trimEnd isBlank text = text := by
  obtain ⟨before, last, rfl, hlast⟩ := htext
  simp [trimEnd, hlast]

end Text

/-! ### Where expressions begin and end -/

namespace Doc

/-- A document begins with a text that has no blank in front. -/
inductive Opens : Doc → Prop
  | text {c : Char} {rest : Text} (hsolid : Text.isBlank c = false) : Opens (text (c :: rest))
  | group {body : Doc} {marked : Bool} (hbody : Opens body) : Opens (group body marked)
  | concat {part : Doc} {rest : List Doc} (hpart : Opens part) : Opens (concat (part :: rest))

/-- A document ends in a text that has no blank at its end. -/
inductive Closes : Doc → Prop
  | text {content : Text} (hsolid : content.EndsSolid) : Closes (text content)
  | indent {body : Doc} (hbody : Closes body) : Closes (indent body)
  | group {body : Doc} {marked : Bool} (hbody : Closes body) : Closes (group body marked)
  | last {part : Doc} (hpart : Closes part) : Closes (concat [part])
  | later (part : Doc) {rest : List Doc} (hrest : Closes (concat rest)) :
      Closes (concat (part :: rest))

/-- There is nothing to trim in front of such a document. -/
theorem Opens.dropWhile_eq {doc : Doc} (hdoc : doc.Opens) {laid : Text} (hlaid : doc.Lays laid) :
    laid.dropWhile Text.isBlank = laid := by
  have hfirst : ∃ c rest, laid = c :: rest ∧ Text.isBlank c = false := by
    induction hdoc generalizing laid with
    | text hsolid => exact ⟨_, _, hlaid, hsolid⟩
    | group hbody ih => exact ih hlaid
    | concat hpart ih =>
        obtain ⟨first, later, hfirst, -, rfl⟩ := hlaid
        obtain ⟨c, rest, rfl, hsolid⟩ := ih hfirst
        exact ⟨c, rest ++ later, rfl, hsolid⟩
  obtain ⟨c, rest, rfl, hsolid⟩ := hfirst
  exact List.dropWhile_cons_of_neg (by simp [hsolid])

/-- Every layout of such a document ends in no blank. -/
theorem Closes.endsSolid {doc : Doc} (hdoc : doc.Closes) {laid : Text} (hlaid : doc.Lays laid) :
    laid.EndsSolid := by
  induction hdoc generalizing laid with
  | @text content hsolid =>
      obtain rfl : laid = content := hlaid
      exact hsolid
  | indent hbody ih => exact ih hlaid
  | group hbody ih => exact ih hlaid
  | last hpart ih =>
      obtain ⟨_, _, hlast, rfl, rfl⟩ := hlaid
      rw [List.append_nil]
      exact ih hlast
  | later part hrest ih =>
      obtain ⟨first, later, -, hlater, rfl⟩ := hlaid
      exact (ih hlater).append first

/-- Separated documents end as the last one does. -/
theorem Closes.joined {separator : Doc} {docs : List Doc} (hsome : docs ≠ [])
    (hdocs : ∀ doc ∈ docs, doc.Closes) : (joined separator docs).Closes := by
  induction docs with
  | nil => exact absurd rfl hsome
  | cons doc rest ih =>
      obtain ⟨hdoc, hrest⟩ := List.forall_mem_cons.mp hdocs
      cases rest with
      | nil => exact .last hdoc
      | cons second later => exact .later doc (.later separator (ih (List.cons_ne_nil _ _) hrest))

/-- Only the blanks in front of an expression can take lines away. -/
theorem count_layoutExpression (style : Style) {doc : Doc}
    (hdoc : doc.Closes) : (doc.layoutExpression style).count '\n' =
      ((doc.print style).dropWhile Text.isBlank).count '\n' := by
  have hexpression : doc.layoutExpression style =
      Text.trimEnd Text.isBlank ((doc.print style).trimLines.dropWhile Text.isBlank) := rfl
  have hsolid := hdoc.endsSolid (doc.print_lays style)
  rw [hexpression, Text.dropWhile_trimLines, hsolid.dropWhile.trimLines.trimEnd_eq,
    Text.count_trimLines]

/-- Where two layouts of an expression begin and end alike, the wider one has no more lines. -/
theorem count_layoutExpression_le {style : Style} {width : Bounded widthLimits}
    (hwidth : style.width.1 ≤ width.1) {doc : Doc} (hopens : doc.Opens) (hcloses : doc.Closes)
    {after : Bool} (hgroups : OnePerLine false doc after) (hone : doc.OneLine) :
    (doc.layoutExpression { style with width := width }).count '\n' ≤
      (doc.layoutExpression style).count '\n' := by
  have htab : ({ style with width := width } : Style).tab = style.tab := rfl
  rw [count_layoutExpression _ hcloses, count_layoutExpression _ hcloses,
    hopens.dropWhile_eq (doc.print_lays _), hopens.dropWhile_eq (doc.print_lays _)]
  exact hgroups.count_print_le htab hwidth hone

/-- A broken union begins with a line feed, and with a bar in the next line. -/
theorem print_unionDoc {style : Style} {docs : List Doc}
    (hone : (TypeScript.unionDoc docs).OneLine)
    (hbreak : '\n' ∈ (TypeScript.unionDoc docs).print style) :
    ∃ rest, (TypeScript.unionDoc docs).print style =
      '\n' :: (List.replicate style.tab.1 ' ' ++ '|' :: rest) := by
  rw [print_of_oneLine style hone] at hbreak ⊢
  rw [settled, TypeScript.unionDoc, groupOf, settle] at hbreak ⊢
  split
  case isTrue hflat =>
      rw [if_pos hflat] at hbreak
      have hline := newline_not_mem_flatText hone.2
      rw [← (settle_flat style 0 [] 0 _ hone.2).1] at hline
      exact absurd hbreak hline
  case isFalse =>
      have hbar : ("| " : Text) = ['|', ' '] := rfl
      simp [settle, settleAll, write, writeAll, indentOf, softLine, hbar]

/-- The wider layout of a union has no more lines: the line that is removed in front of it stands
there in both layouts, or the wider one takes one line. -/
theorem count_layoutExpression_unionDoc_le {style : Style} {width : Bounded widthLimits}
    (hwidth : style.width.1 ≤ width.1) {docs : List Doc} (hsome : docs ≠ [])
    (hdocs : ∀ doc ∈ docs, doc.Closes) {after : Bool}
    (hgroups : OnePerLine false (TypeScript.unionDoc docs) after)
    (hone : (TypeScript.unionDoc docs).OneLine) :
    ((TypeScript.unionDoc docs).layoutExpression { style with width := width }).count '\n' ≤
      ((TypeScript.unionDoc docs).layoutExpression style).count '\n' := by
  have htab : ({ style with width := width } : Style).tab = style.tab := rfl
  have hframed : (TypeScript.unionDoc docs).Framed := .group (.inl (.inl trivial))
  have hcloses : (TypeScript.unionDoc docs).Closes :=
    .group (.last (.indent (.later _ (.later _ (.last (.joined hsome hdocs))))))
  have hflat (style : Style) : '\n' ∉ (TypeScript.unionDoc docs).print style ↔
      0 + (TypeScript.unionDoc docs).flatText.length + 0 ≤ style.width.1 := by
    rw [print_of_oneLine style hone]
    exact hframed.newline_not_mem_iff hone style 0 [] 0
  have hcount (style : Style) (hbreak : '\n' ∈ (TypeScript.unionDoc docs).print style) :
      ((TypeScript.unionDoc docs).print style).count '\n' =
        (((TypeScript.unionDoc docs).print style).dropWhile Text.isBlank).count '\n' + 1 := by
    obtain ⟨rest, hprint⟩ := print_unionDoc hone hbreak
    have hspaces : ∀ c ∈ List.replicate style.tab.1 ' ', Text.isBlank c = true := by
      intro c hc
      rw [(List.mem_replicate.mp hc).2]
      rfl
    rw [hprint, List.dropWhile_cons_of_pos (by decide), List.dropWhile_append_of_pos hspaces,
      List.dropWhile_cons_of_neg (by decide), List.count_cons_self, List.count_append,
      List.count_eq_zero_of_not_mem (by simp), Nat.zero_add]
  rw [count_layoutExpression _ hcloses, count_layoutExpression _ hcloses]
  by_cases hwide : '\n' ∈ (TypeScript.unionDoc docs).print { style with width := width }
  · have hnarrow : '\n' ∈ (TypeScript.unionDoc docs).print style := by
      by_contra hline
      refine (hflat _).not.mp (not_not_intro hwide) ?_
      exact Nat.le_trans ((hflat style).mp hline) hwidth
    have hle := hgroups.count_print_le htab hwidth hone
    rw [hcount _ hwide, hcount _ hnarrow] at hle
    exact Nat.le_of_succ_le_succ hle
  · have hnone : '\n' ∉ ((TypeScript.unionDoc docs).print
        { style with width := width }).dropWhile Text.isBlank :=
      fun hmem => hwide ((List.dropWhile_sublist _).mem hmem)
    exact Nat.le_trans (Nat.le_of_eq (List.count_eq_zero_of_not_mem hnone)) (Nat.zero_le _)

end Doc

/-! ### Types at keys -/

/-- How a text ends can be computed. -/
theorem Text.endsSolid_of_getLast? {text : Text}
    (hlast : text.getLast?.any (fun c => !isBlank c) = true) : text.EndsSolid := by
  cases hc : text.getLast? with
  | none => simp [hc] at hlast
  | some c =>
      obtain ⟨before, rfl⟩ := List.getLast?_eq_some_iff.mp hc
      exact ⟨before, c, rfl, by simpa using hlast⟩

namespace TypeExpr

/-- A type of one kind of values, neither a name nor a union. -/
def IsOfKind : TypeExpr → Prop
  | reference _ => False
  | union _ => False
  | _ => True

open Doc

/-- A type of one kind begins with a text, without a blank. -/
theorem IsOfKind.opens {expr : TypeExpr} (hexpr : expr.IsOfKind) (dialect : Dialect)
    (style : Style) : (expr.doc dialect style).Opens := by
  cases expr with
  | reference name => exact hexpr.elim
  | union alternatives => exact hexpr.elim
  | scalar kind => cases dialect <;> cases kind <;> exact .text (by decide)
  | anyArray => cases dialect <;> exact .text (by decide)
  | array element => cases dialect <;> exact .group (.concat (.text (by decide)))
  | object fields =>
      cases dialect with
      | typeScript =>
          rw [TypeExpr.doc, TypeScript.doc, TypeScript.objectDoc]
          split
          · exact .text (by decide)
          · exact .group (.concat (.text (by decide)))
      | propTypes =>
          rw [TypeExpr.doc, PropTypes.doc, PropTypes.objectDoc]
          split
          · exact .text (by decide)
          · exact .concat (.text (by decide))

/-- A type of one kind ends in a text, without a blank. -/
theorem IsOfKind.closes {expr : TypeExpr} (hexpr : expr.IsOfKind) (dialect : Dialect)
    (style : Style) : (expr.doc dialect style).Closes := by
  have htext {content : Text} (hlast : content.getLast?.any (fun c => !Text.isBlank c) = true) :
      (Doc.text content).Closes := .text (Text.endsSolid_of_getLast? hlast)
  cases expr with
  | reference name => exact hexpr.elim
  | union alternatives => exact hexpr.elim
  | scalar kind => cases dialect <;> cases kind <;> exact htext (by decide)
  | anyArray => cases dialect <;> exact htext (by decide)
  | array element =>
      cases dialect <;>
        exact .group (.later _ (.later _ (.later _ (.last (htext (by decide))))))
  | object fields =>
      cases dialect with
      | typeScript =>
          rw [TypeExpr.doc, TypeScript.doc, TypeScript.objectDoc]
          split
          · exact htext (by decide)
          · exact .group (.later _ (.later _ (.later _ (.later _ (.last (htext (by decide)))))))
      | propTypes =>
          rw [TypeExpr.doc, PropTypes.doc, PropTypes.objectDoc]
          split
          · exact htext (by decide)
          · exact .later _ (.later _ (.last (htext (by decide))))

/-- A union of prop-types begins and ends in words or brackets. -/
theorem opens_closes_union {alternatives : List TypeExpr}
    (hall : ∀ expr ∈ alternatives, expr.IsOfKind) (style : Style) :
    ((union alternatives).doc .propTypes style).Opens ∧
      ((union alternatives).doc .propTypes style).Closes := by
  have hchoices : ∀ doc ∈ PropTypes.choiceDocs alternatives, doc.Opens ∧ doc.Closes := by
    rw [PropTypes.choiceDocs_eq_map]
    refine List.forall_mem_map.mpr fun expr hexpr => ?_
    have hkind := hall expr (List.mem_of_mem_filter hexpr)
    exact ⟨hkind.opens .propTypes style, hkind.closes .propTypes style⟩
  have hbrackets : (Doc.text "])").Closes := .text (Text.endsSolid_of_getLast? (by decide))
  rw [TypeExpr.doc, PropTypes.doc]
  generalize PropTypes.choiceDocs alternatives = docs at hchoices
  cases docs with
  | nil => exact ⟨.concat (.text (by decide)), .later _ (.later _ (.last hbrackets))⟩
  | cons doc rest =>
      cases rest with
      | nil => exact hchoices doc List.mem_cons_self
      | cons second later =>
          exact ⟨.group (.concat (.text (by decide))),
            .group (.later _ (.later _ (.later _ (.later _ (.last hbrackets)))))⟩

/-- The wider layout of a type at a key has no more lines. -/
theorem count_layoutExpression_le {style : Style} {width : Bounded widthLimits}
    (hwidth : style.width.1 ≤ width.1) (dialect : Dialect) {alternatives : List TypeExpr}
    (hall : ∀ expr ∈ alternatives, expr.IsOfKind)
    (hnames : ∀ name ∈ (ofAlternatives alternatives).references, '\n' ∉ name) :
    (((ofAlternatives alternatives).doc dialect style).layoutExpression
        { style with width := width }).count '\n' ≤
      (((ofAlternatives alternatives).doc dialect style).layoutExpression style).count '\n' := by
  have hone := oneLine_doc dialect style hnames
  obtain ⟨after, hgroups⟩ := onePerLine_doc dialect style (ofAlternatives alternatives)
  have hsingle (expr : TypeExpr) (hexpr : expr.IsOfKind)
      (hsame : ofAlternatives alternatives = expr) :
      (((ofAlternatives alternatives).doc dialect style).layoutExpression
          { style with width := width }).count '\n' ≤
        (((ofAlternatives alternatives).doc dialect style).layoutExpression style).count '\n' := by
    subst hsame
    exact Doc.count_layoutExpression_le hwidth (hexpr.opens dialect style)
      (hexpr.closes dialect style) hgroups hone
  match alternatives with
  | [] => exact hsingle any trivial rfl
  | [expr] => exact hsingle expr (hall expr List.mem_cons_self) rfl
  | first :: second :: later =>
      cases dialect with
      | typeScript =>
          refine count_layoutExpression_unionDoc_le hwidth (List.cons_ne_nil _ _) ?_ hgroups hone
          have hdocs : ∀ doc ∈ (first :: second :: later).map (TypeScript.doc style.terminator),
              doc.Closes :=
            List.forall_mem_map.mpr fun expr hexpr => (hall expr hexpr).closes .typeScript style
          rwa [← TypeScript.docs_eq_map] at hdocs
      | propTypes =>
          obtain ⟨hopens, hcloses⟩ := opens_closes_union hall style
          exact Doc.count_layoutExpression_le hwidth hopens hcloses hgroups hone

end TypeExpr

namespace Model

variable {model : Model}

/-- What is spelled out for a kind is a type of one kind. -/
theorem SpellsKind.isOfKind {refers : Keypath → TypeExpr → Prop} {kind : Kind} {shape : Shape}
    {expr : TypeExpr} (hspells : model.SpellsKind refers kind shape expr) : expr.IsOfKind := by
  cases hspells <;> trivial

/-- An expression at a key is put together from types of one kind each. -/
theorem exists_alternatives {inlined : Bool} {key : Keypath} {expr : TypeExpr}
    (hexpr : model.expand? inlined key = some expr) :
    ∃ alternatives, expr = .ofAlternatives alternatives ∧
      ∀ alternative ∈ alternatives, alternative.IsOfKind := by
  obtain ⟨less, -, alternatives, hall, rfl⟩ := exists_succ_of_expandWithin hexpr
  refine ⟨alternatives, rfl, fun alternative hmem => ?_⟩
  obtain ⟨entry, -, hspells⟩ := exists_of_mem_right hall hmem
  exact hspells.isOfKind

/-- The documents of a dialect do not depend on the width. -/
theorem doc_widened (dialect : Dialect) (style : Style) (width : Bounded widthLimits)
    (expr : TypeExpr) :
    expr.doc dialect { style with width := width } = expr.doc dialect style := by
  cases dialect <;> rfl

/-- A larger width gives a program of no more lines. -/
theorem lines_of_wider_named {style : Style} {width : Bounded widthLimits}
    (hguarded : model.Guarded) (hnames : ∀ name ∈ model.typeNames, '\n' ∉ name)
    (dialect : Dialect) (hwidth : style.width.1 ≤ width.1) :
    ∃ narrow wide, model.renderNamed? dialect style = some narrow ∧
      model.renderNamed? dialect { style with width := width } = some wide ∧
      wide.count '\n' ≤ narrow.count '\n' := by
  obtain ⟨declarations, hdeclarations, hnarrow, hall⟩ := exists_statements hguarded dialect style
  obtain ⟨others, hothers, hwide, -⟩ :=
    exists_statements hguarded dialect { style with width := width }
  have hsame : model.declarations? dialect { style with width := width } =
      model.declarations? dialect style := by
    cases dialect <;> rfl
  obtain rfl : declarations = others :=
    Option.some.inj (hdeclarations.symm.trans (hsame.symm.trans hothers))
  refine ⟨_, _, hnarrow, hwide, ?_⟩
  by_cases hnone : declarations = []
  · simp [hnone]
  rw [if_neg hnone, if_neg hnone, List.count_append, List.count_append]
  refine Nat.add_le_add_right (Text.count_unlines_le fun statement hstatement => ?_) _
  rcases List.mem_append.mp hstatement with hbefore | hdeclaration
  · obtain ⟨hone, after, hgroups⟩ := dialect.onePerLine_preamble statement hbefore
    exact hgroups.count_layoutStatement_le hwidth hone
  · obtain ⟨name, expr, hname, hmentions, rfl⟩ := hall statement hdeclaration
    have hone : (expr.doc dialect style).OneLine := TypeExpr.oneLine_doc dialect style
      fun mention hmention => hnames mention (hmentions mention hmention)
    obtain ⟨after, hgroups⟩ :=
      dialect.onePerLine_declaration name (expr.onePerLine_doc dialect style)
    exact hgroups.count_layoutStatement_le hwidth
      (dialect.oneLine_declaration (hnames name hname) hone)

/-- A larger width gives an expression of no more lines. -/
theorem lines_of_wider_inlined {style : Style} {width : Bounded widthLimits}
    (hguarded : model.Guarded) (hnames : ∀ name ∈ model.typeNames, '\n' ∉ name)
    (dialect : Dialect) (root : Option Keypath) (hwidth : style.width.1 ≤ width.1) :
    ∃ narrow wide, model.renderInlined? dialect style root = some narrow ∧
      model.renderInlined? dialect { style with width := width } root = some wide ∧
      wide.count '\n' ≤ narrow.count '\n' := by
  rcases renderInlined?_cases hguarded dialect root with hnothing | ⟨key, expr, hexpr, htext⟩
  · exact ⟨[], [], hnothing _, hnothing _, Nat.le_refl _⟩
  · have hline : ∀ name ∈ expr.references, '\n' ∉ name := fun name hname =>
      hnames name (mem_typeNames_of_mem_references hexpr name hname)
    obtain ⟨alternatives, rfl, hall⟩ := exists_alternatives hexpr
    refine ⟨_, _, htext _, htext _, ?_⟩
    rw [doc_widened]
    exact TypeExpr.count_layoutExpression_le hwidth dialect hall hline

/-- **Wider is not longer.**  In a model in which every cycle of fields passes through a named type
and no type name has a line feed, a larger width never gives a text of more lines: neither for
programs nor for the expression of any root, in either dialect and with any other settings. -/
theorem lines_of_wider_le (hguarded : model.Guarded)
    (hnames : ∀ name ∈ model.typeNames, '\n' ∉ name) (dialect : Dialect) (options : RenderOptions)
    {width : Bounded widthLimits} (hwidth : options.style.width.1 ≤ width.1) :
    ∃ narrow wide, model.render? dialect options = some narrow ∧
      model.render? dialect { options with style := { options.style with width := width } } =
        some wide ∧
      (Text.lines wide).length ≤ (Text.lines narrow).length := by
  obtain ⟨inlined, root, style⟩ := options
  simp only [Text.length_lines, Nat.add_le_add_iff_right]
  cases inlined with
  | true => exact lines_of_wider_inlined hguarded hnames dialect root hwidth
  | false => exact lines_of_wider_named hguarded hnames dialect hwidth

/-- Persons spelled out at widths 20 and 60. -/
theorem lines_of_wider_le_guild :
    let model := (Builder.afterAll {} guild).model
    let narrow : RenderOptions :=
      { inlined := true, root := some "Person", style := { width := ⟨20, by decide⟩ } }
    let wide : RenderOptions := { narrow with style := { width := ⟨60, by decide⟩ } }
    model.Guarded ∧ (∀ name ∈ model.typeNames, '\n' ∉ name) ∧
      narrow.style.width.1 ≤ wide.style.width.1 ∧
      ∃ text other, model.render? .typeScript narrow = some text ∧
        model.render? .typeScript wide = some other ∧
        (Text.lines other).length ≤ (Text.lines text).length := by
  intro model narrow wide
  have hguarded : model.Guarded := guarded_of_rank List.length (by decide +kernel)
  have hnames : ∀ name ∈ model.typeNames, '\n' ∉ name := by decide +kernel
  have hwidth : narrow.style.width.1 ≤ wide.style.width.1 := by decide
  exact ⟨hguarded, hnames, hwidth, lines_of_wider_le hguarded hnames .typeScript narrow hwidth⟩

end Model

end Exemplar
