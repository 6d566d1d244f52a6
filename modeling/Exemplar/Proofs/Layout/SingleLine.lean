import Exemplar.Proofs.Layout.Types

/-!
# Declarations of one line

The printer decides one group after the other, each by the text up to the next line break.  A
declaration is a group with texts around it, or it has no line at all.  The text ahead of such a
group is the whole declaration laid flat, and broken the group starts a new line at once.  So a
declaration is written in one line exactly if it fits into one, or cannot be broken
(`Model.single_line_iff_fits`).
-/

namespace Exemplar

namespace Doc

/-! ## Documents without lines -/

/-- A document has no line in it. -/
def Lineless : Doc → Prop :=
  Everywhere fun
    | line _ _ => False
    | _ => True

mutual

/-- Without a line there is nothing to break. -/
theorem newline_not_mem_of_lineless (doc : Doc) (hlineless : doc.Lineless) (hdoc : doc.OneLine)
    {laid : Text} (hlaid : doc.Lays laid) : '\n' ∉ laid := by
  cases doc with
  | text content =>
      obtain rfl : laid = content := hlaid
      exact hdoc
  | line flat hard => exact hlineless.elim
  | concat parts => exact newline_not_mem_of_linelessAll parts hlineless hdoc hlaid
  | indent body => exact newline_not_mem_of_lineless body hlineless.2 hdoc.2 hlaid
  | group body marked => exact newline_not_mem_of_lineless body hlineless.2 hdoc.2 hlaid
  | ifBroken broken flat =>
      rcases hlaid with hbroken | hflat
      · exact newline_not_mem_of_lineless broken hlineless.2.1 hdoc.2.1 hbroken
      · exact newline_not_mem_of_lineless flat hlineless.2.2 hdoc.2.2 hflat

/-- Without a line in any of them several documents break nowhere. -/
theorem newline_not_mem_of_linelessAll (docs : List Doc) (hlineless : (concat docs).Lineless)
    (hdocs : (concat docs).OneLine) {laid : Text} (hlaid : LaysAll docs laid) : '\n' ∉ laid := by
  cases docs with
  | nil =>
      obtain rfl : laid = [] := hlaid
      exact List.not_mem_nil
  | cons doc rest =>
      obtain ⟨first, later, hfirst, hlater, rfl⟩ := hlaid
      obtain ⟨-, hone, hrest⟩ := hdocs
      have hhere := newline_not_mem_of_lineless doc hlineless.2.1 hone hfirst
      have hthere := newline_not_mem_of_linelessAll rest ⟨trivial, hlineless.2.2⟩
        ⟨trivial, hrest⟩ hlater
      simpa using ⟨hhere, hthere⟩

end

/-! ## Documents that are a group, but for texts around it -/

mutual

/-- Laid out broken, a document starts a new line itself, not by a group in it. -/
def Breaks : Doc → Prop
  | line _ _ => True
  | concat parts => BreaksAny parts
  | indent body => body.Breaks
  | _ => False

/-- Laid out broken, one of several documents starts a new line. -/
def BreaksAny : List Doc → Prop
  | [] => False
  | part :: rest => part.Breaks ∨ BreaksAny rest

end

mutual

/-- A document that starts a new line has a line feed when it is laid out broken. -/
theorem newline_mem_of_breaks (doc : Doc) (hbreaks : doc.Breaks) (style : Style) (depth : Nat)
    (follows : Text) (column : Nat) :
    '\n' ∈ (doc.settle style depth .broken follows column).1.write style depth .broken := by
  cases doc with
  | line flat hard => simp [settle, write]
  | concat parts => exact newline_mem_of_breaksAny parts hbreaks style depth follows column
  | indent body => exact newline_mem_of_breaks body hbreaks style (depth + 1) follows column
  | _ => exact hbreaks.elim

/-- So have several documents of which one starts a new line. -/
theorem newline_mem_of_breaksAny (docs : List Doc) (hbreaks : BreaksAny docs) (style : Style)
    (depth : Nat) (follows : Text) (column : Nat) :
    '\n' ∈ writeAll style depth .broken
      (settleAll style depth .broken follows column docs).1 := by
  cases docs with
  | nil => exact hbreaks.elim
  | cons doc rest =>
      rw [settleAll, writeAll, List.mem_append]
      rcases hbreaks with hdoc | hrest
      · exact .inl (newline_mem_of_breaks doc hdoc style depth _ column)
      · exact .inr (newline_mem_of_breaksAny rest hrest style depth follows _)

end

mutual

/-- A document without lines starts none. -/
theorem not_breaks_of_lineless (doc : Doc) (hlineless : doc.Lineless) : ¬ doc.Breaks := by
  cases doc with
  | line flat hard => exact hlineless.elim
  | concat parts => exact not_breaksAny_of_lineless parts hlineless
  | indent body => exact not_breaks_of_lineless body hlineless.2
  | _ => exact id

/-- Documents without lines start none. -/
theorem not_breaksAny_of_lineless (docs : List Doc) (hlineless : (concat docs).Lineless) :
    ¬ BreaksAny docs := by
  cases docs with
  | nil => exact id
  | cons doc rest =>
      obtain ⟨-, hdoc, hrest⟩ := hlineless
      exact not_or.mpr ⟨not_breaks_of_lineless doc hdoc,
        not_breaksAny_of_lineless rest ⟨trivial, hrest⟩⟩

end

/-- A document is a group that breaks as soon as it is not flat, or has one such part and texts
around it. -/
inductive Framed : Doc → Prop
  | group {body : Doc} (hbreaks : body.Breaks) : Framed (group body false)
  | within (before after : List Text) {inner : Doc} (hinner : Framed inner) :
      Framed (concat (before.map text ++ inner :: after.map text))

/-- A group that breaks has a line in it. -/
theorem Framed.not_lineless {doc : Doc} (hframed : doc.Framed) : ¬ doc.Lineless := by
  induction hframed with
  | group hbreaks => exact fun hlineless => not_breaks_of_lineless _ hlineless.2 hbreaks
  | within before after hinner ih =>
      intro hlineless
      exact ih (everywhereAll_iff.mp hlineless.2 _ (by simp))

/-- Texts are ahead as they stand. -/
theorem aheadAll_texts (mode : Mode) (follows : Text) (contents : List Text) :
    aheadAll mode follows (contents.map text) = contents.flatten ++ follows := by
  induction contents with
  | nil => rfl
  | cons content rest ih =>
      rw [List.map_cons, aheadAll, ih, ahead, List.flatten_cons, List.append_assoc]

/-- Texts are laid flat as they stand. -/
theorem flatTextAll_texts (contents : List Text) (docs : List Doc) :
    flatTextAll (contents.map text ++ docs) = contents.flatten ++ flatTextAll docs := by
  induction contents with
  | nil => rfl
  | cons content rest ih =>
      rw [List.map_cons, List.cons_append, flatTextAll, ih, flatText, List.flatten_cons,
        List.append_assoc]

/-- Texts in front of documents are written as they stand, and the documents after them. -/
theorem writeAll_settleAll_texts (style : Style) (depth : Nat) (mode : Mode) (follows : Text)
    (column : Nat) (contents : List Text) (docs : List Doc) :
    writeAll style depth mode
        (settleAll style depth mode follows column (contents.map text ++ docs)).1 =
      contents.flatten ++ writeAll style depth mode
        (settleAll style depth mode follows (column + contents.flatten.length) docs).1 := by
  induction contents generalizing column with
  | nil => rfl
  | cons content rest ih =>
      rw [List.map_cons, List.cons_append, settleAll, writeAll, settle, ih, write,
        List.flatten_cons, List.append_assoc, List.length_append, Nat.add_assoc]

/-- A framed document is written in one line exactly when it fits together with what follows. -/
theorem Framed.newline_not_mem_iff {doc : Doc} (hframed : doc.Framed) (hdoc : doc.OneLine)
    (style : Style) (depth : Nat) (follows : Text) (column : Nat) :
    '\n' ∉ (doc.settle style depth .broken follows column).1.write style depth .broken ↔
      column + doc.flatText.length + follows.length ≤ style.width.1 := by
  induction hframed generalizing follows column with
  | @group body hbreaks =>
      have hbody : body.OneLine := hdoc.2
      rw [settle]
      split
      case isTrue hflat =>
          have hline := newline_not_mem_flatText hbody
          rw [← (settle_flat style depth follows column body hbody).1] at hline
          exact iff_of_true hline ((liesFlat_iff hbody).mp hflat)
      case isFalse hbroken =>
          have hmem := newline_mem_of_breaks body hbreaks style depth follows column
          exact iff_of_false (not_not_intro hmem) (mt (liesFlat_iff hbody).mpr hbroken)
  | @within before after inner hinner ih =>
      have hparts := oneLine_concat.mp hdoc
      have htexts : ∀ contents : List Text, (∀ content ∈ contents, Doc.OneLine (.text content)) →
          '\n' ∉ contents.flatten := by
        intro contents hall hmem
        obtain ⟨content, hcontent, hbreak⟩ := List.mem_flatten.mp hmem
        exact hall content hcontent hbreak
      have hbefore : '\n' ∉ before.flatten := htexts before fun content hmem =>
        hparts _ (by simp [hmem])
      have hafter : '\n' ∉ after.flatten := htexts after fun content hmem =>
        hparts _ (by simp [hmem])
      have hlater := flatTextAll_texts after []
      have hrest := writeAll_settleAll_texts style depth .broken follows
        (inner.settle style depth .broken (after.flatten ++ follows)
          (column + before.flatten.length)).2 after []
      simp only [List.append_nil, flatTextAll, settleAll, writeAll] at hlater hrest
      have hinside := ih (hparts inner (by simp)) (after.flatten ++ follows)
        (column + before.flatten.length)
      rw [settle, write, writeAll_settleAll_texts, settleAll, aheadAll_texts, writeAll, hrest,
        List.mem_append, List.mem_append, or_iff_right hbefore, or_iff_left hafter, hinside,
        flatText, flatTextAll_texts, flatTextAll, hlater]
      simp only [List.length_append]
      omega

/-! ## Statements -/

/-- A statement is written in one line exactly if it fits into one with its terminator, or has no
line in it. -/
theorem newline_not_mem_layoutStatement_iff (style : Style) {statement : Doc}
    (hstatement : statement.OneLine) (hform : statement.Lineless ∨ statement.Framed) :
    '\n' ∉ layoutStatement style statement ↔
      (statement.flatText ++ style.terminator).length ≤ style.width.1 ∨ statement.Lineless := by
  have hterminated : (concat [statement, text style.terminator]).OneLine :=
    oneLine_concat.mpr (by simp [hstatement, oneLine_text, newline_not_mem_terminator])
  rw [layoutStatement_eq, Text.newline_mem_trimLines_iff]
  rcases hform with hlineless | hframed
  · have hnone : (concat [statement, text style.terminator]).Lineless :=
      ⟨trivial, hlineless, trivial, trivial⟩
    refine iff_of_true ?_ (.inr hlineless)
    exact newline_not_mem_of_lineless _ hnone hterminated (print_lays style _)
  · have hwhole : (concat [statement, text style.terminator]).Framed :=
      .within [] [style.terminator] hframed
    rw [print_of_oneLine style hterminated, settled, hwhole.newline_not_mem_iff hterminated,
      or_iff_left hframed.not_lineless]
    simp [flatText, flatTextAll]

end Doc

/-! ## Types -/

-- In every group of a type the first line stands at the beginning of the indented contents, in a
-- union nothing is in front of them.

open Doc in
/-- A type has no line, or it is one group with texts around it. -/
theorem TypeScript.TypeDoc.lineless_or_framed {terminator : Text} {sort : Name → Prop} {doc : Doc}
    (hdoc : TypeDoc terminator sort doc) : doc.Lineless ∨ doc.Framed := by
  cases hdoc with
  | name hname => exact .inl trivial
  | scalar kind => exact .inl trivial
  | anyArray => exact .inl trivial
  | array helement => exact .inr (.group (.inr (.inl (.inl trivial))))
  | object hfields =>
      unfold objectDoc
      split
      · exact .inl trivial
      · exact .inr (.group (.inr (.inl (.inl trivial))))
  | union hdocs => exact .inr (.group (.inl (.inl trivial)))

open Doc in
/-- A validator has no line, or it is one group with texts around it. -/
theorem PropTypes.TypeDoc.lineless_or_framed {sort : Name → Prop} {doc : Doc}
    (hdoc : TypeDoc sort doc) : doc.Lineless ∨ doc.Framed := by
  cases hdoc with
  | name hname => exact .inl trivial
  | scalar kind => exact .inl trivial
  | anyArray => exact .inl trivial
  | values exprs => exact .inl ⟨trivial, trivial, trivial, trivial, trivial⟩
  | array helement => exact .inr (.group (.inr (.inl (.inl trivial))))
  | object hfields =>
      unfold objectDoc
      split
      · exact .inl trivial
      · exact .inr (.within ["PropTypes.shape("] [")"] (.group (.inr (.inl (.inl trivial)))))
  | choice hdocs => exact .inr (.group (.inr (.inl (.inl trivial))))

/-- In both dialects a type has no line, or it is one group with texts around it. -/
theorem TypeExpr.lineless_or_framed_doc (dialect : Dialect) (style : Style) (expr : TypeExpr) :
    (expr.doc dialect style).Lineless ∨ (expr.doc dialect style).Framed := by
  cases dialect with
  | typeScript =>
      have hdoc : TypeScript.TypeDoc style.terminator (fun _ => True) _ :=
        TypeScript.typeDoc_doc expr fun _ _ => trivial
      exact hdoc.lineless_or_framed
  | propTypes =>
      have hdoc : PropTypes.TypeDoc (fun _ => True) _ :=
        PropTypes.typeDoc_doc expr fun _ _ => trivial
      exact hdoc.lineless_or_framed

/-- A declaration only puts texts in front of its body. -/
theorem Dialect.lineless_or_framed_declaration (dialect : Dialect) (name : Name) {body : Doc}
    (hbody : body.Lineless ∨ body.Framed) :
    (dialect.declaration name body).Lineless ∨ (dialect.declaration name body).Framed := by
  rcases hbody with hlineless | hframed
  · cases dialect <;> exact .inl ⟨trivial, trivial, trivial, trivial, hlineless, trivial⟩
  · cases dialect with
    | typeScript => exact .inr (.within ["type ", name, " = "] [] hframed)
    | propTypes => exact .inr (.within ["const ", name, " = "] [] hframed)

namespace Model

/-- **One line where it fits.**  In a model in which every cycle of fields passes through a named
type and no type name has a line feed, the program consists of its declarations, each laid out by
itself.  A declaration is written in one line exactly if, laid flat and with its terminator, it is
no longer than the width, or if there is no line in its document. -/
theorem single_line_iff_fits {model : Model} (hguarded : model.Guarded)
    (hnames : ∀ name ∈ model.typeNames, '\n' ∉ name) (dialect : Dialect) (style : Style) :
    ∃ declarations, model.declarations? dialect style = some declarations ∧
      model.renderNamed? dialect style = some
        (if declarations = [] then []
        else Text.unlines ((dialect.preamble ++ declarations).map (Doc.layoutStatement style)) ++
          ['\n']) ∧
      ∀ declaration ∈ declarations, '\n' ∉ declaration.layoutStatement style ↔
        (declaration.flatText ++ style.terminator).length ≤ style.width.1 ∨
          declaration.Lineless := by
  obtain ⟨declarations, hdeclarations, hprogram, hall⟩ := exists_statements hguarded dialect style
  refine ⟨declarations, hdeclarations, hprogram, fun declaration hmem => ?_⟩
  obtain ⟨name, expr, hname, hmentions, rfl⟩ := hall declaration hmem
  have hline : (expr.doc dialect style).OneLine := TypeExpr.oneLine_doc dialect style
    fun mention hmention => hnames mention (hmentions mention hmention)
  exact Doc.newline_not_mem_layoutStatement_iff style
    (dialect.oneLine_declaration (hnames name hname) hline)
    (dialect.lineless_or_framed_declaration name (expr.lineless_or_framed_doc dialect style))

/-- Three declarations at a width of forty, each of them in one line exactly if it fits. -/
theorem single_line_iff_fits_guild :
    let model := (Builder.afterAll {} guild).model
    let style : Style := { width := ⟨40, by decide⟩ }
    model.Guarded ∧ (∀ name ∈ model.typeNames, '\n' ∉ name) ∧
      ∃ declarations, model.declarations? .typeScript style = some declarations ∧
        declarations.length = 3 ∧
        ∀ declaration ∈ declarations, '\n' ∉ declaration.layoutStatement style ↔
          (declaration.flatText ++ style.terminator).length ≤ 40 ∨ declaration.Lineless := by
  intro model style
  have hguarded : model.Guarded := guarded_of_rank List.length (by decide +kernel)
  have hnames : ∀ name ∈ model.typeNames, '\n' ∉ name := by decide +kernel
  obtain ⟨declarations, hdeclarations, -, hall⟩ :=
    single_line_iff_fits hguarded hnames .typeScript style
  refine ⟨hguarded, hnames, declarations, hdeclarations, ?_, hall⟩
  have horder : (model.declarationOrder .typeScript).length = 3 := by decide +kernel
  exact (mapM_eq_some_iff.mp hdeclarations).length_eq.symm.trans horder

end Model

end Exemplar
