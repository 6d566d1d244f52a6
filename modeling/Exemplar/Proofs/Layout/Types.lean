import Exemplar.Proofs.ClosedPrograms
import Exemplar.Proofs.Layout.Flat
import Exemplar.Proofs.Reading.Documents

/-!
# Documents of types

The document of a type is put together from those of its parts, and each dialect has a few ways
to do it.  `TypeScript.TypeDoc` and `PropTypes.TypeDoc` collect them, so that what holds of all
these documents is shown by an induction with one case for each way.

The first such property is that no break is forced in them (`TypeExpr.oneLine_doc`): keys are
quoted, and names are taken to have no line feeds.
-/

namespace Exemplar

/-- To prove something of all type expressions, prove it of arrays, objects and unions from their
parts. -/
@[elab_as_elim]
theorem TypeExpr.ind {P : TypeExpr → Prop} (reference : ∀ name, P (.reference name))
    (scalar : ∀ kind, P (.scalar kind)) (anyArray : P .anyArray)
    (array : ∀ element, P element → P (.array element))
    (object : ∀ fields : List (Field × TypeExpr),
      (∀ field ∈ fields, P field.2) → P (.object fields))
    (union : ∀ alternatives : List TypeExpr,
      (∀ expr ∈ alternatives, P expr) → P (.union alternatives)) (expr : TypeExpr) : P expr := by
  refine @TypeExpr.rec P (fun fields => ∀ field ∈ fields, P field.2)
    (fun alternatives => ∀ expr ∈ alternatives, P expr) (fun field => P field.2)
    reference scalar anyArray array object union ?_ ?_ ?_ ?_ ?_ expr
  · exact fun field hfield => absurd hfield List.not_mem_nil
  · exact fun field rest hfirst hlater => List.forall_mem_cons.mpr ⟨hfirst, hlater⟩
  · exact fun expr hexpr => absurd hexpr List.not_mem_nil
  · exact fun expr rest hfirst hlater => List.forall_mem_cons.mpr ⟨hfirst, hlater⟩
  · exact fun field value hvalue => hvalue

/-! ## The ways to put them together -/

namespace TypeScript

/-- The documents of types, with names of a given sort. -/
inductive TypeDoc (terminator : Text) (sort : Name → Prop) : Doc → Prop
  | name {name : Name} (hname : sort name) : TypeDoc terminator sort (.text name)
  | scalar (kind : Scalar) : TypeDoc terminator sort (.text (scalarText kind))
  | anyArray : TypeDoc terminator sort "Array<any>"
  | array {element : Doc} (helement : TypeDoc terminator sort element) :
      TypeDoc terminator sort (arrayDoc element)
  | object {fields : List (Field × Doc)}
      (hfields : ∀ field ∈ fields, TypeDoc terminator sort field.2) :
      TypeDoc terminator sort
        (objectDoc terminator (fields.map fun field => fieldDoc field.1 field.2))
  | union {docs : List Doc} (hdocs : ∀ doc ∈ docs, TypeDoc terminator sort doc) :
      TypeDoc terminator sort (unionDoc docs)

variable {terminator : Text} {sort : Name → Prop}

/-- The document of a type is put together in these ways. -/
theorem typeDoc_doc (expr : TypeExpr) (hnames : ∀ name ∈ expr.references, sort name) :
    TypeDoc terminator sort (doc terminator expr) := by
  induction expr using TypeExpr.ind with
  | reference name => exact .name (hnames name (by simp [TypeExpr.references]))
  | scalar kind => exact .scalar kind
  | anyArray => exact .anyArray
  | array element ih => exact .array (ih hnames)
  | object fields ih =>
      have hdocs : fieldDocs terminator fields =
          (fields.map fun field => (field.1, doc terminator field.2)).map
            fun field => fieldDoc field.1 field.2 := by
        rw [fieldDocs_eq_map, List.map_map]
        rfl
      rw [doc, hdocs]
      refine .object (List.forall_mem_map.mpr fun field hfield => ?_)
      exact ih field hfield fun name hname =>
        hnames name ((mem_fieldReferences_iff fields name).mpr ⟨field, hfield, hname⟩)
  | union alternatives ih =>
      rw [doc, docs_eq_map]
      refine .union (List.forall_mem_map.mpr fun expr hexpr => ?_)
      exact ih expr hexpr fun name hname =>
        hnames name ((mem_alternativeReferences_iff alternatives name).mpr ⟨expr, hexpr, hname⟩)

end TypeScript

namespace PropTypes

/-- The documents of types, with names of a given sort. -/
inductive TypeDoc (sort : Name → Prop) : Doc → Prop
  | name {name : Name} (hname : sort name) : TypeDoc sort (.text name)
  | scalar (kind : Scalar) : TypeDoc sort (.text (scalarText kind))
  | anyArray : TypeDoc sort "PropTypes.array"
  | values (exprs : List TypeExpr) : TypeDoc sort (valuesDoc (nullishNames exprs))
  | array {element : Doc} (helement : TypeDoc sort element) : TypeDoc sort (arrayDoc element)
  | object {fields : List (Field × Doc)} (hfields : ∀ field ∈ fields, TypeDoc sort field.2) :
      TypeDoc sort (objectDoc (fields.map fun field => fieldDoc field.1 field.2))
  | choice {docs : List Doc} (hdocs : ∀ doc ∈ docs, TypeDoc sort doc) :
      TypeDoc sort (choiceDoc docs)

variable {sort : Name → Prop}

/-- The document of a validator is put together in these ways. -/
theorem typeDoc_doc (expr : TypeExpr) (hnames : ∀ name ∈ expr.references, sort name) :
    TypeDoc sort (doc expr) := by
  induction expr using TypeExpr.ind with
  | reference name => exact .name (hnames name (by simp [TypeExpr.references]))
  | scalar kind => exact .scalar kind
  | anyArray => exact .anyArray
  | array element ih => exact .array (ih hnames)
  | object fields ih =>
      have hdocs : fieldDocs fields = (fields.map fun field => (field.1, doc field.2)).map
          fun field => fieldDoc field.1 field.2 := by
        rw [fieldDocs_eq_map, List.map_map]
        rfl
      rw [doc, hdocs]
      refine .object (List.forall_mem_map.mpr fun field hfield => ?_)
      exact ih field hfield fun name hname =>
        hnames name ((mem_fieldReferences_iff fields name).mpr ⟨field, hfield, hname⟩)
  | union alternatives ih =>
      have hdocs : ∀ doc ∈ choiceDocs alternatives, TypeDoc sort doc := by
        rw [choiceDocs_eq_map]
        refine List.forall_mem_map.mpr fun expr hexpr => ?_
        have hmem := List.mem_of_mem_filter hexpr
        exact ih expr hmem fun name hname =>
          hnames name ((mem_alternativeReferences_iff alternatives name).mpr ⟨expr, hmem, hname⟩)
      -- a single choice stands for itself
      rw [doc]
      generalize choiceDocs alternatives = docs at hdocs
      cases docs with
      | nil => exact .values alternatives
      | cons alternative rest =>
          cases rest with
          | nil => exact hdocs alternative List.mem_cons_self
          | cons => exact .choice hdocs

end PropTypes

/-! ## Without line feeds -/

/-- Among separated items there are the items and the separator. -/
theorem mem_intersperse {α : Type} {separator x : α} {xs : List α}
    (hmem : x ∈ xs.intersperse separator) : x = separator ∨ x ∈ xs := by
  induction xs with
  | nil => simp at hmem
  | cons first rest ih =>
      cases rest with
      | nil => exact .inr hmem
      | cons second later =>
          rcases List.mem_cons.mp hmem with rfl | hrest
          · exact .inr List.mem_cons_self
          · rcases List.mem_cons.mp hrest with rfl | hlater
            · exact .inl rfl
            · exact (ih hlater).imp_right (List.mem_cons_of_mem first)

/-- The key of a field has no line feed, since a quoted one escapes it. -/
theorem newline_not_mem_fieldKey (name : Text) : '\n' ∉ fieldKey name := by
  unfold fieldKey
  split
  case isTrue hplain =>
      intro hmem
      exact absurd ((uniform_of_isPlainKey hplain).2 _ hmem) (by decide)
  case isFalse =>
      have hescaped : '\n' ∉ name.flatMap Text.keyChar := fun hmem =>
        ne_newline_of_mem_escaped hmem rfl
      simpa [Text.quotedKey] using hescaped

namespace PropTypes

/-- The listed values have the names of kinds. -/
theorem exists_of_mem_nullishNames {exprs : List TypeExpr} {name : Text}
    (hname : name ∈ nullishNames exprs) : ∃ kind : Scalar, name = kind.name := by
  fun_induction nullishNames exprs with
  | case1 => cases hname
  | case2 kind rest hnullish ih =>
      rcases List.mem_cons.mp hname with rfl | hlater
      · exact ⟨kind, rfl⟩
      · exact ih hlater
  | case3 kind rest hvalued ih => exact ih hname
  | case4 expr rest hother ih => exact ih hname

/-- A list of values has no character but those of the names and of the separator. -/
theorem not_mem_nullishNames {c : Char} (hseparator : c ∉ (", " : Text))
    (hkinds : ∀ kind : Scalar, c ∉ kind.name) (exprs : List TypeExpr) :
    c ∉ Text.joined ", " (nullishNames exprs) := by
  intro hmem
  obtain ⟨part, hpart, hc⟩ := List.mem_flatten.mp hmem
  rcases mem_intersperse hpart with rfl | hname
  · exact hseparator hc
  · obtain ⟨kind, rfl⟩ := exists_of_mem_nullishNames hname
    exact hkinds kind hc

end PropTypes

/-- No terminator has a line feed. -/
theorem newline_not_mem_terminator (style : Style) : '\n' ∉ style.terminator := by
  unfold Style.terminator
  split <;> decide

namespace Doc

/-- A text takes one line unless it has a line feed. -/
theorem oneLine_text {content : Text} : (text content).OneLine ↔ '\n' ∉ content :=
  Iff.rfl

/-- An empty sequence takes one line. -/
theorem oneLine_nil : (concat []).OneLine :=
  ⟨trivial, trivial⟩

/-- A sequence takes one line if its first part and the rest do. -/
theorem oneLine_cons {part : Doc} {rest : List Doc} :
    (concat (part :: rest)).OneLine ↔ part.OneLine ∧ (concat rest).OneLine :=
  ⟨fun hparts => ⟨hparts.2.1, trivial, hparts.2.2⟩,
    fun hparts => ⟨trivial, hparts.1, hparts.2.2⟩⟩

/-- A sequence takes one line if its parts do. -/
theorem oneLine_concat {parts : List Doc} :
    (concat parts).OneLine ↔ ∀ part ∈ parts, part.OneLine :=
  (and_iff_right trivial).trans everywhereAll_iff

/-- A group takes one line if its parts do. -/
theorem oneLine_groupOf {parts : List Doc} : (groupOf parts).OneLine ↔ (concat parts).OneLine :=
  and_iff_right rfl

/-- Indented parts take one line if the parts do. -/
theorem oneLine_indentOf {parts : List Doc} : (indentOf parts).OneLine ↔ (concat parts).OneLine :=
  and_iff_right trivial

/-- A choice takes one line if both documents do. -/
theorem oneLine_ifBroken {broken flat : Doc} :
    (ifBroken broken flat).OneLine ↔ broken.OneLine ∧ flat.OneLine :=
  and_iff_right trivial

/-- Laid flat, a soft line stays in the line. -/
theorem oneLine_softLine : softLine.OneLine :=
  ⟨by decide, rfl⟩

/-- Laid flat, a space line stays in the line. -/
theorem oneLine_spaceLine : spaceLine.OneLine :=
  ⟨by decide, rfl⟩

/-- Separated documents take one line if they and the separator do. -/
theorem OneLine.joined {separator : Doc} {docs : List Doc} (hseparator : separator.OneLine)
    (hdocs : ∀ doc ∈ docs, doc.OneLine) : (joined separator docs).OneLine := by
  refine oneLine_concat.mpr fun doc hdoc => ?_
  rcases mem_intersperse hdoc with rfl | hmem
  · exact hseparator
  · exact hdocs doc hmem

/-! ### Object types -/

/-- A field takes one line if its type does. -/
theorem oneLine_typeScriptField (field : Field) {value : Doc} (hvalue : value.OneLine) :
    (TypeScript.fieldDoc field value).OneLine := by
  have hkey := newline_not_mem_fieldKey field.name
  have hmark : '\n' ∉ (if field.required then "" else "?" : Text) := by
    split <;> decide
  simp +decide only [TypeScript.fieldDoc, oneLine_cons, oneLine_nil, oneLine_text, hkey, hmark,
    hvalue]

/-- A field takes one line if its validator does. -/
theorem oneLine_propTypesField (field : Field) {value : Doc} (hvalue : value.OneLine) :
    (PropTypes.fieldDoc field value).OneLine := by
  have hkey := newline_not_mem_fieldKey field.name
  have hmark : '\n' ∉
      (if field.required && !field.nullable then ".isRequired" else "" : Text) := by
    split <;> decide
  simp +decide only [PropTypes.fieldDoc, oneLine_cons, oneLine_nil, oneLine_text, hkey, hmark,
    hvalue]

/-- An object type takes one line if its fields do. -/
theorem oneLine_typeScriptObject {terminator : Text} (hterminator : '\n' ∉ terminator)
    {fields : List Doc} (hfields : ∀ field ∈ fields, field.OneLine) :
    (TypeScript.objectDoc terminator fields).OneLine := by
  have hjoined : (joined (.concat [.ifBroken (.text terminator) ";", .spaceLine])
      fields).OneLine := by
    refine .joined ?_ hfields
    simp +decide only [oneLine_cons, oneLine_nil, oneLine_ifBroken, oneLine_spaceLine,
      oneLine_text, hterminator]
  unfold TypeScript.objectDoc
  split
  · simp +decide only [oneLine_text]
  · simp +decide only [oneLine_groupOf, oneLine_indentOf, oneLine_cons, oneLine_nil,
      oneLine_ifBroken, oneLine_spaceLine, oneLine_text, hterminator, hjoined]

/-- A shape takes one line if its fields do. -/
theorem oneLine_propTypesObject {fields : List Doc} (hfields : ∀ field ∈ fields, field.OneLine) :
    (PropTypes.objectDoc fields).OneLine := by
  have hjoined : (joined (.concat [",", .spaceLine]) fields).OneLine := by
    refine .joined ?_ hfields
    simp +decide only [oneLine_cons, oneLine_nil, oneLine_spaceLine, oneLine_text]
  unfold PropTypes.objectDoc
  split
  · simp +decide only [oneLine_text]
  · simp +decide only [oneLine_groupOf, oneLine_indentOf, oneLine_cons, oneLine_nil,
      oneLine_ifBroken, oneLine_spaceLine, oneLine_text, hjoined]

/-! ### Unions -/

/-- A union takes one line if its alternatives do. -/
theorem oneLine_typeScriptUnion {docs : List Doc} (hdocs : ∀ doc ∈ docs, doc.OneLine) :
    (TypeScript.unionDoc docs).OneLine := by
  have hjoined : (joined (.concat [.spaceLine, "| "]) docs).OneLine := by
    refine .joined ?_ hdocs
    simp +decide only [oneLine_cons, oneLine_nil, oneLine_spaceLine, oneLine_text]
  simp +decide only [TypeScript.unionDoc, oneLine_groupOf, oneLine_indentOf, oneLine_cons,
    oneLine_nil, oneLine_ifBroken, oneLine_softLine, oneLine_text, hjoined]

/-- A choice takes one line if its alternatives do. -/
theorem oneLine_choiceDoc {docs : List Doc} (hdocs : ∀ doc ∈ docs, doc.OneLine) :
    (PropTypes.choiceDoc docs).OneLine := by
  have hjoined : (joined (.concat [",", .spaceLine]) docs).OneLine := by
    refine .joined ?_ hdocs
    simp +decide only [oneLine_cons, oneLine_nil, oneLine_spaceLine, oneLine_text]
  simp +decide only [PropTypes.choiceDoc, oneLine_groupOf, oneLine_indentOf, oneLine_cons,
    oneLine_nil, oneLine_ifBroken, oneLine_softLine, oneLine_text, hjoined]

end Doc

/-! ### All of them -/

/-- A type takes one line if the names in it do. -/
theorem TypeScript.TypeDoc.oneLine {terminator : Text} (hterminator : '\n' ∉ terminator) {doc : Doc}
    (hdoc : TypeDoc terminator (fun name => '\n' ∉ name) doc) : doc.OneLine := by
  induction hdoc with
  | name hname => exact hname
  | scalar kind => cases kind <;> exact Doc.oneLine_text.mpr (by decide)
  | anyArray => exact Doc.oneLine_text.mpr (by decide)
  | array helement ih =>
      simp +decide only [arrayDoc, Doc.oneLine_groupOf, Doc.oneLine_indentOf, Doc.oneLine_cons,
        Doc.oneLine_nil, Doc.oneLine_softLine, Doc.oneLine_text, ih]
  | object hfields ih =>
      refine Doc.oneLine_typeScriptObject hterminator ?_
      exact List.forall_mem_map.mpr fun field hfield =>
        Doc.oneLine_typeScriptField field.1 (ih field hfield)
  | union hdocs ih => exact Doc.oneLine_typeScriptUnion ih

/-- A validator takes one line if the names in it do. -/
theorem PropTypes.TypeDoc.oneLine {doc : Doc}
    (hdoc : TypeDoc (fun name => '\n' ∉ name) doc) : doc.OneLine := by
  induction hdoc with
  | name hname => exact hname
  | scalar kind => cases kind <;> exact Doc.oneLine_text.mpr (by decide)
  | anyArray => exact Doc.oneLine_text.mpr (by decide)
  | values exprs =>
      have hkinds : ∀ kind : Scalar, '\n' ∉ kind.name := fun kind => by cases kind <;> decide
      have hnames := not_mem_nullishNames (by decide) hkinds exprs
      simp +decide only [valuesDoc, Doc.oneLine_cons, Doc.oneLine_nil, Doc.oneLine_text, hnames]
  | array helement ih =>
      simp +decide only [arrayDoc, Doc.oneLine_groupOf, Doc.oneLine_indentOf, Doc.oneLine_cons,
        Doc.oneLine_nil, Doc.oneLine_softLine, Doc.oneLine_text, ih]
  | object hfields ih =>
      refine Doc.oneLine_propTypesObject ?_
      exact List.forall_mem_map.mpr fun field hfield =>
        Doc.oneLine_propTypesField field.1 (ih field hfield)
  | choice hdocs ih => exact Doc.oneLine_choiceDoc ih

/-- Nothing in the document of a type forces a break. -/
theorem TypeExpr.oneLine_doc (dialect : Dialect) (style : Style) {expr : TypeExpr}
    (hnames : ∀ name ∈ expr.references, '\n' ∉ name) : (expr.doc dialect style).OneLine := by
  cases dialect with
  | typeScript =>
      exact (TypeScript.typeDoc_doc expr hnames).oneLine (newline_not_mem_terminator style)
  | propTypes => exact (PropTypes.typeDoc_doc expr hnames).oneLine

/-- A declaration takes one line if its name and its body do. -/
theorem Dialect.oneLine_declaration (dialect : Dialect) {name : Name} (hname : '\n' ∉ name)
    {body : Doc} (hbody : body.OneLine) : (dialect.declaration name body).OneLine := by
  cases dialect <;>
    simp +decide only [declaration, TypeScript.declaration, PropTypes.declaration,
      Doc.oneLine_cons, Doc.oneLine_nil, Doc.oneLine_text, hname, hbody]

/-! ## Programs -/

namespace Model

variable {model : Model}

/-- The names in an expression are type names. -/
theorem mem_typeNames_of_mem_references {inlined : Bool} {key : Keypath} {expr : TypeExpr}
    (hexpr : model.expand? inlined key = some expr) :
    ∀ name ∈ expr.references, name ∈ model.typeNames := fun name hname =>
  (mem_typeNames_iff model name).mpr (.inl (mem_references_expandWithin hexpr hname).1)

/-- A program is made of statements, each laid out by itself, and its declarations are those of
type names, with nothing but type names in them. -/
theorem exists_statements (hguarded : model.Guarded) (dialect : Dialect) (style : Style) :
    ∃ declarations, model.declarations? dialect style = some declarations ∧
      model.renderNamed? dialect style = some
        (if declarations = [] then []
        else Text.unlines ((dialect.preamble ++ declarations).map (Doc.layoutStatement style)) ++
          ['\n']) ∧
      ∀ declaration ∈ declarations, ∃ (name : Name) (expr : TypeExpr), name ∈ model.typeNames ∧
        (∀ mention ∈ expr.references, mention ∈ model.typeNames) ∧
        declaration = dialect.declaration name (expr.doc dialect style) := by
  obtain ⟨declarations, hdeclarations, hall⟩ := exists_declarations hguarded dialect style
  refine ⟨declarations, hdeclarations, renderNamed?_of_declarations hdeclarations,
    fun declaration hmem => ?_⟩
  obtain ⟨name, hname, expr, hexpr, rfl⟩ := exists_of_mem_right hall hmem
  exact ⟨name, expr, ((mem_declarationOrder_iff model dialect name).mp hname).1,
    mem_typeNames_of_mem_references hexpr, rfl⟩

/-- An expression is the type at a key, laid out by itself, unless there is nothing to write. -/
theorem renderInlined?_cases (hguarded : model.Guarded) (dialect : Dialect)
    (root : Option Keypath) :
    (∀ style, model.renderInlined? dialect style root = some []) ∨
      ∃ key expr, model.expand? true key = some expr ∧
        ∀ style, model.renderInlined? dialect style root =
          some ((expr.doc dialect style).layoutExpression style) := by
  unfold renderInlined?
  cases root.or model.roots.getLast? with
  | none => exact .inl fun _ => rfl
  | some key =>
      by_cases hknown : model.has key = true
      · obtain ⟨expr, hexpr⟩ := exists_expand? hguarded true key
        refine .inr ⟨key, expr, hexpr, fun style => ?_⟩
        simp only [if_pos hknown, doc?_of_expand? hexpr]
        rfl
      · exact .inl fun _ => if_neg hknown

end Model

end Exemplar
