import Exemplar.Proofs.Expansion
import Exemplar.Render

/-!
# Names in documents

Which types a document mentions cannot be read off its texts, since the key of a field may be
spelled like the name of a type.  `TypeExpr.docWith` is therefore the document of an expression
with whatever documents in the places of its names.  With the names themselves there it is the
document (`docWith_text`).

Only the documents of the names in `TypeExpr.references` matter (`docWith_congr`), and each of
them does: what a dialect writes around the parts of a type hides none of them, so that two
documents are equal only if the same stands in all those places (`docWith_eq_iff`).
`TypeExpr.WritesNames` says both, and is how theorems about programs say which types a document
mentions.
-/

namespace Exemplar

/-! ## Documents with names replaced -/

namespace Dialect

/-- A type of values without parts in a dialect. -/
def scalarText : Dialect → Scalar → Text
  | typeScript => TypeScript.scalarText
  | propTypes => PropTypes.scalarText

/-- Arrays of whose elements nothing is known. -/
def anyArrayDoc : Dialect → Doc
  | typeScript => "Array<any>"
  | propTypes => "PropTypes.array"

/-- Arrays of a type in a dialect. -/
def arrayDoc : Dialect → Doc → Doc
  | typeScript => TypeScript.arrayDoc
  | propTypes => PropTypes.arrayDoc

/-- An object type in a dialect, from its fields with the documents of their types. -/
def objectDoc (dialect : Dialect) (style : Style) (fields : List (Field × Doc)) : Doc :=
  match dialect with
  | typeScript =>
      TypeScript.objectDoc style.terminator
        (fields.map fun field => TypeScript.fieldDoc field.1 field.2)
  | propTypes => PropTypes.objectDoc (fields.map fun field => PropTypes.fieldDoc field.1 field.2)

/-- A union in a dialect, from its alternatives with their documents. -/
def unionDoc (dialect : Dialect) (alternatives : List (TypeExpr × Doc)) : Doc :=
  match dialect with
  | typeScript => TypeScript.unionDoc (alternatives.map Prod.snd)
  | propTypes =>
      PropTypes.unionDoc (PropTypes.nullishNames (alternatives.map Prod.fst))
        ((alternatives.filter fun alternative => !alternative.1.isNullish).map Prod.snd)

end Dialect

mutual

/-- The document of a type expression, with a given document in the place of each name. -/
def TypeExpr.docWith (dialect : Dialect) (style : Style) (refer : Name → Doc) : TypeExpr → Doc
  | .reference name => refer name
  | .scalar kind => .text (dialect.scalarText kind)
  | .anyArray => dialect.anyArrayDoc
  | .array element => dialect.arrayDoc (element.docWith dialect style refer)
  | .object fields => dialect.objectDoc style (fieldDocsWith dialect style refer fields)
  | .union alternatives => dialect.unionDoc (alternativeDocsWith dialect style refer alternatives)

/-- Fields with the documents of their types. -/
def fieldDocsWith (dialect : Dialect) (style : Style) (refer : Name → Doc) :
    List (Field × TypeExpr) → List (Field × Doc)
  | [] => []
  | (field, value) :: rest =>
      (field, value.docWith dialect style refer) :: fieldDocsWith dialect style refer rest

/-- Alternatives with their documents. -/
def alternativeDocsWith (dialect : Dialect) (style : Style) (refer : Name → Doc) :
    List TypeExpr → List (TypeExpr × Doc)
  | [] => []
  | expr :: rest =>
      (expr, expr.docWith dialect style refer) :: alternativeDocsWith dialect style refer rest

end

/-! ### The names themselves -/

section

variable (dialect : Dialect) (style : Style)

/-- The document of arrays has that of the elements in it. -/
theorem TypeExpr.doc_array (element : TypeExpr) :
    (TypeExpr.array element).doc dialect style = dialect.arrayDoc (element.doc dialect style) := by
  cases dialect <;> rfl

/-- The document of an object type has those of its fields in it. -/
theorem TypeExpr.doc_object (fields : List (Field × TypeExpr)) :
    (TypeExpr.object fields).doc dialect style =
      dialect.objectDoc style (fields.map fun field => (field.1, field.2.doc dialect style)) := by
  cases dialect with
  | typeScript =>
      simp only [doc, TypeScript.doc, TypeScript.fieldDocs_eq_map, Dialect.objectDoc, List.map_map]
      rfl
  | propTypes =>
      simp only [doc, PropTypes.doc, PropTypes.fieldDocs_eq_map, Dialect.objectDoc, List.map_map]
      rfl

/-- The document of a union has those of its alternatives in it. -/
theorem TypeExpr.doc_union (alternatives : List TypeExpr) :
    (TypeExpr.union alternatives).doc dialect style =
      dialect.unionDoc (alternatives.map fun expr => (expr, expr.doc dialect style)) := by
  cases dialect with
  | typeScript =>
      simp only [doc, TypeScript.doc, TypeScript.docs_eq_map, Dialect.unionDoc, List.map_map]
      rfl
  | propTypes =>
      simp only [doc, PropTypes.doc, PropTypes.choiceDocs_eq_map, Dialect.unionDoc, List.map_map,
        List.filter_map]
      simp [Function.comp_def]

mutual

/-- With the names themselves in their places it is the document of the expression. -/
theorem TypeExpr.docWith_text (expr : TypeExpr) :
    expr.docWith dialect style .text = expr.doc dialect style := by
  cases expr with
  | reference name => cases dialect <;> rfl
  | scalar kind => cases dialect <;> rfl
  | anyArray => cases dialect <;> rfl
  | array element => rw [TypeExpr.docWith, element.docWith_text, TypeExpr.doc_array]
  | object fields => rw [TypeExpr.docWith, fieldDocsWith_text, TypeExpr.doc_object]
  | union alternatives => rw [TypeExpr.docWith, alternativeDocsWith_text, TypeExpr.doc_union]

/-- So it is for fields. -/
theorem fieldDocsWith_text (fields : List (Field × TypeExpr)) :
    fieldDocsWith dialect style .text fields =
      fields.map fun field => (field.1, field.2.doc dialect style) := by
  cases fields with
  | nil => rfl
  | cons field rest =>
      rw [fieldDocsWith, field.2.docWith_text, fieldDocsWith_text, List.map_cons]

/-- So it is for alternatives. -/
theorem alternativeDocsWith_text (alternatives : List TypeExpr) :
    alternativeDocsWith dialect style .text alternatives =
      alternatives.map fun expr => (expr, expr.doc dialect style) := by
  cases alternatives with
  | nil => rfl
  | cons expr rest =>
      rw [alternativeDocsWith, expr.docWith_text, alternativeDocsWith_text, List.map_cons]

end

/-! ### Other documents for the same names -/

mutual

/-- Only the documents of the names that stand in an expression matter. -/
theorem TypeExpr.docWith_congr {refer other : Name → Doc} (expr : TypeExpr)
    (hsame : ∀ name ∈ expr.references, refer name = other name) :
    expr.docWith dialect style refer = expr.docWith dialect style other := by
  cases expr with
  | reference name => exact hsame name (by simp [TypeExpr.references])
  | scalar kind => rfl
  | anyArray => rfl
  | array element =>
      rw [TypeExpr.docWith, TypeExpr.docWith, element.docWith_congr hsame]
  | object fields =>
      rw [TypeExpr.docWith, TypeExpr.docWith, fieldDocsWith_congr fields hsame]
  | union alternatives =>
      rw [TypeExpr.docWith, TypeExpr.docWith, alternativeDocsWith_congr alternatives hsame]

/-- Only the names in the types of fields matter. -/
theorem fieldDocsWith_congr {refer other : Name → Doc} (fields : List (Field × TypeExpr))
    (hsame : ∀ name ∈ fieldReferences fields, refer name = other name) :
    fieldDocsWith dialect style refer fields = fieldDocsWith dialect style other fields := by
  cases fields with
  | nil => rfl
  | cons field rest =>
      obtain ⟨hhere, hlater⟩ := List.forall_mem_append.mp hsame
      rw [fieldDocsWith, fieldDocsWith, field.2.docWith_congr hhere,
        fieldDocsWith_congr rest hlater]

/-- Only the names in alternatives matter. -/
theorem alternativeDocsWith_congr {refer other : Name → Doc} (alternatives : List TypeExpr)
    (hsame : ∀ name ∈ alternativeReferences alternatives, refer name = other name) :
    alternativeDocsWith dialect style refer alternatives =
      alternativeDocsWith dialect style other alternatives := by
  cases alternatives with
  | nil => rfl
  | cons expr rest =>
      obtain ⟨hhere, hlater⟩ := List.forall_mem_append.mp hsame
      rw [alternativeDocsWith, alternativeDocsWith, expr.docWith_congr hhere,
        alternativeDocsWith_congr rest hlater]

end

/-- Each alternative has a document of its own. -/
theorem alternativeDocsWith_eq_map (refer : Name → Doc) (alternatives : List TypeExpr) :
    alternativeDocsWith dialect style refer alternatives =
      alternatives.map fun expr => (expr, expr.docWith dialect style refer) := by
  induction alternatives with
  | nil => rfl
  | cons expr rest ih => rw [alternativeDocsWith, ih, List.map_cons]

end

/-! ## Nothing is hidden -/

/-- What distinguishes less is equal where lists agree on what distinguishes more. -/
theorem map_eq_of_map_eq {α β γ : Type} {f : α → β} {g : α → γ}
    (himp : ∀ x y, f x = f y → g x = g y) {xs ys : List α} (hsame : xs.map f = ys.map f) :
    xs.map g = ys.map g := by
  induction xs generalizing ys with
  | nil =>
      obtain rfl := List.map_eq_nil_iff.mp hsame.symm
      rfl
  | cons x rest ih =>
      obtain ⟨y, later, rfl, hhere, hlater⟩ := List.map_eq_cons_iff.mp hsame.symm
      rw [List.map_cons, List.map_cons, himp x y hhere.symm, ih hlater.symm]

namespace Doc

/-- A group shows its parts. -/
theorem groupOf_inj {parts others : List Doc} :
    groupOf parts = groupOf others ↔ parts = others := by
  simp [groupOf]

/-- An indentation shows its parts. -/
theorem indentOf_inj {parts others : List Doc} :
    indentOf parts = indentOf others ↔ parts = others := by
  simp [indentOf]

/-- Separators hide no document. -/
theorem eq_of_joined_eq {separator : Doc} {docs others : List Doc}
    (hsame : joined separator docs = joined separator others) : docs = others := by
  have hlists := Doc.concat.inj hsame
  clear hsame
  induction docs generalizing others with
  | nil =>
      cases others with
      | nil => rfl
      | cons other later => cases later <;> simp at hlists
  | cons doc rest ih =>
      cases others with
      | nil => cases rest <;> simp at hlists
      | cons other later =>
          cases rest <;> cases later
          case nil.nil => simpa using hlists
          case nil.cons => simp at hlists
          case cons.nil => simp at hlists
          case cons.cons =>
              simp only [List.intersperse_cons_cons, List.cons.injEq, true_and] at hlists
              rw [hlists.1, ih hlists.2]

/-- Lists with the same separator are told apart by the documents in them. -/
theorem joined_inj {separator : Doc} {docs others : List Doc} :
    joined separator docs = joined separator others ↔ docs = others :=
  ⟨eq_of_joined_eq, congrArg (joined separator)⟩

end Doc

namespace TypeScript

/-- A field shows the document of its type. -/
theorem fieldDoc_inj {field other : Field} {value worth : Doc}
    (hsame : fieldDoc field value = fieldDoc other worth) : value = worth := by
  simp only [fieldDoc, Doc.concat.injEq, List.cons.injEq, and_true] at hsame
  exact hsame.2.2.2

/-- An object type shows its fields; one without any is written in another way. -/
theorem objectDoc_inj {terminator : Text} {fields others : List Doc}
    (hsame : objectDoc terminator fields = objectDoc terminator others) : fields = others := by
  cases fields <;> cases others
  case nil.nil => rfl
  case nil.cons => cases hsame
  case cons.nil => cases hsame
  case cons.cons =>
      simpa [objectDoc, Doc.groupOf_inj, Doc.indentOf_inj, Doc.joined_inj] using hsame

/-- A union shows its alternatives. -/
theorem unionDoc_inj {alternatives others : List Doc}
    (hsame : unionDoc alternatives = unionDoc others) : alternatives = others := by
  simpa [unionDoc, Doc.groupOf_inj, Doc.indentOf_inj, Doc.joined_inj] using hsame

end TypeScript

namespace PropTypes

/-- A field shows its validator. -/
theorem fieldDoc_inj {field other : Field} {value worth : Doc}
    (hsame : fieldDoc field value = fieldDoc other worth) : value = worth := by
  simp only [fieldDoc, Doc.concat.injEq, List.cons.injEq, true_and] at hsame
  exact hsame.2.1

/-- The validator of objects shows those of their fields. -/
theorem objectDoc_inj {fields others : List Doc} (hsame : objectDoc fields = objectDoc others) :
    fields = others := by
  cases fields <;> cases others
  case nil.nil => rfl
  case nil.cons => cases hsame
  case cons.nil => cases hsame
  case cons.cons =>
      simpa [objectDoc, Doc.groupOf_inj, Doc.indentOf_inj, Doc.joined_inj] using hsame

/-- A single alternative stands for itself, so that only unions of as many alternatives can be
told apart by these. -/
theorem unionDoc_inj {nullish : List Text} {alternatives others : List Doc}
    (hlength : alternatives.length = others.length)
    (hsame : unionDoc nullish alternatives = unionDoc nullish others) : alternatives = others := by
  match alternatives, others with
  | [], [] => rfl
  | [_], [_] => exact congrArg ([·]) hsame
  | first :: second :: later, other :: next :: last =>
      simpa [unionDoc, choiceDoc, Doc.groupOf_inj, Doc.indentOf_inj, Doc.joined_inj] using hsame

end PropTypes

namespace Dialect

variable (dialect : Dialect)

/-- An array shows what its elements are. -/
theorem arrayDoc_inj {element other : Doc}
    (hsame : dialect.arrayDoc element = dialect.arrayDoc other) : element = other := by
  cases dialect <;>
    simpa [arrayDoc, TypeScript.arrayDoc, PropTypes.arrayDoc, Doc.groupOf_inj, Doc.indentOf_inj]
      using hsame

/-- An object type shows the documents of its fields. -/
theorem docs_eq_of_objectDoc_eq (style : Style) {fields others : List (Field × Doc)}
    (hsame : dialect.objectDoc style fields = dialect.objectDoc style others) :
    fields.map Prod.snd = others.map Prod.snd := by
  cases dialect with
  | typeScript =>
      exact map_eq_of_map_eq (fun _ _ => TypeScript.fieldDoc_inj) (TypeScript.objectDoc_inj hsame)
  | propTypes =>
      exact map_eq_of_map_eq (fun _ _ => PropTypes.fieldDoc_inj) (PropTypes.objectDoc_inj hsame)

/-- A union shows the documents of its alternatives, but for those of nullish ones. -/
theorem docs_eq_of_unionDoc_eq {alternatives others : List (TypeExpr × Doc)}
    (halike : alternatives.map Prod.fst = others.map Prod.fst)
    (hsame : dialect.unionDoc alternatives = dialect.unionDoc others) :
    (alternatives.filter fun alternative => !alternative.1.isNullish).map Prod.snd =
      (others.filter fun alternative => !alternative.1.isNullish).map Prod.snd := by
  cases dialect with
  | typeScript =>
      have hdocs := TypeScript.unionDoc_inj hsame
      have hboth : alternatives = others :=
        (List.zip_of_prod halike hdocs).trans (List.zip_of_prod rfl rfl).symm
      rw [hboth]
  | propTypes =>
      rw [unionDoc, unionDoc, halike] at hsame
      have hlength : ∀ several : List (TypeExpr × Doc),
          ((several.filter fun alternative => !alternative.1.isNullish).map Prod.snd).length =
            ((several.map Prod.fst).filter fun expr => !expr.isNullish).length := by
        intro several
        rw [List.filter_map, List.length_map, List.length_map]
        rfl
      exact PropTypes.unionDoc_inj (by rw [hlength, hlength, halike]) hsame

end Dialect

/-! ## What a document writes -/

section

variable (dialect : Dialect) (style : Style) {refer other : Name → Doc}

/-- Nullish types hold no names. -/
theorem TypeExpr.references_of_isNullish {expr : TypeExpr} (hnullish : expr.isNullish = true) :
    expr.references = [] := by
  cases expr with
  | scalar kind => rfl
  | _ => cases hnullish

/-- The documents belong to the alternatives that they are for. -/
theorem map_fst_alternativeDocsWith (refer : Name → Doc) (alternatives : List TypeExpr) :
    (alternativeDocsWith dialect style refer alternatives).map Prod.fst = alternatives := by
  simp [alternativeDocsWith_eq_map, Function.comp_def]

mutual

/-- A document shows what stands in the place of each name. -/
theorem TypeExpr.refer_eq_of_docWith_eq (expr : TypeExpr)
    (hsame : expr.docWith dialect style refer = expr.docWith dialect style other) :
    ∀ name ∈ expr.references, refer name = other name := by
  cases expr with
  | reference name => exact List.forall_mem_singleton.mpr hsame
  | scalar kind => exact nofun
  | anyArray => exact nofun
  | array element => exact element.refer_eq_of_docWith_eq (dialect.arrayDoc_inj hsame)
  | object fields =>
      exact refer_eq_of_fieldDocs_eq fields (dialect.docs_eq_of_objectDoc_eq style hsame)
  | union alternatives =>
      refine refer_eq_of_alternativeDocs_eq alternatives (dialect.docs_eq_of_unionDoc_eq ?_ hsame)
      rw [map_fst_alternativeDocsWith, map_fst_alternativeDocsWith]

/-- Fields show what stands in the place of each name. -/
theorem refer_eq_of_fieldDocs_eq (fields : List (Field × TypeExpr))
    (hsame : (fieldDocsWith dialect style refer fields).map Prod.snd =
      (fieldDocsWith dialect style other fields).map Prod.snd) :
    ∀ name ∈ fieldReferences fields, refer name = other name := by
  cases fields with
  | nil => exact nofun
  | cons field rest =>
      obtain ⟨hhere, hlater⟩ := List.cons.inj hsame
      exact List.forall_mem_append.mpr
        ⟨field.2.refer_eq_of_docWith_eq hhere, refer_eq_of_fieldDocs_eq rest hlater⟩

/-- Alternatives do, too: the ones that are left out of a union have no names in them. -/
theorem refer_eq_of_alternativeDocs_eq (alternatives : List TypeExpr)
    (hsame : ((alternativeDocsWith dialect style refer alternatives).filter
        fun alternative => !alternative.1.isNullish).map Prod.snd =
      ((alternativeDocsWith dialect style other alternatives).filter
        fun alternative => !alternative.1.isNullish).map Prod.snd) :
    ∀ name ∈ alternativeReferences alternatives, refer name = other name := by
  cases alternatives with
  | nil => exact nofun
  | cons expr rest =>
      rw [alternativeDocsWith, alternativeDocsWith] at hsame
      cases hnullish : expr.isNullish with
      | true =>
          rw [List.filter_cons_of_neg (by simp [hnullish]),
            List.filter_cons_of_neg (by simp [hnullish])] at hsame
          rw [alternativeReferences, TypeExpr.references_of_isNullish hnullish, List.nil_append]
          exact refer_eq_of_alternativeDocs_eq rest hsame
      | false =>
          rw [List.filter_cons_of_pos (by simp [hnullish]),
            List.filter_cons_of_pos (by simp [hnullish])] at hsame
          obtain ⟨hhere, hlater⟩ := List.cons.inj hsame
          exact List.forall_mem_append.mpr
            ⟨expr.refer_eq_of_docWith_eq hhere, refer_eq_of_alternativeDocs_eq rest hlater⟩

end

/-- **Every name shows.**  Documents in which names are replaced are equal exactly when the same
is put in the place of each name of the expression. -/
theorem TypeExpr.docWith_eq_iff (expr : TypeExpr) :
    expr.docWith dialect style refer = expr.docWith dialect style other ↔
      ∀ name ∈ expr.references, refer name = other name :=
  ⟨expr.refer_eq_of_docWith_eq dialect style, expr.docWith_congr dialect style⟩

/-- The document of an expression writes exactly some names: they stand in it as they are, and
with other documents in their places it is another one, while no other name makes a difference. -/
structure TypeExpr.WritesNames (dialect : Dialect) (style : Style) (expr : TypeExpr)
    (names : List Name) : Prop where
  bare : expr.doc dialect style = expr.docWith dialect style .text
  shown : ∀ refer other, expr.docWith dialect style refer = expr.docWith dialect style other ↔
    ∀ name ∈ names, refer name = other name

/-- **Names.**  A document writes the references of its expression. -/
theorem TypeExpr.writesNames_references (expr : TypeExpr) :
    expr.WritesNames dialect style expr.references where
  bare := (expr.docWith_text dialect style).symm
  shown _ _ := expr.docWith_eq_iff dialect style

end

end Exemplar
