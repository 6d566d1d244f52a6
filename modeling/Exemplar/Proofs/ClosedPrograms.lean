import Exemplar.Proofs.DeclarationOrder
import Exemplar.Proofs.Layout.Statements
import Exemplar.Proofs.WellFormed

/-!
# Programs are closed

Whether a name is written for a type is decided by what is named, and whether the type
is declared by what is named and known.  A name is registered before anything is known
of it, so that the two agree only after whole batches: then objects of every named type
were seen, whatever the naming and however many batches failed in between
(`Builder.WellFormed`).

`declarations_closed` says what follows for programs in both dialects.  A program consists of
its preamble and of declarations, each laid out by itself.  All types that a declaration mentions
are declared, each of them once.
-/

namespace Exemplar

/-- The word in front of the name that a declaration is for. -/
def Dialect.keyword : Dialect → Text
  | typeScript => "type "
  | propTypes => "const "

/-- A declaration assigns a body to a name. -/
theorem Dialect.declaration_eq (dialect : Dialect) (name : Name) (body : Doc) :
    dialect.declaration name body =
      .concat [.text dialect.keyword, .text name, " = ", body] := by
  cases dialect <;> rfl

namespace Model

variable {model : Model}

/-- Something is known of the types that were registered. -/
def Recorded (model : Model) : Prop :=
  ∀ name, model.isNamed name = true → model.has name = true

/-- All named types are declared, and the roots of which something is known. -/
theorem Recorded.mem_declarationOrder_iff (hrecorded : model.Recorded) (dialect : Dialect)
    (name : Name) :
    name ∈ model.declarationOrder dialect ↔
      model.isNamed name = true ∨ name ∈ model.roots ∧ model.has name = true := by
  rw [Model.mem_declarationOrder_iff, mem_typeNames_iff]
  constructor
  · exact And.left
  · intro hgiven
    refine ⟨hgiven, ?_⟩
    rcases hgiven with hnamed | ⟨-, hknown⟩
    · exact hrecorded name hnamed
    · exact hknown

/-- A type is declared by what it is spelled out as. -/
theorem exists_declarations (hguarded : model.Guarded) (dialect : Dialect) (style : Style) :
    ∃ declarations, model.declarations? dialect style = some declarations ∧
      List.Forall₂ (fun name declaration => ∃ expr, model.expand? false name = some expr ∧
        declaration = dialect.declaration name (expr.doc dialect style))
        (model.declarationOrder dialect) declarations := by
  have hall : ∀ name ∈ model.declarationOrder dialect, ∃ declaration, ∃ expr,
      model.expand? false name = some expr ∧
        declaration = dialect.declaration name (expr.doc dialect style) := by
    intro name _
    obtain ⟨expr, hexpr⟩ := exists_expand? hguarded false name
    exact ⟨_, expr, hexpr, rfl⟩
  obtain ⟨declarations, hdeclarations⟩ := exists_forall₂ hall
  refine ⟨declarations, mapM_eq_some_iff.mpr (hdeclarations.imp ?_), hdeclarations⟩
  rintro name _ ⟨expr, hexpr, rfl⟩
  rw [doc?_of_expand? hexpr]
  rfl

/-- The text of a program: its preamble and its declarations, each laid out by itself. -/
theorem renderNamed?_of_declarations {dialect : Dialect} {style : Style} {declarations : List Doc}
    (hdeclarations : model.declarations? dialect style = some declarations) :
    model.renderNamed? dialect style = some
      (if declarations = [] then []
      else Text.unlines ((dialect.preamble ++ declarations).map (Doc.layoutStatement style)) ++
        ['\n']) := by
  rw [renderNamed?_eq hdeclarations]
  by_cases hnone : declarations = []
  · rw [if_pos hnone, if_pos hnone]
    rfl
  · rw [if_neg hnone, if_neg hnone, Doc.layoutProgram_eq style (by simp [hnone])]

end Model

/-- What batches leave behind is recorded: objects of every named type were seen. -/
theorem Builder.WellFormed.recorded {builder : Builder} (hwell : builder.WellFormed) :
    builder.model.Recorded := by
  intro name hnamed
  obtain ⟨shape, hshape⟩ := hwell.objects name hnamed
  exact (Model.has_iff _ name).mpr ⟨.object, shape, hshape⟩

/-- **Programs are closed.**  Take any builder that batches lead to, successful or not, in whose
model every cycle of fields passes through a named type.  In both dialects a program declares all
named types, and all roots of which something is known, each of them once and nothing else.  Its
text is that of the declarations behind what the dialect starts with.  The declaration of a type
begins with the keyword and the name, assigns the document of the type as it is spelled out, and
writes no name in it that is not declared. -/
theorem declarations_closed {builder : Builder} (hreached : builder.Reachable)
    (hguarded : builder.model.Guarded) (dialect : Dialect) (style : Style) :
    let model := builder.model
    let declared := model.declarationOrder dialect
    declared.Nodup ∧
      (∀ name, name ∈ declared ↔
        model.isNamed name = true ∨ name ∈ model.roots ∧ model.has name = true) ∧
      ∃ declarations, model.declarations? dialect style = some declarations ∧
        model.renderNamed? dialect style = some
          (if declarations = [] then []
          else Text.unlines ((dialect.preamble ++ declarations).map (Doc.layoutStatement style)) ++
            ['\n']) ∧
        List.Forall₂ (fun name declaration => ∃ expr,
          model.expand? false name = some expr ∧
          declaration =
            .concat [.text dialect.keyword, .text name, " = ", expr.doc dialect style] ∧
          expr.WritesNames dialect style expr.references ∧
          ∀ mention ∈ expr.references, mention ∈ declared) declared declarations := by
  intro model declared
  have hmem := hreached.wellFormed.recorded.mem_declarationOrder_iff dialect
  obtain ⟨declarations, hdeclarations, hall⟩ := Model.exists_declarations hguarded dialect style
  have htext := Model.renderNamed?_of_declarations hdeclarations
  refine ⟨model.nodup_declarationOrder dialect, hmem, declarations, hdeclarations, htext,
    hall.imp ?_⟩
  rintro name _ ⟨expr, hexpr, rfl⟩
  refine ⟨expr, hexpr, dialect.declaration_eq name _, expr.writesNames_references dialect style,
    fun mention hmention => (hmem mention).mpr (.inl ?_)⟩
  exact (Model.mentions_of_mem_references hexpr hmention).1

/-- Persons in teams that are led by persons, a batch that a person without a team keeps out, a
root that is no object, and one of which nothing is known. -/
def guild : List Delivery :=
  [{ naming :=
       { given := .ofList [("Person.team", "Team"), ("Team.lead", "Person")]
         generator := none
         root := some "Person" }
     examples := { samples := [.object [("name", .scalar .string), ("team",
       .object [("lead", .object [("name", .scalar .null), ("team", .scalar .null)])])]] } },
   { naming := { generator := none, root := some "Person" }
     strict := true
     examples := { samples := [.object [("name", .scalar .string)]] } },
   { naming :=
       { given := .ofList [("People[]", "Person"), ("Person.team", "Team")]
         generator := none
         root := some "People" }
     examples := { samples := [.array [.object [("team", .scalar .null)]]] } },
   { naming := { root := some "Nobody" }, examples := { samples := [] } }]

/-- The program declares persons, teams and people with the names in them, and nothing for the root
of which nothing is known. -/
theorem declarations_closed_guild :
    let model := (Builder.afterAll {} guild).model
    model.Guarded ∧
      model.declarationOrder .propTypes = ["Person".toList, "Team".toList, "People".toList] ∧
      "Nobody".toList ∈ model.roots ∧ "Nobody".toList ∉ model.declarationOrder .propTypes ∧
      (∃ person team people : TypeExpr,
        model.declarations? .propTypes {} = some
          [.concat ["const ", "Person", " = ", person.doc .propTypes {}],
            .concat ["const ", "Team", " = ", team.doc .propTypes {}],
            .concat ["const ", "People", " = ", people.doc .propTypes {}]] ∧
        person.WritesNames .propTypes {} ["Team".toList] ∧
        team.WritesNames .propTypes {} ["Person".toList] ∧
        people.WritesNames .propTypes {} ["Person".toList]) ∧
      model.renderNamed? .propTypes {} = some (Text.unlines
        ["import PropTypes from \"prop-types\"",
          "const Person = PropTypes.shape(\x7b name: PropTypes.string, team: Team \x7d)",
          "const Team = PropTypes.shape(\x7b lead: Person.isRequired \x7d)",
          "const People = PropTypes.arrayOf(Person)", ""]) := by
  intro model
  have hreached : (Builder.afterAll {} guild).Reachable := Builder.Reachable.start.afterAll guild
  have hguarded : model.Guarded := Model.guarded_of_rank List.length (by decide +kernel)
  obtain ⟨-, hmem, declarations, hdeclarations, -, hall⟩ :=
    declarations_closed hreached hguarded .propTypes {}
  have horder : model.declarationOrder .propTypes =
      ["Person".toList, "Team".toList, "People".toList] := by
    decide +kernel
  refine ⟨hguarded, horder, by decide +kernel, ?_, ?_, by decide +kernel⟩
  · intro hdeclared
    rcases (hmem "Nobody").mp hdeclared with hnamed | ⟨-, hknown⟩
    · exact absurd hnamed (by decide +kernel)
    · exact absurd hknown (by decide +kernel)
  · have hnames : ∀ name mentions, (model.expand? false name).map TypeExpr.references =
        some mentions → ∀ expr, model.expand? false name = some expr →
        expr.references = mentions := by
      intro name mentions hfound expr hexpr
      rwa [hexpr, Option.map_some, Option.some.injEq] at hfound
    rw [horder] at hall
    obtain ⟨_, _, ⟨person, hperson, rfl, hpersonWrites, -⟩, hlater, rfl⟩ :=
      List.forall₂_cons_left_iff.mp hall
    obtain ⟨_, _, ⟨team, hteam, rfl, hteamWrites, -⟩, hlast, rfl⟩ :=
      List.forall₂_cons_left_iff.mp hlater
    obtain ⟨_, _, ⟨people, hpeople, rfl, hpeopleWrites, -⟩, hnone, rfl⟩ :=
      List.forall₂_cons_left_iff.mp hlast
    obtain rfl := List.forall₂_nil_left_iff.mp hnone
    rw [hnames "Person" ["Team"] (by decide +kernel) person hperson] at hpersonWrites
    rw [hnames "Team" ["Person"] (by decide +kernel) team hteam] at hteamWrites
    rw [hnames "People" ["Person"] (by decide +kernel) people hpeople] at hpeopleWrites
    exact ⟨person, team, people, hdeclarations, hpersonWrites, hteamWrites, hpeopleWrites⟩

end Exemplar
