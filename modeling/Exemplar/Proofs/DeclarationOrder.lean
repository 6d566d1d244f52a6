import Exemplar.Proofs.Mentions
import Exemplar.Proofs.References
import Mathlib.Order.Nat

/-!
# The order of declarations

A program declares every named type, and every root without a name of its own, if
something is known of it.  TypeScript declares them in the order of `typeNames`.
Validators are constants, so theirs stand behind the constants that they read
wherever that is possible, and `dependenciesFirst` finds such an order by a walk along
references that leaves a name after all that it mentions.

The walk may meet a name that is still open, that is, entered and not left.  Every
open name leads to the one that is visited (`IsPath`), so the two then lead to each other,
and no order could serve them both.  `IsWalk` is what every visit keeps; `visit_visits` is
the step for one name, and `dependencies_declared_first` the result for whole programs.
-/

namespace Exemplar

/-! ## Type names -/

namespace Model

/-- The roots of which something is known are appended, each of them once. -/
private theorem foldl_typeNames (model : Model) (roots names : List Name) :
    let all := roots.foldl (fun names root =>
      if !names.contains root && model.has root then names ++ [root] else names) names
    (names.Nodup → all.Nodup) ∧
      ∀ name, name ∈ all ↔ name ∈ names ∨ name ∈ roots ∧ model.has name = true := by
  induction roots generalizing names with
  | nil => simp
  | cons root rest ih =>
      by_cases hnew : root ∉ names ∧ model.has root = true
      · have hgiven : (!names.contains root && model.has root) = true := by
          simpa using hnew
        obtain ⟨hnodup, hmem⟩ := ih (names ++ [root])
        simp only [List.foldl_cons, hgiven, if_true]
        refine ⟨fun hnames => hnodup ?_, fun name => (hmem name).trans ?_⟩
        · have hapart : ∀ name ∈ names, name ≠ root := fun name hname heq => hnew.1 (heq ▸ hname)
          simpa [List.nodup_append] using ⟨hnames, hapart⟩
        · have hroot : name = root ∧ model.has name = true ↔ name = root :=
            and_iff_left_of_imp fun heq => heq ▸ hnew.2
          rw [List.mem_append, List.mem_singleton, List.mem_cons, or_and_right, hroot, or_assoc]
      · have hgiven : ¬ (!names.contains root && model.has root) = true := by
          simpa using hnew
        obtain ⟨hnodup, hmem⟩ := ih names
        simp only [List.foldl_cons, hgiven]
        refine ⟨hnodup, fun name => (hmem name).trans ?_⟩
        have hroot : name = root ∧ model.has name = true → name ∈ names := by
          rintro ⟨rfl, hknown⟩
          exact Decidable.byContradiction fun hother => hnew ⟨hother, hknown⟩
        rw [List.mem_cons, or_and_right, ← or_assoc, or_iff_left_of_imp hroot]

/-- No type name is listed twice. -/
theorem nodup_typeNames (model : Model) : model.typeNames.Nodup :=
  (foldl_typeNames model model.roots model.named.keys.reverse).1
    ((List.reverse_perm _).nodup_iff.mpr model.named.nodup_keys)

/-- Type names are the named types and the roots of which something is known. -/
theorem mem_typeNames_iff (model : Model) (name : Name) :
    name ∈ model.typeNames ↔
      model.isNamed name = true ∨ name ∈ model.roots ∧ model.has name = true := by
  refine ((foldl_typeNames model model.roots model.named.keys.reverse).2 name).trans ?_
  rw [List.mem_reverse, isNamed, model.named.contains_iff]

/-- Declared are the type names of which something is known. -/
theorem mem_declaredNames_iff (model : Model) (name : Name) :
    name ∈ model.declaredNames ↔ name ∈ model.typeNames ∧ model.has name = true :=
  List.mem_filter

/-- One name leads to another one along references. -/
def Reaches (model : Model) : Name → Name → Prop :=
  Relation.ReflTransGen fun name mention => mention ∈ model.references name

end Model

/-! ## Visits -/

namespace PropTypes

variable {model : Model} {declared opened : List Name} {name : Name} {walk : Walk}

/-- The names that are open around a visit: declared, each of them once, and all of them lead to
the name that is visited. -/
structure IsPath (model : Model) (declared opened : List Name) (name : Name) : Prop where
  nodup : opened.Nodup
  declared : ∀ other ∈ opened, other ∈ declared
  above : ∀ other ∈ opened, model.Reaches other name

/-- Nothing is open at first. -/
theorem IsPath.nil (model : Model) (declared : List Name) (name : Name) :
    IsPath model declared [] name :=
  ⟨.nil, by simp, by simp⟩

/-- A name that is entered is open around those that it mentions. -/
theorem IsPath.cons {mention : Name} (hpath : IsPath model declared opened name)
    (hfresh : name ∉ opened) (hname : name ∈ declared)
    (hmention : mention ∈ model.references name) :
    IsPath model declared (name :: opened) mention where
  nodup := List.nodup_cons.mpr ⟨hfresh, hpath.nodup⟩
  declared := List.forall_mem_cons.mpr ⟨hname, hpath.declared⟩
  above := List.forall_mem_cons.mpr
    ⟨.single hmention, fun other hother => (hpath.above other hother).tail hmention⟩

/-- There are no more open names than declared ones. -/
theorem IsPath.length_le (hpath : IsPath model declared opened name) :
    opened.length ≤ declared.length :=
  (hpath.nodup.subperm hpath.declared).length_le

/-- What a walk keeps while some names are open: those entered are open or were left, and a name
was left after those that it mentions, unless they lead back to it. -/
structure IsWalk (model : Model) (declared opened : List Name) (walk : Walk) : Prop where
  entered_iff : ∀ name, name ∈ walk.entered ↔ name ∈ opened ∨ name ∈ walk.left
  left_closed : ∀ name ∈ opened, name ∉ walk.left
  left_nodup : walk.left.Nodup
  left_declared : ∀ name ∈ walk.left, name ∈ declared
  ordered : ∀ name ∈ walk.left, ∀ mention ∈ model.references name, mention ∈ declared →
    ¬ model.Reaches mention name → [mention, name].Sublist walk.left

/-- A walk starts with nothing entered and nothing left. -/
theorem IsWalk.start (model : Model) (declared : List Name) : IsWalk model declared [] {} where
  entered_iff _ := by simp
  left_closed _ hname := absurd hname List.not_mem_nil
  left_nodup := .nil
  left_declared _ hname := absurd hname List.not_mem_nil
  ordered _ hname := absurd hname List.not_mem_nil

/-- A name that is entered is open. -/
theorem IsWalk.enter (hwalk : IsWalk model declared opened walk) (hfresh : name ∉ walk.entered) :
    IsWalk model declared (name :: opened) { walk with entered := name :: walk.entered } where
  entered_iff other := by
    rw [List.mem_cons, List.mem_cons, hwalk.entered_iff, or_assoc]
  left_closed := List.forall_mem_cons.mpr
    ⟨fun hleft => hfresh ((hwalk.entered_iff name).mpr (.inr hleft)), hwalk.left_closed⟩
  left_nodup := hwalk.left_nodup
  left_declared := hwalk.left_declared
  ordered := hwalk.ordered

/-- A name is left when all declared names that it mentions were entered. -/
theorem IsWalk.leave (hwalk : IsWalk model declared (name :: opened) walk)
    (hpath : IsPath model declared opened name) (hfresh : name ∉ opened) (hname : name ∈ declared)
    (hmentions : ∀ mention ∈ model.references name, mention ∈ declared → mention ∈ walk.entered) :
    IsWalk model declared opened { walk with left := walk.left ++ [name] } where
  entered_iff other := by
    rw [hwalk.entered_iff, List.mem_cons, List.mem_append, List.mem_singleton]
    exact or_assoc.trans (or_comm.trans or_assoc)
  left_closed other hother := by
    have hleft := hwalk.left_closed other (List.mem_cons_of_mem name hother)
    have hdistinct : other ≠ name := fun heq => hfresh (heq ▸ hother)
    simp [hleft, hdistinct]
  left_nodup := by
    have hapart : ∀ other ∈ walk.left, other ≠ name := fun other hleft heq =>
      hwalk.left_closed name List.mem_cons_self (heq ▸ hleft)
    simpa [List.nodup_append] using ⟨hwalk.left_nodup, hapart⟩
  left_declared other hother := by
    rcases List.mem_append.mp hother with hleft | hlast
    · exact hwalk.left_declared other hleft
    · exact List.mem_singleton.mp hlast ▸ hname
  ordered other hother mention hmention hdeclared hback := by
    rcases List.mem_append.mp hother with hleft | hlast
    · have hbefore := hwalk.ordered other hleft mention hmention hdeclared hback
      exact hbefore.trans (List.sublist_append_left walk.left [name])
    · obtain rfl := List.mem_singleton.mp hlast
      -- An open name leads to this one, so what leads not to it was left.
      have hclosed : mention ∉ other :: opened := by
        intro hopen
        rcases List.mem_cons.mp hopen with rfl | hopen
        · exact hback .refl
        · exact hback (hpath.above mention hopen)
      have hentered := hmentions mention hmention hdeclared
      have hleft : mention ∈ walk.left :=
        ((hwalk.entered_iff mention).mp hentered).resolve_left hclosed
      exact (List.singleton_sublist.mpr hleft).append (List.Sublist.refl [other])

/-- Some names are entered on the way from one state of a walk to another. -/
structure Visits (model : Model) (declared opened : List Name) (names : List Name)
    (walk after : Walk) : Prop where
  isWalk : IsWalk model declared opened after
  entered : ∀ name ∈ names, name ∈ after.entered
  kept : ∀ name ∈ walk.entered, name ∈ after.entered

/-- Visits one after the other. -/
theorem Visits.foldl {names : List Name} {step : Walk → Name → Walk}
    (hstep : ∀ name ∈ names, ∀ walk, IsWalk model declared opened walk →
      Visits model declared opened [name] walk (step walk name))
    (hwalk : IsWalk model declared opened walk) :
    Visits model declared opened names walk (names.foldl step walk) := by
  induction names generalizing walk with
  | nil => exact ⟨hwalk, by simp, fun _ hname => hname⟩
  | cons name rest ih =>
      have hfirst := hstep name List.mem_cons_self walk hwalk
      have hrest := ih (fun other hother => hstep other (List.mem_cons_of_mem name hother))
        hfirst.isWalk
      have hname := hfirst.entered name (List.mem_singleton_self name)
      exact ⟨hrest.isWalk, List.forall_mem_cons.mpr ⟨hrest.kept name hname, hrest.entered⟩,
        fun other hother => hrest.kept other (hfirst.kept other hother)⟩

/-- **One visit.**  With fuel for all names that are not open, a visit enters its name and keeps
what a walk keeps. -/
theorem visit_visits {fuel : Nat} (hwalk : IsWalk model declared opened walk)
    (hpath : IsPath model declared opened name) (hname : name ∈ declared)
    (hfuel : declared.length < opened.length + fuel) :
    Visits model declared opened [name] walk (visit model declared fuel walk name) := by
  induction fuel generalizing opened walk name with
  | zero =>
      have hle := hpath.length_le
      omega
  | succ fuel ih =>
      unfold visit
      by_cases hentered : name ∈ walk.entered
      · rw [if_pos (List.contains_iff_mem.mpr hentered)]
        exact ⟨hwalk, List.forall_mem_singleton.mpr hentered, fun _ hother => hother⟩
      rw [if_neg fun hgiven => hentered (List.contains_iff_mem.mp hgiven)]
      have hfresh : name ∉ opened := fun hopen =>
        hentered ((hwalk.entered_iff name).mpr (.inl hopen))
      have hinner : Visits model declared (name :: opened)
          ((model.references name).filter declared.contains)
          { walk with entered := name :: walk.entered }
          (((model.references name).filter declared.contains).foldl (visit model declared fuel)
            { walk with entered := name :: walk.entered }) := by
        refine Visits.foldl (fun mention hmention before hbefore => ?_) (hwalk.enter hentered)
        obtain ⟨hmention, hdeclared⟩ := List.mem_filter.mp hmention
        refine ih hbefore (hpath.cons hfresh hname hmention) (by simpa using hdeclared) ?_
        rw [List.length_cons]
        omega
      refine ⟨hinner.isWalk.leave hpath hfresh hname fun mention hmention hdeclared => ?_, ?_, ?_⟩
      · exact hinner.entered mention (List.mem_filter.mpr ⟨hmention, by simpa using hdeclared⟩)
      · exact List.forall_mem_singleton.mpr (hinner.kept name List.mem_cons_self)
      · exact fun other hother => hinner.kept other (List.mem_cons_of_mem name hother)

/-! ## The whole walk -/

/-- The whole walk enters every declared name. -/
theorem visits_dependenciesFirst (model : Model) (declared : List Name) :
    ∃ walk, Visits model declared [] declared {} walk ∧
      walk.left = dependenciesFirst model declared := by
  refine ⟨_, Visits.foldl (fun name hname walk hwalk => ?_) (.start model declared), rfl⟩
  exact visit_visits hwalk (.nil model declared name) hname (by simp)

/-- No name is left twice. -/
theorem nodup_dependenciesFirst (model : Model) (declared : List Name) :
    (dependenciesFirst model declared).Nodup := by
  obtain ⟨walk, hvisits, hleft⟩ := visits_dependenciesFirst model declared
  exact hleft ▸ hvisits.isWalk.left_nodup

/-- Exactly the declared names are left. -/
theorem mem_dependenciesFirst_iff (model : Model) (declared : List Name) (name : Name) :
    name ∈ dependenciesFirst model declared ↔ name ∈ declared := by
  obtain ⟨walk, hvisits, hleft⟩ := visits_dependenciesFirst model declared
  rw [← hleft]
  constructor
  · exact hvisits.isWalk.left_declared name
  · intro hname
    have hentered := (hvisits.isWalk.entered_iff name).mp (hvisits.entered name hname)
    exact hentered.resolve_left List.not_mem_nil

/-- A name stands behind those that it mentions, unless they lead back to it. -/
theorem sublist_dependenciesFirst {mention : Name} (hname : name ∈ declared)
    (hmention : mention ∈ model.references name) (hdeclared : mention ∈ declared)
    (hback : ¬ model.Reaches mention name) :
    [mention, name].Sublist (dependenciesFirst model declared) := by
  have hleft := (mem_dependenciesFirst_iff model declared name).mpr hname
  obtain ⟨walk, hvisits, hwalk⟩ := visits_dependenciesFirst model declared
  rw [← hwalk] at hleft ⊢
  exact hvisits.isWalk.ordered name hleft mention hmention hdeclared hback

end PropTypes

/-! ## Programs -/

namespace Model

variable {model : Model}

/-- Both dialects declare each type name of which something is known once. -/
theorem nodup_declarationOrder (model : Model) (dialect : Dialect) :
    (model.declarationOrder dialect).Nodup := by
  cases dialect with
  | typeScript => exact model.nodup_typeNames.filter _
  | propTypes => exact PropTypes.nodup_dependenciesFirst model model.declaredNames

/-- Both dialects declare exactly the type names of which something is known. -/
theorem mem_declarationOrder_iff (model : Model) (dialect : Dialect) (name : Name) :
    name ∈ model.declarationOrder dialect ↔
      name ∈ model.typeNames ∧ model.has name = true := by
  cases dialect with
  | typeScript => exact model.mem_declaredNames_iff name
  | propTypes =>
      exact (PropTypes.mem_dependenciesFirst_iff model model.declaredNames name).trans
        (model.mem_declaredNames_iff name)

/-- **Dependencies first.**  In a model in which every cycle of fields passes through a named type,
the validators are those of the type names of which something is known, each of them once.  The
document of a validator writes the names of no other types than itself and its references, and it
is declared after each of them that does not lead back to it. -/
theorem dependencies_declared_first (hguarded : model.Guarded) :
    (model.declarationOrder .propTypes).Nodup ∧
      (∀ name, name ∈ model.declarationOrder .propTypes ↔
        name ∈ model.typeNames ∧ model.has name = true) ∧
      ∀ name ∈ model.declarationOrder .propTypes, ∃ expr,
        model.expand? false name = some expr ∧
        (∀ style, model.doc? .propTypes style false name = some (PropTypes.doc expr) ∧
          expr.WritesNames .propTypes style expr.references) ∧
        ∀ mention ∈ expr.references,
          (mention = name ∨ mention ∈ model.references name) ∧
          (mention ∈ model.declarationOrder .propTypes → mention ≠ name →
            ¬ model.Reaches mention name →
            [mention, name].Sublist (model.declarationOrder .propTypes)) := by
  refine ⟨nodup_declarationOrder model .propTypes, mem_declarationOrder_iff model .propTypes, ?_⟩
  intro name hname
  obtain ⟨expr, hexpr⟩ := exists_expand? hguarded false name
  refine ⟨expr, hexpr, fun style => ⟨doc?_of_expand? hexpr .propTypes style,
    expr.writesNames_references .propTypes style⟩, fun mention hmention => ?_⟩
  have hmentions : model.Mentions name mention := mentions_of_mem_references hexpr hmention
  refine ⟨?_, fun hdeclared hother hback => ?_⟩
  · by_cases hself : mention = name
    · exact .inl hself
    · exact .inr ((mem_references_iff model name mention).mpr ⟨hself, hmentions⟩)
  · have hreference := (mem_references_iff model name mention).mpr ⟨hother, hmentions⟩
    rw [declarationOrder, PropTypes.mem_dependenciesFirst_iff] at hname hdeclared
    exact PropTypes.sublist_dependenciesFirst hname hreference hdeclared hback

/-- A person in a team that is led by a person, and an office whose staff are persons. -/
def office : Model :=
  let person : Shape := .insert .empty "team" { key := "Team", required := false }
  let team : Shape := .insert .empty "lead" { key := "Person" }
  let office : Shape := .insert .empty "staff" { key := "Office.staff" }
  ((({} : Model).register "Person" 1).register "Team" 1).register "Office" 2
    |>.setShape "Person" .object person
    |>.setShape "Team" .object team
    |>.setShape "Office" .object office
    |>.setShape "Office.staff" .array (.ofElement "Person")

/-- Persons and teams mention each other; the office that mentions persons comes behind them. -/
theorem office_declared_last :
    office.Guarded ∧
      office.declarationOrder .propTypes = ["Team".toList, "Person".toList, "Office".toList] ∧
      ∃ expr, office.expand? false "Office" = some expr ∧
        expr.WritesNames .propTypes {} ["Person".toList] ∧
        (office.doc? .propTypes {} false "Office").map (Doc.layoutExpression {}) =
          some "PropTypes.shape(\x7b staff: PropTypes.arrayOf(Person).isRequired \x7d)".toList ∧
        "Person".toList ∈ office.references "Office" ∧
        ["Person".toList, "Office".toList].Sublist (office.declarationOrder .propTypes) := by
  have hguarded : office.Guarded := guarded_of_rank List.length (by decide +kernel)
  obtain ⟨-, -, hdeclared⟩ := dependencies_declared_first hguarded
  obtain ⟨expr, hexpr, hdocs, hmentions⟩ := hdeclared "Office" (by decide +kernel)
  obtain ⟨-, hwrites⟩ := hdocs {}
  have hnames : (office.expand? false "Office").map TypeExpr.references =
      some ["Person".toList] := by decide +kernel
  rw [hexpr, Option.map_some, Option.some.injEq] at hnames
  rw [hnames] at hwrites hmentions
  obtain ⟨hreference, hbefore⟩ := hmentions "Person" List.mem_cons_self
  -- Persons and teams lead to nothing but each other.
  have hclosed : ∀ name, office.Reaches "Person" name →
      name ∈ ["Person".toList, "Team".toList] := by
    intro name hway
    induction hway with
    | refl => exact List.mem_cons_self
    | tail _ hstep ih =>
        have hall : ∀ name ∈ ["Person".toList, "Team".toList], ∀ mention ∈ office.references name,
            mention ∈ ["Person".toList, "Team".toList] := by decide +kernel
        exact hall _ ih _ hstep
  refine ⟨hguarded, by decide +kernel, expr, hexpr, hwrites, by decide +kernel,
    hreference.resolve_left (by decide), ?_⟩
  exact hbefore (by decide +kernel) (by decide) fun hback =>
    absurd (hclosed _ hback) (by decide)

end Model

end Exemplar
