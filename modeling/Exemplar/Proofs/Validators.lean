import Exemplar.Proofs.Acceptance
import Exemplar.Proofs.ClosedPrograms

/-!
# Validators admit what the model accepts

The validators of `prop-types` are written for people and checked by machines, and what
they check is not quite what the model knows: a validator without `.isRequired` lets the
absence of a value pass, whether `null` was ever seen or not, and members that it does
not list are not looked at.  So validators may only be more generous than the model.

A `Validator` is what a text spells out.  `Validator.doc` writes the calls of the library down as
its users do, and `doc_validator` says that types are written as the validators that
`TypeExpr.validator` makes of them.  `Validator.Passes` is the check
that the library runs, with the constants resolved by a table.  Acceptance and validation
go down a value together, so `passes_of_accepts` is an induction on acceptance with one
case for each kind of values; `validators_admit_accepted` adds what the declarations are
and which members are required.
-/

namespace Exemplar

/-! ## Validators and their texts -/

/-- The outside of a member that a validator of objects checks. -/
structure CheckedMember where
  /-- The name of the member. -/
  name : Text
  /-- Whether `.isRequired` follows the validator of the member. -/
  required : Bool
deriving DecidableEq, Repr

/-- A validator as it is spelled out. -/
inductive Validator where
  /-- A declared constant. -/
  | constant (name : Name)
  /-- The validator of values without parts. -/
  | scalar (kind : Scalar)
  /-- `oneOf` with the values that stand for the absence of a value. -/
  | oneOf (kinds : List Scalar)
  /-- `oneOfType`. -/
  | oneOfType (alternatives : List Validator)
  /-- `array`. -/
  | anyArray
  /-- `arrayOf`. -/
  | arrayOf (element : Validator)
  /-- `shape`. -/
  | shape (members : List (CheckedMember × Validator))
deriving Repr

/-- A member of an object with its validator. -/
def CheckedMember.doc (member : CheckedMember) (value : Doc) : Doc :=
  .concat [.text (fieldKey member.name), ": ", value,
    .text (if member.required then ".isRequired" else "")]

namespace Validator

/-- The text of a validator of values without parts. -/
def scalarText : Scalar → Text
  | .null => "PropTypes.oneOf([null])"
  | .boolean => "PropTypes.bool"
  | .number => "PropTypes.number"
  | .string => "PropTypes.string"
  | .function => "PropTypes.func"
  | .undefined => "PropTypes.oneOf([undefined])"
  | .unknown => "PropTypes.any"

/-- Documents between brackets with commas between them: in one line with blanks inside the
brackets, or each in a line of its own with a comma behind the last one, too. -/
def listing (opening blank closing : Text) (items : List Doc) : Doc :=
  .group (.concat
    [.text opening,
      .indent (.concat [.line blank false,
        .concat (items.intersperse (.concat [",", .line " " false]))]),
      .ifBroken "," "", .line blank false, .text closing]) false

mutual

/-- A validator as a document. -/
def doc : Validator → Doc
  | .constant name => .text name
  | .scalar kind => .text (scalarText kind)
  | .oneOf kinds =>
      .concat ["PropTypes.oneOf([",
        .text ((kinds.map Scalar.name).intersperse ", ".toList).flatten, "])"]
  | .oneOfType alternatives => listing "PropTypes.oneOfType([" [] "])" (docs alternatives)
  | .anyArray => "PropTypes.array"
  | .arrayOf element =>
      .group (.concat
        ["PropTypes.arrayOf(", .indent (.concat [.line [] false, element.doc]), .line [] false,
          ")"]) false
  | .shape [] => "PropTypes.shape(\x7b\x7d)"
  | .shape (member :: rest) =>
      .concat ["PropTypes.shape(", listing "\x7b" " " "\x7d" (memberDocs (member :: rest)), ")"]

/-- Several validators as documents. -/
def docs : List Validator → List Doc
  | [] => []
  | validator :: rest => validator.doc :: docs rest

/-- The members of an object as documents. -/
def memberDocs : List (CheckedMember × Validator) → List Doc
  | [] => []
  | (member, value) :: rest => member.doc value.doc :: memberDocs rest

end

/-- The validator of several types, or of the absence of a value if there is none. -/
def ofChoices (nullish : List Scalar) : List Validator → Validator
  | [] => oneOf nullish
  | [choice] => choice
  | choices => oneOfType choices

/-- A choice is written as the union of its alternatives. -/
theorem doc_ofChoices (nullish : List Scalar) (choices : List Validator) :
    (ofChoices nullish choices).doc =
      PropTypes.unionDoc (nullish.map Scalar.name) (docs choices) := by
  match choices with
  | [] =>
      simp only [ofChoices, doc, docs, PropTypes.unionDoc]
      rfl
  | [choice] => simp only [ofChoices, docs, PropTypes.unionDoc]
  | first :: second :: later =>
      simp only [ofChoices, doc, docs, PropTypes.unionDoc]
      rfl

/-- A shape is written as an object type with its members. -/
theorem doc_shape (members : List (CheckedMember × Validator)) :
    (shape members).doc = PropTypes.objectDoc (memberDocs members) := by
  cases members with
  | nil =>
      rw [doc]
      rfl
  | cons member rest =>
      rw [doc]
      rfl

/-- The validators between which a validator chooses: the types that it names, or itself. -/
def choices : Validator → List Validator
  | oneOfType alternatives => alternatives
  | validator => [validator]

end Validator

/-! ## Types as validators -/

/-- What is checked of a field: it has to be there unless it is optional or may hold the absence
of a value. -/
def Field.checked (field : Field) : CheckedMember where
  name := field.name
  required := field.required && !field.nullable

namespace TypeExpr

/-- The nullish alternatives of a union. -/
def nullishKinds : List TypeExpr → List Scalar
  | [] => []
  | .scalar kind :: rest => if kind.isNullish then kind :: nullishKinds rest else nullishKinds rest
  | _ :: rest => nullishKinds rest

mutual

/-- The validator of a type. -/
def validator : TypeExpr → Validator
  | .reference name => .constant name
  | .scalar kind => .scalar kind
  | .anyArray => .anyArray
  | .array element => .arrayOf element.validator
  | .object fields => .shape (checkedMembers fields)
  | .union alternatives => .ofChoices (nullishKinds alternatives) (choiceValidators alternatives)

/-- The validators of the alternatives that are types of values. -/
def choiceValidators : List TypeExpr → List Validator
  | [] => []
  | expr :: rest =>
      if expr.isNullish then choiceValidators rest else expr.validator :: choiceValidators rest

/-- The members that the validator of an object type checks. -/
def checkedMembers : List (Field × TypeExpr) → List (CheckedMember × Validator)
  | [] => []
  | (field, value) :: rest => (field.checked, value.validator) :: checkedMembers rest

end

/-- Each field is checked by itself. -/
theorem checkedMembers_eq_map (fields : List (Field × TypeExpr)) :
    checkedMembers fields = fields.map fun field => (field.1.checked, field.2.validator) := by
  induction fields with
  | nil => rfl
  | cons field rest ih => rw [checkedMembers, ih, List.map_cons]

/-- The validator of an alternative is among the choices, unless it is nullish. -/
theorem mem_choiceValidators {exprs : List TypeExpr} {expr : TypeExpr} (hmem : expr ∈ exprs)
    (hvalue : expr.isNullish = false) : expr.validator ∈ choiceValidators exprs := by
  induction exprs with
  | nil => exact absurd hmem List.not_mem_nil
  | cons first rest ih =>
      rw [choiceValidators]
      rcases List.mem_cons.mp hmem with rfl | hlater
      · rw [hvalue]
        exact List.mem_cons_self
      · split
        · exact ih hlater
        · exact List.mem_cons_of_mem _ (ih hlater)

/-- The listed values have the names of the nullish kinds. -/
theorem nullishNames_eq_map (exprs : List TypeExpr) :
    PropTypes.nullishNames exprs = (nullishKinds exprs).map Scalar.name := by
  induction exprs with
  | nil => rfl
  | cons expr rest ih =>
      cases expr with
      | scalar kind =>
          rw [PropTypes.nullishNames, nullishKinds, ih]
          split <;> rfl
      | _ => exact ih

mutual

/-- A type is written as its validator. -/
theorem doc_validator (expr : TypeExpr) : expr.validator.doc = PropTypes.doc expr := by
  match expr with
  | .reference name => rfl
  | .scalar kind => cases kind <;> rfl
  | .anyArray => rfl
  | .array element =>
      rw [validator, Validator.doc, PropTypes.doc, doc_validator element]
      rfl
  | .object fields =>
      rw [validator, Validator.doc_shape, PropTypes.doc, memberDocs_checkedMembers fields]
  | .union alternatives =>
      rw [validator, Validator.doc_ofChoices, PropTypes.doc, docs_choiceValidators alternatives,
        nullishNames_eq_map]

/-- Choices are written as the alternatives that are types of values. -/
theorem docs_choiceValidators (exprs : List TypeExpr) :
    Validator.docs (choiceValidators exprs) = PropTypes.choiceDocs exprs := by
  match exprs with
  | [] => rfl
  | expr :: rest =>
      rw [choiceValidators, PropTypes.choiceDocs, ← docs_choiceValidators rest]
      split
      · rfl
      · rw [Validator.docs, doc_validator expr]

/-- Members are written as fields. -/
theorem memberDocs_checkedMembers (fields : List (Field × TypeExpr)) :
    Validator.memberDocs (checkedMembers fields) = PropTypes.fieldDocs fields := by
  match fields with
  | [] => rfl
  | (field, value) :: rest =>
      rw [checkedMembers, Validator.memberDocs, PropTypes.fieldDocs, doc_validator value,
        memberDocs_checkedMembers rest]
      rfl

end

end TypeExpr

/-! ## Validation -/

namespace Validator

variable {constants : Name → Option Validator}

/-- **Validation.**  A sample passes a validator, where `constants` says which validator a name is
declared as.  The absence of a value passes every validator.  Of several members under one name an
object keeps the last, and members that are not listed are not looked at. -/
inductive Passes (constants : Name → Option Validator) : Validator → Sample → Prop
  | absent {validator : Validator} {kind : Scalar} (hnullish : kind.isNullish = true) :
      Passes constants validator (.scalar kind)
  | constant {name : Name} {validator : Validator} {sample : Sample}
      (hdeclared : constants name = some validator) (hpasses : Passes constants validator sample) :
      Passes constants (.constant name) sample
  | any (sample : Sample) : Passes constants (.scalar .unknown) sample
  | scalar (kind : Scalar) : Passes constants (.scalar kind) (.scalar kind)
  | oneOf {kinds : List Scalar} {kind : Scalar} (hlisted : kind ∈ kinds) :
      Passes constants (.oneOf kinds) (.scalar kind)
  | oneOfType {alternatives : List Validator} {alternative : Validator} {sample : Sample}
      (hlisted : alternative ∈ alternatives) (hpasses : Passes constants alternative sample) :
      Passes constants (.oneOfType alternatives) sample
  | anyArray (items : List Sample) : Passes constants .anyArray (.array items)
  | arrayOf {element : Validator} {items : List Sample}
      (hpasses : ∀ item ∈ items, Passes constants element item) :
      Passes constants (.arrayOf element) (.array items)
  | shape {checks : List (CheckedMember × Validator)} {members : List (Text × Sample)}
      (hpresent : ∀ check ∈ checks, check.1.required = true →
        ∃ value, OrderedMap.valueAt check.1.name members.reverse = some value ∧
          value.kind.isNullish = false)
      (hpasses : ∀ check ∈ checks, ∀ value,
        OrderedMap.valueAt check.1.name members.reverse = some value →
          Passes constants check.2 value) :
      Passes constants (.shape checks) (.object members)

/-- An object without a required member does not pass. -/
theorem not_passes_of_missing {checks : List (CheckedMember × Validator)}
    {members : List (Text × Sample)} {check : CheckedMember × Validator} (hcheck : check ∈ checks)
    (hrequired : check.1.required = true)
    (hmissing : OrderedMap.valueAt check.1.name members.reverse = none) :
    ¬ (Validator.shape checks).Passes constants (.object members) := by
  intro hpasses
  cases hpasses with
  | shape hpresent _ =>
      obtain ⟨value, hvalue, -⟩ := hpresent check hcheck hrequired
      rw [hmissing] at hvalue
      cases hvalue

/-- What passes a validator of the absence of a value is the absence of a value. -/
theorem Passes.absent_of_nullish {expr : TypeExpr} {sample : Sample}
    (hpasses : expr.validator.Passes constants sample) (hnullish : expr.isNullish = true) :
    ∃ kind : Scalar, kind.isNullish = true ∧ sample = .scalar kind := by
  cases expr with
  | scalar kind =>
      cases hpasses with
      | absent hnullish => exact ⟨_, hnullish, rfl⟩
      | any => cases hnullish
      | scalar => exact ⟨kind, hnullish, rfl⟩
  | _ => cases hnullish

/-- What passes a choice passes the validator that chooses. -/
theorem passes_ofChoices {nullish : List Scalar} {choices : List Validator} {choice : Validator}
    {sample : Sample} (hmem : choice ∈ choices) (hpasses : choice.Passes constants sample) :
    (ofChoices nullish choices).Passes constants sample := by
  match choices with
  | [] => exact absurd hmem List.not_mem_nil
  | [only] =>
      obtain rfl := List.mem_singleton.mp hmem
      exact hpasses
  | first :: second :: later => exact .oneOfType hmem hpasses

/-- What passes the validator of an alternative passes that of all alternatives; it does not matter
that the nullish ones are left out. -/
theorem passes_ofAlternatives {alternatives : List TypeExpr} {alternative : TypeExpr}
    {sample : Sample} (hmem : alternative ∈ alternatives)
    (hpasses : alternative.validator.Passes constants sample) :
    (TypeExpr.ofAlternatives alternatives).validator.Passes constants sample := by
  match alternatives with
  | [] => exact absurd hmem List.not_mem_nil
  | [only] =>
      obtain rfl := List.mem_singleton.mp hmem
      exact hpasses
  | first :: second :: later =>
      cases hnullish : alternative.isNullish with
      | true =>
          obtain ⟨kind, hkind, rfl⟩ := hpasses.absent_of_nullish hnullish
          exact .absent hkind
      | false => exact passes_ofChoices (TypeExpr.mem_choiceValidators hmem hnullish) hpasses

/-- A validator of objects stays a choice where there are others. -/
theorem shape_mem_ofChoices {nullish : List Scalar} {choices : List Validator}
    {checks : List (CheckedMember × Validator)} (hmem : .shape checks ∈ choices) :
    .shape checks ∈ (ofChoices nullish choices).choices := by
  match choices with
  | [] => exact absurd hmem List.not_mem_nil
  | [only] =>
      obtain rfl := List.mem_singleton.mp hmem
      exact List.mem_singleton_self _
  | first :: second :: later => exact hmem

/-- The validator of an object type is one of the choices of a union. -/
theorem shape_mem_ofAlternatives {alternatives : List TypeExpr} {fields : List (Field × TypeExpr)}
    (hmem : .object fields ∈ alternatives) :
    .shape (TypeExpr.checkedMembers fields) ∈
      (TypeExpr.ofAlternatives alternatives).validator.choices := by
  match alternatives with
  | [] => exact absurd hmem List.not_mem_nil
  | [only] =>
      obtain rfl := List.mem_singleton.mp hmem
      exact List.mem_singleton_self _
  | first :: second :: later =>
      exact shape_mem_ofChoices (TypeExpr.mem_choiceValidators hmem rfl)

end Validator

/-! ## Validators of a model -/

namespace Model

variable {model : Model}

/-- The validator at a key, in which named types stand as constants. -/
def validator? (model : Model) (key : Keypath) : Option Validator :=
  TypeExpr.validator <$> model.expand? false key

/-- The validator that the program declares under a name. -/
def constant? (model : Model) (name : Name) : Option Validator :=
  if (model.declarationOrder .propTypes).contains name then model.validator? name else none

/-- A declared constant is the validator at its key. -/
theorem constant?_of_mem {name : Name} (hdeclared : name ∈ model.declarationOrder .propTypes) :
    model.constant? name = model.validator? name :=
  if_pos (List.contains_iff_mem.mpr hdeclared)

/-- What is open around a key makes no difference in named mode. -/
theorem expandWithin_named_opened {fuel : Nat} {opened others : List Keypath} {key : Keypath}
    {expr : TypeExpr} (hexpr : model.expandWithin false fuel opened key = some expr) :
    model.expandWithin false fuel others key = some expr := by
  induction fuel generalizing opened others key expr with
  | zero => cases hexpr
  | succ fuel ih =>
      refine expandWithin_succ_iff.mpr ((expandWithin_succ_iff.mp hexpr).imp ?_)
      intro child _ inner hinner
      have hcut : ∀ opened, model.IsCut false opened child ↔ model.isNamed child = true := by
        simp [IsCut]
      by_cases hnamed : model.isNamed child = true
      · rw [if_pos ((hcut _).mpr hnamed)] at hinner ⊢
        exact hinner
      · rw [if_neg fun hgiven => hnamed ((hcut _).mp hgiven)] at hinner ⊢
        exact ih hinner

/-- What named mode writes for a key to which a field leads. -/
def Written (model : Model) (key : Keypath) (expr : TypeExpr) : Prop :=
  if model.isNamed key = true then expr = .reference key else model.expand? false key = some expr

/-- An expression is spelled out from what is written for the keys below. -/
theorem spellsKey_of_expand? {key : Keypath} {expr : TypeExpr}
    (hexpr : model.expand? false key = some expr) : model.SpellsKey model.Written key expr := by
  obtain ⟨less, hfuel, hspells⟩ := exists_succ_of_expandWithin hexpr
  refine hspells.imp fun child _ inner hinner => ?_
  by_cases hnamed : model.isNamed child = true
  · rw [if_pos ⟨hnamed, nofun⟩] at hinner
    rw [Written, if_pos hnamed]
    exact hinner
  · rw [if_neg fun hgiven => hnamed hgiven.1] at hinner
    rw [Written, if_neg hnamed]
    exact expandWithin_mono (by omega) (expandWithin_named_opened hinner)

/-- A key is not nullable if neither null nor undefined was seen there. -/
theorem isNullable_eq_false_iff {key : Keypath} :
    model.isNullable key = false ↔
      ∀ kind : Kind, kind.isNullish = true → model.shape? key kind = none := by
  rw [isNullable, List.any_eq_false]
  constructor
  · intro hnone kind hnullish
    refine Option.eq_none_iff_forall_not_mem.mpr fun shape hknown => ?_
    exact hnone kind (((model.kinds key).mem_keys_iff kind).mpr ⟨shape, hknown⟩) hnullish
  · intro hnone kind hmem hnullish
    obtain ⟨shape, hknown⟩ := ((model.kinds key).mem_keys_iff kind).mp hmem
    have habsent := hnone kind hnullish
    rw [shape?, hknown] at habsent
    cases habsent

/-- The validator at a key has an alternative for each kind that is known there. -/
theorem exists_of_validator? {key : Keypath} {validator : Validator} {kind : Kind} {shape : Shape}
    (hvalidator : model.validator? key = some validator)
    (hknown : model.shape? key kind = some shape) :
    ∃ alternatives, validator = (TypeExpr.ofAlternatives alternatives).validator ∧
      ∃ alternative ∈ alternatives, model.SpellsKind model.Written kind shape alternative := by
  obtain ⟨expr, hexpr, rfl⟩ := Option.map_eq_some_iff.mp hvalidator
  obtain ⟨alternatives, hall, rfl⟩ := spellsKey_of_expand? hexpr
  have hentry : (kind, shape) ∈ (model.kinds key).entries :=
    ((model.kinds key).mem_entries_iff kind shape).mpr hknown
  obtain ⟨alternative, hmem, hspells⟩ := exists_of_mem_right hall.flip hentry
  exact ⟨alternatives, rfl, alternative, hmem, hspells⟩

/-- In a guarded model every key has a validator, and it is its document. -/
theorem exists_validator? (hguarded : model.Guarded) (key : Keypath) :
    ∃ validator, model.validator? key = some validator ∧
      ∀ style, model.doc? .propTypes style false key = some validator.doc := by
  obtain ⟨expr, hexpr⟩ := exists_expand? hguarded false key
  refine ⟨expr.validator, by rw [validator?, hexpr]; rfl, fun style => ?_⟩
  rw [doc?_of_expand? hexpr, TypeExpr.doc_validator]
  rfl

/-! ## The parts of a value -/

/-- What checks the values at a key to which a field leads: a constant if the key is named. -/
def Checks (model : Model) (key : Keypath) (validator : Validator) : Prop :=
  if model.isNamed key = true then validator = .constant key
  else model.validator? key = some validator

/-- How a validator of objects checks a field.  The member is required exactly if the field is, and
no absence of a value was seen where it leads. -/
structure ChecksField (model : Model) (entry : Text × FieldRef)
    (check : CheckedMember × Validator) : Prop where
  name : check.1.name = entry.1
  required : check.1.required = true ↔ entry.2.required = true ∧
    ∀ kind : Kind, kind.isNullish = true → model.shape? entry.2.key kind = none
  value : model.Checks entry.2.key check.2

/-- What is written for a key checks the values there. -/
theorem Written.checks {key : Keypath} {expr : TypeExpr} (hwritten : model.Written key expr) :
    model.Checks key expr.validator := by
  unfold Written at hwritten
  unfold Checks
  split at hwritten
  · rename_i hnamed
    rw [if_pos hnamed, hwritten]
    rfl
  · rename_i hnamed
    rw [if_neg hnamed, validator?, hwritten]
    rfl

/-- The members that the validator of an object type checks, field by field. -/
theorem checksField_of_spelled {shape : Shape} {fields : List (Field × TypeExpr)}
    (hspelled : List.Forall₂ (fun entry field => field.1 = model.outside entry ∧
      model.Written entry.2.key field.2) shape.entries fields) :
    List.Forall₂ model.ChecksField shape.entries (TypeExpr.checkedMembers fields) := by
  rw [TypeExpr.checkedMembers_eq_map, List.forall₂_map_right_iff]
  refine hspelled.imp fun entry field hfield => ?_
  obtain ⟨houter, hwritten⟩ := hfield
  refine ⟨by rw [houter]; rfl, ?_, hwritten.checks⟩
  rw [houter, ← isNullable_eq_false_iff]
  simp [Field.checked, outside]

/-- A sample is accepted only where its kind is known. -/
theorem Accepts.exists_shape? {key : Keypath} {sample : Sample}
    (haccepts : model.Accepts key sample) : ∃ shape, model.shape? key sample.kind = some shape := by
  cases haccepts with
  | scalar hknown => exact Option.isSome_iff_exists.mp hknown
  | array hknown => exact ⟨_, hknown⟩
  | object hknown => exact ⟨_, hknown⟩

/-- What is accepted at a key passes what checks it there: a named type of which something is known
is declared, and so its constant is the validator at its key. -/
theorem Checks.passes (hguarded : model.Guarded) {key : Keypath} {validator : Validator}
    {sample : Sample} (hchecks : model.Checks key validator) (haccepts : model.Accepts key sample)
    (hpasses : ∀ inner, model.validator? key = some inner →
      inner.Passes model.constant? sample) : validator.Passes model.constant? sample := by
  by_cases hnamed : model.isNamed key = true
  · rw [Checks, if_pos hnamed] at hchecks
    subst hchecks
    obtain ⟨inner, hinner, -⟩ := exists_validator? hguarded key
    obtain ⟨shape, hshape⟩ := haccepts.exists_shape?
    have hknown : model.has key = true := (has_iff model key).mpr ⟨_, shape, hshape⟩
    have hdeclared : key ∈ model.declarationOrder .propTypes :=
      (mem_declarationOrder_iff model .propTypes key).mpr
        ⟨(mem_typeNames_iff model key).mpr (.inl hnamed), hknown⟩
    exact .constant ((constant?_of_mem hdeclared).trans hinner) (hpasses inner hinner)
  · rw [Checks, if_neg hnamed] at hchecks
    exact hpasses validator hchecks

/-- An object passes if its members do. -/
theorem passes_of_checksField (hguarded : model.Guarded) {shape : Shape}
    {checks : List (CheckedMember × Validator)} {members : List (Text × Sample)}
    (hchecks : List.Forall₂ model.ChecksField shape.entries checks)
    (haccepted : ∀ entry ∈ members, ∀ ref, shape.get? entry.1 = some ref →
      model.Accepts ref.key entry.2)
    (hcomplete : ∀ field, shape.requires field = true →
      (OrderedMap.valueAt field members.reverse).any Sample.isPresent = true)
    (hpasses : ∀ entry ∈ members, ∀ ref, shape.get? entry.1 = some ref →
      ∀ inner, model.validator? ref.key = some inner → inner.Passes model.constant? entry.2) :
    (Validator.shape checks).Passes model.constant? (.object members) := by
  have hfields : ∀ check ∈ checks, ∃ ref, shape.get? check.1.name = some ref ∧
      model.ChecksField (check.1.name, ref) check := by
    intro check hcheck
    obtain ⟨⟨name, ref⟩, hentry, hfield⟩ := exists_of_mem_right hchecks hcheck
    obtain rfl : check.1.name = name := hfield.name
    exact ⟨ref, (shape.mem_entries_iff _ ref).mp hentry, hfield⟩
  have hmember : ∀ name value, OrderedMap.valueAt name members.reverse = some value →
      (name, value) ∈ members := fun name value hlast =>
    List.mem_reverse.mp (OrderedMap.mem_of_valueAt hlast)
  refine .shape ?_ ?_
  · -- The last value is there; absence was never seen at its key, so it is none.
    intro check hcheck hrequired
    obtain ⟨ref, hfound, hfield⟩ := hfields check hcheck
    obtain ⟨hmarked, hnever⟩ : ref.required = true ∧ _ := hfield.required.mp hrequired
    obtain ⟨value, hlast, -⟩ := (Option.any_eq_true _ _).mp
      (hcomplete check.1.name (by simp [Shape.requires, hfound, hmarked]))
    refine ⟨value, hlast, Bool.eq_false_iff.mpr fun hnullish => ?_⟩
    obtain ⟨seen, hseen⟩ := (haccepted _ (hmember _ value hlast) ref hfound).exists_shape?
    rw [hnever _ hnullish] at hseen
    cases hseen
  · intro check hcheck value hlast
    obtain ⟨ref, hfound, hfield⟩ := hfields check hcheck
    have hmem := hmember _ value hlast
    exact hfield.value.passes hguarded (haccepted _ hmem ref hfound) (hpasses _ hmem ref hfound)

/-! ## Whole values -/

/-- **Validation follows acceptance.**  By induction on acceptance: the alternative for the kind of
the sample lets it pass, and so does the validator of all alternatives. -/
theorem passes_of_accepts (hguarded : model.Guarded) {key : Keypath} {sample : Sample}
    (haccepts : model.Accepts key sample) {validator : Validator}
    (hvalidator : model.validator? key = some validator) :
    validator.Passes model.constant? sample := by
  induction haccepts generalizing validator with
  | @scalar key kind hknown =>
      obtain ⟨shape, hshape⟩ := Option.isSome_iff_exists.mp hknown
      obtain ⟨alternatives, rfl, alternative, hmem, hspells⟩ :=
        exists_of_validator? hvalidator hshape
      refine Validator.passes_ofAlternatives hmem ?_
      cases hspells
      exact .scalar kind
  | @array key items shape element hknown helements hitems ih =>
      obtain ⟨alternatives, rfl, alternative, hmem, hspells⟩ :=
        exists_of_validator? hvalidator hknown
      refine Validator.passes_ofAlternatives hmem ?_
      cases hspells with
      | anyArray => exact .anyArray items
      | @array _ found inner hfound _ hwritten =>
          obtain rfl : element = found := Option.some.inj (helements.symm.trans hfound)
          refine .arrayOf fun item hitem => ?_
          exact hwritten.checks.passes hguarded (hitems item hitem) fun _ => ih item hitem
  | @object key members shape hknown _ hmembers hcomplete ih =>
      obtain ⟨alternatives, rfl, alternative, hmem, hspells⟩ :=
        exists_of_validator? hvalidator hknown
      refine Validator.passes_ofAlternatives hmem ?_
      cases hspells with
      | object hspelled =>
          exact passes_of_checksField hguarded (checksField_of_spelled hspelled) hmembers
            hcomplete fun entry hentry ref hfound _ => ih entry hentry ref hfound

/-- The constants are what the program declares. -/
theorem declarations_of_constants (hguarded : model.Guarded) (style : Style) :
    ∃ declarations, model.declarations? .propTypes style = some declarations ∧
      List.Forall₂ (fun name declaration => ∃ validator, model.constant? name = some validator ∧
        declaration = .concat ["const ", .text name, " = ", validator.doc])
        (model.declarationOrder .propTypes) declarations := by
  obtain ⟨declarations, hdeclarations, hall⟩ := exists_declarations hguarded .propTypes style
  refine ⟨declarations, hdeclarations, forall₂_imp_of_mem hall ?_⟩
  rintro name hname _ ⟨expr, hexpr, rfl⟩
  refine ⟨expr.validator, ?_, by rw [TypeExpr.doc_validator]; rfl⟩
  rw [constant?_of_mem hname, validator?, hexpr]
  rfl

/-- **Validators admit what the model accepts.**  Take a model in which every cycle of fields passes
through a named type.  The program declares the validators that `constant?` finds.  At every key
the validator that is written in named mode lets everything pass that the model accepts there.  It
checks the fields of objects one by one, and requires a member exactly if the field is required and
no absence of a value was seen where it leads. -/
theorem validators_admit_accepted (hguarded : model.Guarded) :
    (∀ style, ∃ declarations, model.declarations? .propTypes style = some declarations ∧
      List.Forall₂ (fun name declaration => ∃ validator, model.constant? name = some validator ∧
        declaration = .concat ["const ", .text name, " = ", validator.doc])
        (model.declarationOrder .propTypes) declarations) ∧
      ∀ key, ∃ validator, model.validator? key = some validator ∧
        (∀ style, model.doc? .propTypes style false key = some validator.doc) ∧
        (∀ sample, model.Accepts key sample → validator.Passes model.constant? sample) ∧
        ∀ shape, model.shape? key .object = some shape →
          ∃ checks, .shape checks ∈ validator.choices ∧
            List.Forall₂ model.ChecksField shape.entries checks := by
  refine ⟨declarations_of_constants hguarded, fun key => ?_⟩
  obtain ⟨validator, hvalidator, hdoc⟩ := exists_validator? hguarded key
  refine ⟨validator, hvalidator, hdoc, fun sample haccepts => ?_, fun shape hshape => ?_⟩
  · exact passes_of_accepts hguarded haccepts hvalidator
  · obtain ⟨alternatives, rfl, alternative, hmem, hspells⟩ :=
      exists_of_validator? hvalidator hshape
    cases hspells with
    | object hspelled =>
        exact ⟨_, Validator.shape_mem_ofAlternatives hmem, checksField_of_spelled hspelled⟩

/-- Persons with tags and with friends, who are persons again or unknown. -/
def circle : List Delivery :=
  [{ naming :=
       { given := .ofList [("Person.friends[]", "Person")]
         generator := none
         root := some "Person" }
     examples := { samples := [.object [("name", .scalar .string),
       ("tags", .array [.scalar .string, .scalar .null]),
       ("friends", .array [.object [("name", .scalar .string), ("tags", .scalar .undefined),
         ("friends", .array [])], .scalar .null])]] } }]

/-- A visitor without tags is accepted, and passes; an object without a name does not pass. -/
theorem validators_admit_circle :
    let model := (Builder.afterAll {} circle).model
    let visitor : List (Text × Sample) :=
      [("name", .scalar .string), ("friends", .array [.scalar .null])]
    model.Guarded ∧ model.Accepts "Person" (.object visitor) ∧
      ∃ validator, model.validator? "Person" = some validator ∧
        validator.Passes model.constant? (.object visitor) ∧
        ∃ checks, .shape checks ∈ validator.choices ∧
          ¬ (Validator.shape checks).Passes model.constant? (.object [("tags", .array [])]) := by
  intro model visitor
  have hguarded : model.Guarded := guarded_of_rank List.length (by decide +kernel)
  let person : Shape := .ofList
    [("name", { key := "Person.name" }), ("tags", { key := "Person.tags", required := false }),
      ("friends", { key := "Person.friends" })]
  have hperson : model.shape? "Person" .object = some person := by decide +kernel
  have hfriends : model.shape? "Person.friends" .array = some (.ofElement "Person") := by
    decide +kernel
  have hname : model.Accepts "Person.name" (.scalar .string) := .scalar (by decide +kernel)
  have hnull : model.Accepts "Person" (.scalar .null) := .scalar (by decide +kernel)
  have helement : (Shape.ofElement "Person").element? = some { key := "Person" } := by decide
  have haccepts : model.Accepts "Person" (.object visitor) := by
    refine .object hperson (by decide +kernel) ?_ fun field hrequired => ?_
    · refine List.forall_mem_cons.mpr ⟨fun ref hfound => ?_,
        List.forall_mem_singleton.mpr fun ref hfound => ?_⟩
      · obtain rfl : { key := "Person.name" } = ref := Option.some.inj hfound
        exact hname
      · obtain rfl : { key := "Person.friends" } = ref := Option.some.inj hfound
        exact .array hfriends helement (List.forall_mem_singleton.mpr hnull)
    · have hall : ∀ field ∈ person.keys, person.requires field = true →
          (OrderedMap.valueAt field visitor.reverse).any Sample.isPresent = true := by
        decide +kernel
      obtain ⟨ref, hfound, -⟩ := (Option.any_eq_true _ _).mp hrequired
      exact hall field ((person.mem_keys_iff field).mpr ⟨ref, hfound⟩) hrequired
  obtain ⟨-, hkeys⟩ := validators_admit_accepted hguarded
  obtain ⟨validator, hvalidator, -, hpasses, hobjects⟩ := hkeys "Person"
  obtain ⟨checks, hchoice, hchecks⟩ := hobjects person hperson
  have hentry : ("name".toList, { key := "Person.name" }) ∈ person.entries := by decide +kernel
  obtain ⟨check, hcheck, hfield⟩ := exists_of_mem_right hchecks.flip hentry
  refine ⟨hguarded, haccepts, validator, hvalidator, hpasses _ haccepts, checks, hchoice, ?_⟩
  refine Validator.not_passes_of_missing hcheck (hfield.required.mpr ⟨rfl, ?_⟩) ?_
  · exact isNullable_eq_false_iff.mp (by decide +kernel)
  · rw [hfield.name]
    decide

end Model

end Exemplar
