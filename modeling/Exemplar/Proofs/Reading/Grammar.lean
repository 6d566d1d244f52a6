import Exemplar.Dialect.TypeScript
import Exemplar.Proofs.Reading.Tokens

/-!
# Reading TypeScript types

`readType` reads a type from the front of a list of tokens.  A bar in front of a type
says nothing, and whether a union goes on shows in the token after an alternative.  A
brace opens a function type if a parenthesis follows it and an object type otherwise.

The readers take fuel, which they use up once for every token at most.  `Parses` leaves
it out: there is some amount from which on the result is the same.  Each production of
the grammar is a lemma about `Parses`, and `Parses.unique` says that a list of tokens
reads in one way only.
-/

namespace Exemplar

/-- One of the alternatives of a type. -/
inductive Alternative where
  /-- Values without parts. -/
  | scalar (kind : Scalar)
  /-- Arrays of values of a type. -/
  | array (element : List Alternative)
  /-- Objects with fields, each with its name, whether it is required, and its type. -/
  | object (fields : List (Text × Bool × List Alternative))

/-- A type as its alternatives in order, without regard to how it is written. -/
abbrev TypeTree := List Alternative

/-- The type of which nothing is known. -/
def TypeTree.any : TypeTree := [.scalar .unknown]

/-! ## Readers -/

/-- The scalar kind that a word stands for. -/
def scalarNamed? (word : Text) : Option Scalar :=
  Scalar.all.find? fun kind => TypeScript.scalarText kind == word

/-- The field name that a token stands for. -/
def Token.key? : Token → Option Text
  | word text => some text
  | name text => some text
  | mark _ => none

/-- Tokens without a bar in front. -/
def skipBar : List Token → List Token
  | .mark .bar :: rest => rest
  | tokens => tokens

/-- Whether the tokens in front of a colon make a field required, and the tokens after that. -/
def readRequired : List Token → Bool × List Token
  | .mark .question :: rest => (false, rest)
  | tokens => (true, tokens)

mutual

/-- Read a type that has no bar in front. -/
def readType : Nat → List Token → Option (TypeTree × List Token)
  | 0, _ => none
  | fuel + 1, tokens =>
      match readAlternative fuel tokens with
      | some (first, .mark .bar :: rest) =>
          (readType fuel rest).map fun result => (first :: result.1, result.2)
      | some (first, rest) => some ([first], rest)
      | none => none

/-- Read one alternative of a type. -/
def readAlternative : Nat → List Token → Option (Alternative × List Token)
  | 0, _ => none
  | fuel + 1, tokens =>
      match tokens with
      | .word word :: rest =>
          if word = ("Array" : Text) then
            match rest with
            | .mark .openAngle :: rest =>
                match readType fuel (skipBar rest) with
                | some (element, .mark .closeAngle :: rest) => some (.array element, rest)
                | _ => none
            | _ => none
          else (scalarNamed? word).map fun kind => (.scalar kind, rest)
      | .mark .openBrace :: .mark .openParen :: rest =>
          match rest with
          | .mark .closeParen :: .mark .colon :: .word _ :: .mark .closeBrace :: rest =>
              some (.scalar .function, rest)
          | _ => none
      | .mark .openBrace :: rest =>
          (readFields fuel rest).map fun result => (.object result.1, result.2)
      | _ => none

/-- Read the fields of an object type up to the closing brace. -/
def readFields : Nat → List Token → Option (List (Text × Bool × TypeTree) × List Token)
  | 0, _ => none
  | fuel + 1, tokens =>
      match tokens with
      | .mark .closeBrace :: rest => some ([], rest)
      | key :: rest =>
          match key.key?, readRequired rest with
          | some name, (required, .mark .colon :: rest) =>
              match readType fuel (skipBar rest) with
              | some (value, rest) =>
                  (readFields fuel rest).map fun result =>
                    ((name, required, value) :: result.1, result.2)
              | none => none
          | _, _ => none
      | [] => none

end

/-! ## Productions -/

/-- With enough fuel a reader gives a result and leaves the rest of the tokens. -/
def Parses {α : Type} (read : Nat → List Token → Option (α × List Token)) (tokens : List Token)
    (result : α) (rest : List Token) : Prop :=
  ∃ least, ∀ fuel, least ≤ fuel → read fuel tokens = some (result, rest)

/-- What is read does not depend on how it was found to be read. -/
theorem Parses.unique {α : Type} {read : Nat → List Token → Option (α × List Token)}
    {tokens rest last : List Token} {result other : α} (hparses : Parses read tokens result rest)
    (hother : Parses read tokens other last) : result = other ∧ rest = last := by
  obtain ⟨least, hleast⟩ := hparses
  obtain ⟨more, hmore⟩ := hother
  have hsame := (hleast (max least more) (Nat.le_max_left ..)).symm.trans
    (hmore (max least more) (Nat.le_max_right ..))
  exact Prod.mk.inj (Option.some.inj hsame)

/-- Enough fuel for a reader that spends one unit before it goes on. -/
theorem Parses.intro {α : Type} {read : Nat → List Token → Option (α × List Token)}
    {tokens rest : List Token} {result : α} (least : Nat)
    (hread : ∀ fuel, least ≤ fuel → read (fuel + 1) tokens = some (result, rest)) :
    Parses read tokens result rest := by
  refine ⟨least + 1, fun fuel hle => ?_⟩
  obtain ⟨fewer, rfl⟩ : ∃ fewer, fuel = fewer + 1 := ⟨fuel - 1, by omega⟩
  exact hread fewer (by omega)

/-- No bar stands in front of these tokens. -/
def NoBar (tokens : List Token) : Prop :=
  tokens.head? ≠ some (.mark .bar)

/-- Without a bar in front there is nothing to skip. -/
theorem skipBar_of_noBar {tokens : List Token} (hbar : NoBar tokens) : skipBar tokens = tokens := by
  unfold skipBar
  split
  · exact absurd rfl hbar
  · rfl

/-- A type may consist of one alternative, if no bar follows it. -/
theorem Parses.last {tokens rest : List Token} {first : Alternative}
    (hfirst : Parses readAlternative tokens first rest) (hbar : NoBar rest) :
    Parses readType tokens [first] rest := by
  obtain ⟨least, hleast⟩ := hfirst
  refine .intro least fun fuel hle => ?_
  rw [readType, hleast fuel hle]
  split
  · rename_i hsome
    cases hsome
    exact absurd rfl hbar
  · rename_i hsome
    cases hsome
    rfl
  · rename_i hnone
    cases hnone

/-- A type goes on behind a bar. -/
theorem Parses.more {tokens rest last : List Token} {first : Alternative} {later : TypeTree}
    (hfirst : Parses readAlternative tokens first (.mark .bar :: rest))
    (hlater : Parses readType rest later last) : Parses readType tokens (first :: later) last := by
  obtain ⟨least, hleast⟩ := hfirst
  obtain ⟨more, hmore⟩ := hlater
  refine .intro (max least more) fun fuel hle => ?_
  rw [readType, hleast fuel (by omega)]
  dsimp only
  rw [hmore fuel (by omega)]
  rfl

/-- What no reader begins with does not stand in front. -/
theorem Parses.noBar {α : Type} {read : Nat → List Token → Option (α × List Token)}
    {tokens rest : List Token} {result : α} (hparses : Parses read tokens result rest)
    (hnone : ∀ fuel later, read fuel (.mark .bar :: later) = none) : NoBar tokens := by
  obtain ⟨least, hleast⟩ := hparses
  intro hbar
  cases tokens with
  | nil => cases hbar
  | cons token later =>
      obtain rfl : token = .mark .bar := Option.some.inj hbar
      cases (hnone least later).symm.trans (hleast least (Nat.le_refl _))

/-- No alternative starts with a bar. -/
theorem readAlternative_bar (fuel : Nat) (later : List Token) :
    readAlternative fuel (.mark .bar :: later) = none := by
  cases fuel <;> rfl

/-- No type starts with a bar, once that in front of it is skipped. -/
theorem readType_bar (fuel : Nat) (later : List Token) :
    readType fuel (.mark .bar :: later) = none := by
  cases fuel with
  | zero => rfl
  | succ fuel => rw [readType, readAlternative_bar]

/-- No field starts with a bar. -/
theorem readFields_bar (fuel : Nat) (later : List Token) :
    readFields fuel (.mark .bar :: later) = none := by
  cases fuel <;> rfl

/-- The word for a scalar kind is read as the kind. -/
theorem parses_scalar (kind : Scalar) (rest : List Token) :
    Parses readAlternative (.word (TypeScript.scalarText kind) :: rest) (.scalar kind) rest := by
  have harray : TypeScript.scalarText kind ≠ ("Array" : Text) := by
    cases kind <;> decide
  have hnamed : scalarNamed? (TypeScript.scalarText kind) = some kind := by
    cases kind <;> decide
  refine .intro 0 fun fuel _ => ?_
  simp only [readAlternative, harray, if_false, hnamed, Option.map_some]

/-- The type of functions is read, whatever the word for the result. -/
theorem parses_function (word : Text) (rest : List Token) :
    Parses readAlternative
      (.mark .openBrace :: .mark .openParen :: .mark .closeParen :: .mark .colon :: .word word ::
        .mark .closeBrace :: rest)
      (.scalar .function) rest :=
  .intro 0 fun _ _ => rfl

/-- An array is read up to its closing bracket, with or without a bar in front of its element. -/
theorem parses_array {tokens rest : List Token} {element : TypeTree}
    (helement : Parses readType (skipBar tokens) element (.mark .closeAngle :: rest)) :
    Parses readAlternative (.word ("Array" : Text) :: .mark .openAngle :: tokens) (.array element)
      rest := by
  obtain ⟨least, hleast⟩ := helement
  refine .intro least fun fuel hle => ?_
  simp only [readAlternative, if_true, hleast fuel hle]

/-- An object type is read from its fields. -/
theorem parses_object {tokens rest : List Token} {fields : List (Text × Bool × TypeTree)}
    (hfields : Parses readFields tokens fields rest) :
    Parses readAlternative (.mark .openBrace :: tokens) (.object fields) rest := by
  obtain ⟨least, hleast⟩ := hfields
  refine .intro least fun fuel hle => ?_
  have hopen : ∀ later, tokens ≠ .mark .openParen :: later := by
    intro later hsame
    have hread := hleast (fuel + 1) (by omega)
    rw [hsame] at hread
    cases hread
  rw [readAlternative]
  · rw [hleast fuel hle]
    rfl
  · intro later hsame
    exact hopen later hsame

/-- The fields end at the closing brace. -/
theorem parses_fields_nil (rest : List Token) :
    Parses readFields (.mark .closeBrace :: rest) [] rest :=
  .intro 0 fun _ _ => rfl

/-- A field is read as a key, perhaps a question mark, a colon, and a type. -/
theorem parses_fields_cons {key : Token} {name : Text} {tokens between rest last : List Token}
    {required : Bool} {value : TypeTree} {later : List (Text × Bool × TypeTree)}
    (hkey : key.key? = some name)
    (hrequired : readRequired between = (required, .mark .colon :: tokens))
    (hvalue : Parses readType (skipBar tokens) value rest)
    (hlater : Parses readFields rest later last) :
    Parses readFields (key :: between) ((name, required, value) :: later) last := by
  obtain ⟨least, hleast⟩ := hvalue
  obtain ⟨more, hmore⟩ := hlater
  refine .intro (max least more) fun fuel hle => ?_
  rw [readFields]
  · rw [hkey, hrequired]
    dsimp only
    rw [hleast fuel (by omega)]
    dsimp only
    rw [hmore fuel (by omega)]
    rfl
  · intro hsame
    subst hsame
    cases hkey

end Exemplar
