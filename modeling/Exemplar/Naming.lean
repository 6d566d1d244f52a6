import Exemplar.OrderedMap
import Exemplar.Text.Alphanumeric
import Exemplar.Text.Basic
import Exemplar.Text.Casing

/-!
# Keypaths and type names

A keypath addresses a position in example data: member names joined by dots,
with `[]` for the elements of an array.  A position is stored under a type name
when it has one and under its keypath otherwise, and a name found for a position
takes the place of the whole path above it: the members of a type `Author` are
addressed as `Author.name`, whatever path led there.

The standard generator spells every `[]` as `Item`, drops all separators and
joins the words in camel case, so that `author.books[]` becomes
`AuthorBooksItem`.  A `Naming` combines a generator with names that the caller
gives for single keypaths and with a name for the root.  `keyAt` is the key of a
position: a generated name that an enclosing position already has is given up
there, since otherwise tree-shaped data would get a recursive type.

The law of the words, from which all others about them follow, is
`words_append_separator`.
-/

namespace Exemplar

/-- The address of a position in example data. -/
abbrev Keypath := Text

/-- The name of a type. -/
abbrev Name := Text

/-! ## Words and cases -/

/-- The word that a text starts with, which may be empty, and the words after it. -/
def leadingWord : Text → Text × List Text
  | [] => ([], [])
  | c :: rest =>
      let (word, later) := leadingWord rest
      if Text.isAlphanumeric c then (c :: word, later)
      else ([], if word.isEmpty then later else word :: later)

/-- The words of a text: its longest runs of alphanumeric characters. -/
def words (text : Text) : List Text :=
  let (word, later) := leadingWord text
  if word.isEmpty then later else word :: later

/-- What stands in front of a separator is cut into words on its own. -/
theorem leadingWord_append_separator {c : Char} (hseparates : Text.isAlphanumeric c = false)
    (before after : Text) :
    leadingWord (before ++ c :: after) =
      ((leadingWord before).1, (leadingWord before).2 ++ words after) := by
  induction before with
  | nil => simp [leadingWord, words, hseparates]
  | cons d rest ih =>
      simp only [List.cons_append, leadingWord, ih]
      split
      · rfl
      · split <;> simp

/-- **Words end at separators.**  The words on either side of a separator are those of the
two sides. -/
theorem words_append_separator {c : Char} (hseparates : Text.isAlphanumeric c = false)
    (before after : Text) : words (before ++ c :: after) = words before ++ words after := by
  rw [words, leadingWord_append_separator hseparates]
  conv => rhs; rw [words]
  dsimp only
  split <;> simp

/-- A text of alphanumeric characters is a single word, unless it is empty. -/
theorem words_of_alphanumeric {text : Text} (hnonempty : text ≠ [])
    (halphanumeric : ∀ c ∈ text, Text.isAlphanumeric c = true) : words text = [text] := by
  have hwhole : leadingWord text = (text, []) := by
    clear hnonempty
    induction text with
    | nil => rfl
    | cons c rest ih =>
        have htail := ih fun d hmem => halphanumeric d (List.mem_cons_of_mem c hmem)
        simp [leadingWord, htail, halphanumeric c List.mem_cons_self]
  simp [words, hwhole, hnonempty]

/-- A name made safe at its front: an underscore keeps a digit from standing there. -/
def guardDigit : Text → Text
  | [] => []
  | c :: rest => if Text.isDigit c then '_' :: c :: rest else c :: rest

/-- The words of a text in one, the first with a small and the others with a capital letter. -/
def camelCase (text : Text) : Text :=
  match words text with
  | [] => []
  | first :: later => guardDigit (Text.uncapitalize first ++ later.flatMap Text.capitalize)

/-! ## Keypaths -/

/-- What stands for the elements of an array in a keypath. -/
def elementMark : Text := "[]"

/-- The keypath of a member of the value at a keypath. -/
def childKeypath (parent : Keypath) (member : Text) : Keypath :=
  if parent.isEmpty then member else parent ++ '.' :: member

/-- The keypath of the elements of the array at a keypath. -/
def elementKeypath (parent : Keypath) : Keypath :=
  parent ++ elementMark

/-- A keypath with every element mark replaced by the word `Item`. -/
def spellElements : Keypath → Text
  | '[' :: ']' :: rest => " Item " ++ spellElements rest
  | c :: rest => c :: spellElements rest
  | [] => []

/-- The type name of a keypath, or nothing when it holds no word. -/
def standardTypeName (keypath : Keypath) : Option Name :=
  match camelCase (spellElements keypath) with
  | [] => none
  | name => some (Text.capitalize name)

/-! ## Naming positions -/

/-- A rule that proposes type names for keypaths. -/
inductive Generator where
  /-- Camel case of the keypath. -/
  | standard
  /-- A rule of the caller, which may fail with a message. -/
  | custom (propose : Keypath → Except Text (Option Name))

/-- The name that a generator proposes for a keypath. -/
def Generator.propose : Generator → Keypath → Except Text (Option Name)
  | standard, keypath => .ok (standardTypeName keypath)
  | custom propose, keypath => propose keypath

/-- How positions get their type names. -/
structure Naming where
  /-- Names that the caller gives for single keypaths. -/
  given : OrderedMap Keypath Name := .empty
  /-- What proposes a name for any other keypath. -/
  generator : Option Generator := some .standard
  /-- The name of the root when nothing else names it. -/
  root : Option Name := none

/-- The name of a root that nobody names. -/
def defaultRootName : Name := "Root"

/-- An empty name counts as no name. -/
def properName (name : Option Name) : Option Name :=
  name.filter fun text => !text.isEmpty

namespace Naming

/-- The name of a keypath: the given one, else the generated one; the root always has one. -/
def resolve (naming : Naming) (keypath : Keypath) : Except Text (Option Name) := do
  let name ← match properName (naming.given.get? keypath), naming.generator with
    | some name, _ => .ok (some name)
    | none, some generator => properName <$> generator.propose keypath
    | none, none => .ok none
  if keypath.isEmpty then
    return some (name.getD ((properName naming.root).getD defaultRootName))
  return name

/-- The name of a position below positions with the `enclosing` keys.  A generated name
that one of them has already is given up. -/
def nameAt (naming : Naming) (enclosing : List Keypath) (keypath : Keypath) :
    Except Text (Option Name) := do
  let name ← naming.resolve keypath
  return name.filter fun text => !(enclosing.contains text && !naming.given.contains keypath)

/-- The key under which a position is stored: its name, or its keypath when it has none. -/
def keyAt (naming : Naming) (enclosing : List Keypath) (keypath : Keypath) :
    Except Text Keypath :=
  (·.getD keypath) <$> naming.nameAt enclosing keypath

end Naming

end Exemplar
