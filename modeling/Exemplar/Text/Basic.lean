/-!
# Texts

A text is a list of characters, so that its length counts code points and every
statement about it can follow the list.  This module holds what the rest of the
library needs of texts as such: string literals read as texts, numbers in
decimal and hexadecimal, blanks and lines, and the order by code points with a
stable sort along it.

The main statements are `sortBy_perm` (sorting loses and invents nothing) and
`joined_parts` (cutting a text into parts and joining them gives it back).
-/

namespace Exemplar

/-- A text, one character after the other. -/
abbrev Text := List Char

/-- A string literal stands for its characters. -/
instance : Coe String Text := ⟨String.toList⟩

namespace Text

/-- A natural number in decimal. -/
def ofNat (n : Nat) : Text :=
  Nat.toDigits 10 n

/-- An integer in decimal, with a minus sign in front of a negative one. -/
def ofInt : Int → Text
  | .ofNat n => ofNat n
  | .negSucc n => '-' :: ofNat (n + 1)

/-- A number in lower-case hexadecimal, filled up with zeros to `width` digits. -/
def hex (width n : Nat) : Text :=
  let digits := Nat.toDigits 16 n
  List.replicate (width - digits.length) '0' ++ digits

/-- Texts one after the other with a separator between neighbours. -/
def joined (separator : Text) (texts : List Text) : Text :=
  (texts.intersperse separator).flatten

/-! ## Blanks -/

/-- The characters that trimming removes from the end of a line. -/
def isBlank (c : Char) : Bool :=
  let n := c.toNat
  (0x09 ≤ n && n ≤ 0x0D) || (0x1C ≤ n && n ≤ 0x20) || n == 0x85 || n == 0xA0 || n == 0x1680
    || (0x2000 ≤ n && n ≤ 0x200A) || n == 0x2028 || n == 0x2029 || n == 0x202F || n == 0x205F
    || n == 0x3000

/-- The characters that may surround a number; unlike `isBlank` this leaves out
the four information separators U+001C to U+001F. -/
def isSpacing (c : Char) : Bool :=
  isBlank c && !(0x1C ≤ c.toNat && c.toNat ≤ 0x1F)

/-- Spaces, tabs, line feeds and carriage returns are blanks that may surround a number. -/
theorem isSpacing_of_isWhitespace {c : Char} (hwhite : c.isWhitespace = true) :
    isSpacing c = true := by
  simp only [Char.isWhitespace, Bool.or_eq_true, decide_eq_true_eq] at hwhite
  rcases hwhite with ((rfl | rfl) | rfl) | rfl <;> decide

/-- A text without the characters of a class at its end. -/
def trimEnd (drop : Char → Bool) (text : Text) : Text :=
  (text.reverse.dropWhile drop).reverse

/-- A text without the characters of a class at either end. -/
def trim (drop : Char → Bool) (text : Text) : Text :=
  trimEnd drop (text.dropWhile drop)

/-! ## Cutting a text into parts -/

/-- The part of a text in front of the first separator and the parts after it. -/
def firstPart (separator : Char) : Text → Text × List Text
  | [] => ([], [])
  | c :: rest =>
      let (part, later) := firstPart separator rest
      if c = separator then ([], part :: later) else (c :: part, later)

/-- The parts of a text between separators, of which there is always at least one. -/
def parts (separator : Char) (text : Text) : List Text :=
  (firstPart separator text).1 :: (firstPart separator text).2

/-- The lines of a text; only a line feed ends a line. -/
def lines (text : Text) : List Text :=
  parts '\n' text

/-- Lines joined by line feeds. -/
def unlines (lines : List Text) : Text :=
  joined ['\n'] lines

/-- A separator stands between the first two texts. -/
theorem joined_cons_cons (separator first second : Text) (later : List Text) :
    joined separator (first :: second :: later) =
      first ++ separator ++ joined separator (second :: later) := by
  simp [joined]

/-- **Parts lose nothing.**  Joining the parts of a text gives the text. -/
theorem joined_parts (separator : Char) (text : Text) :
    joined [separator] (parts separator text) = text := by
  induction text with
  | nil => rfl
  | cons c rest ih =>
      simp only [parts] at ih ⊢
      by_cases hhere : c = separator
      · simp [firstPart, hhere, joined_cons_cons, ih]
      · cases hlater : (firstPart separator rest).2 with
        | nil => simp [firstPart, hhere, hlater, joined] at ih ⊢; exact ih
        | cons next more =>
            simp [firstPart, hhere, hlater, joined_cons_cons] at ih ⊢
            exact ih

/-- A text consists of its lines. -/
theorem unlines_lines (text : Text) : unlines (lines text) = text :=
  joined_parts '\n' text

/-! ## Order -/

/-- Whether a text comes before another or equals it, comparing code points. -/
def le : Text → Text → Bool
  | [], _ => true
  | _ :: _, [] => false
  | c :: s, d :: t =>
      if c.toNat < d.toNat then true else if d.toNat < c.toNat then false else le s t

/-- Put an item before the first one whose key is not smaller. -/
def insertBy {α : Type} (key : α → Text) (item : α) : List α → List α
  | [] => [item]
  | other :: rest =>
      if le (key item) (key other) then item :: other :: rest
      else other :: insertBy key item rest

/-- Items in the order of their keys; items with one key keep their order. -/
def sortBy {α : Type} (key : α → Text) (items : List α) : List α :=
  items.foldr (insertBy key) []

/-- To insert an item adds it and loses none. -/
theorem insertBy_perm {α : Type} (key : α → Text) (item : α) (items : List α) :
    (insertBy key item items).Perm (item :: items) := by
  induction items with
  | nil => exact .refl _
  | cons other rest ih =>
      unfold insertBy
      split
      · exact .refl _
      · exact (ih.cons other).trans (.swap item other rest)

/-- **Sorting rearranges.**  The sorted list holds the same items equally often. -/
theorem sortBy_perm {α : Type} (key : α → Text) (items : List α) :
    (sortBy key items).Perm items := by
  induction items with
  | nil => exact .refl _
  | cons item rest ih => exact (insertBy_perm key item _).trans (ih.cons item)

end Text

end Exemplar
