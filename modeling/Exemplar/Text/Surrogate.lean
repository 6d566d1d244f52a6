import Exemplar.Text.Basic

/-!
# Surrogates

Code points from U+D800 to U+DFFF are surrogates and stand for no characters.  Two of
them in a row, a high one and a low one, can write a character beyond the first plane;
a surrogate by itself makes a sequence of code points that is no text.

`ofCodes?` reads code points as a text.  `ofCodes?_codes` says that it gives every text
back from its code points, and `ofCodes?_of_surrogate` that it refuses surrogates.
-/

namespace Exemplar.Text

/-- Whether a code point is the first half of a pair. -/
def isHighSurrogate (code : Nat) : Bool :=
  0xD800 ≤ code && code < 0xDC00

/-- Whether a code point is the second half of a pair. -/
def isLowSurrogate (code : Nat) : Bool :=
  0xDC00 ≤ code && code < 0xE000

/-- Whether a code point is half of a pair. -/
def isSurrogate (code : Nat) : Bool :=
  isHighSurrogate code || isLowSurrogate code

/-- The code point that a pair of surrogates writes. -/
def pairCode (high low : Nat) : Nat :=
  0x10000 + (high - 0xD800) * 0x400 + (low - 0xDC00)

/-- A pair writes a code point beyond the first plane. -/
theorem pairCode_bounds {high low : Nat} (hfirst : isHighSurrogate high = true)
    (hsecond : isLowSurrogate low = true) :
    0x10000 ≤ pairCode high low ∧ pairCode high low < 0x110000 := by
  simp only [isHighSurrogate, isLowSurrogate, Bool.and_eq_true, decide_eq_true_eq] at hfirst hsecond
  unfold pairCode
  omega

/-- The text with given code points, if none of them is a surrogate. -/
def ofCodes? (codes : List Nat) : Option Text :=
  if codes.any isSurrogate then none else some (codes.map Char.ofNat)

/-- No character is a surrogate. -/
theorem isSurrogate_toNat (c : Char) : isSurrogate c.toNat = false := by
  have hvalid := c.valid
  have hsame : c.val.toNat = c.toNat := rfl
  simp only [UInt32.isValidChar, Nat.isValidChar, hsame] at hvalid
  simp only [isSurrogate, isHighSurrogate, isLowSurrogate, Bool.or_eq_false_iff,
    Bool.and_eq_false_iff, decide_eq_false_iff_not]
  omega

/-- A text is given back from its code points. -/
theorem ofCodes?_codes (text : Text) : ofCodes? (text.map Char.toNat) = some text := by
  have hplain : (text.map Char.toNat).any isSurrogate = false := by
    simp [isSurrogate_toNat]
  simp [ofCodes?, hplain, Function.comp_def]

/-- Code points with a surrogate among them are no text. -/
theorem ofCodes?_of_surrogate {codes : List Nat} {code : Nat} (hmem : code ∈ codes)
    (hsurrogate : isSurrogate code = true) : ofCodes? codes = none := by
  have hfound : codes.any isSurrogate = true := List.any_eq_true.mpr ⟨code, hmem, hsurrogate⟩
  simp [ofCodes?, hfound]

end Exemplar.Text
