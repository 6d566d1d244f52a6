/-!
# Sets of characters given by ranges of code points

A character class of a standard is a set of code points, written as a sorted
list of inclusive ranges.  `inRanges` looks a code point up and stops at the
first range that lies above it, so that a query about a low code point reads a
short part of the table only.  `inRanges_iff` says that on a sorted table this
is plain membership in one of the ranges.
-/

namespace Exemplar.Text

/-- Inclusive ranges of code points, each above the one before it. -/
abbrev CodeRanges := List (Nat × Nat)

/-- Whether a code point lies in one of the ranges of a sorted table. -/
def inRanges : CodeRanges → Nat → Bool
  | [], _ => false
  | (first, last) :: above, code =>
      if code < first then false else code ≤ last || inRanges above code

/-- Each range starts above the last code point of every range before it. -/
def Ascending (ranges : CodeRanges) : Prop :=
  ranges.Pairwise fun low high => low.1 ≤ low.2 ∧ low.2 < high.1

/-- On a sorted table the early stop loses nothing. -/
theorem inRanges_iff {ranges : CodeRanges} (hsorted : Ascending ranges) (code : Nat) :
    inRanges ranges code = true ↔ ∃ r ∈ ranges, r.1 ≤ code ∧ code ≤ r.2 := by
  induction ranges with
  | nil => simp [inRanges]
  | cons r above ih =>
      obtain ⟨hhead, htail⟩ := List.pairwise_cons.mp hsorted
      have hrest := ih htail
      by_cases hlow : code < r.1
      · have hnone : ¬ ∃ s ∈ above, s.1 ≤ code ∧ code ≤ s.2 := by
          rintro ⟨s, hmem, hstart, -⟩
          have := hhead s hmem
          omega
        simp only [inRanges, hlow, if_true, List.mem_cons, exists_eq_or_imp]
        simp only [hnone, or_false, Bool.false_eq_true, false_iff]
        omega
      · simp only [inRanges, hlow, if_false, Bool.or_eq_true, decide_eq_true_eq, hrest,
          List.mem_cons, exists_eq_or_imp]
        constructor
        · rintro (hle | hfound)
          · exact Or.inl ⟨by omega, hle⟩
          · exact Or.inr hfound
        · rintro (⟨-, hle⟩ | hfound)
          · exact Or.inl hle
          · exact Or.inr hfound

end Exemplar.Text
