import Exemplar.Proofs.StandardName.Plain
import Exemplar.Text.Alphanumeric
import Exemplar.Text.Identifier
import Mathlib.Data.List.Chain

/-!
# Character classes compared

Words, digits and identifiers are four classes of characters, each given by a table of its own,
and changes of case are a fifth.  What they have to do with each other is a question about whole
tables.  A table is therefore read as a number, its `codeSet`, whose binary digits say which code
points belong to it.  One inclusion of tables is then one equation of numbers, and a change of
case is settled by looking up the digits of two code points.

* `continuesIdentifier_of_starts`, `isDigit_of_starts`: what may start an identifier may also
  continue one, and denotes no digit.
* `staysIdentifier_upper`, `staysIdentifier_lower`: a letter that changes with its case may start
  an identifier, and what it becomes is one.
-/

namespace Exemplar.Text

/-! ## Tables as numbers -/

/-- The number in which exactly the digits of the code points of a table are set. -/
def codeSet : CodeRanges → Nat
  | [] => 0
  | (first, last) :: above => ((1 <<< (last + 1 - first) - 1) <<< first) ||| codeSet above

/-- A set of codes as a number has the bits of its codes. -/
theorem testBit_codeSet (ranges : CodeRanges) (code : Nat) :
    (codeSet ranges).testBit code = true ↔ ∃ r ∈ ranges, r.1 ≤ code ∧ code ≤ r.2 := by
  induction ranges with
  | nil => simp [codeSet]
  | cons r above ih =>
      have hhead : ((1 <<< (r.2 + 1 - r.1) - 1) <<< r.1).testBit code = true ↔
          r.1 ≤ code ∧ code ≤ r.2 := by
        rw [Nat.one_shiftLeft, Nat.testBit_shiftLeft, Nat.testBit_two_pow_sub_one, Bool.and_eq_true,
          decide_eq_true_eq, decide_eq_true_eq]
        omega
      rw [codeSet, Nat.testBit_or, Bool.or_eq_true, hhead, ih]
      simp only [List.mem_cons, exists_eq_or_imp]

/-- A range and one above it. -/
def Below (low high : Nat × Nat) : Prop :=
  low.1 ≤ low.2 ∧ low.2 < high.1

instance : DecidableRel Below :=
  fun _ _ => inferInstanceAs (Decidable (_ ∧ _))

instance : Trans Below Below Below where
  trans hfirst hsecond :=
    ⟨hfirst.1, Nat.lt_trans hfirst.2 (Nat.lt_of_le_of_lt hsecond.1 hsecond.2)⟩

/-- A table is sorted when neighbours are. -/
theorem ascending_of_isChain {ranges : CodeRanges} (hchain : ranges.IsChain Below) :
    Ascending ranges := by
  have hpairwise : ranges.Pairwise Below := List.isChain_iff_pairwise.mp hchain
  exact hpairwise

/-- A class that is given by a rule for ASCII and by a table for all else is given by a single
table, and so by the number of that table. -/
theorem class_eq_testBit (rule : Char → Bool) {low table : CodeRanges}
    (hchain : (low ++ table).IsChain Below) (hlow : ∀ r ∈ low, r.2 < 0x80)
    (hrule : ∀ code < 0x80, rule (Char.ofNat code) = inRanges (low ++ table) code) (c : Char) :
    (if c.toNat < 0x80 then rule c else inRanges table c.toNat) =
      (codeSet (low ++ table)).testBit c.toNat := by
  have hsorted := ascending_of_isChain hchain
  have hwhole : inRanges (low ++ table) c.toNat = (codeSet (low ++ table)).testBit c.toNat := by
    rw [Bool.eq_iff_iff, inRanges_iff hsorted, testBit_codeSet]
  rw [← hwhole]
  split
  · rename_i hascii
    rw [← hrule c.toNat hascii, Char.ofNat_toNat]
  · rename_i hother
    have htable : Ascending table := hsorted.sublist (List.sublist_append_right low table)
    rw [Bool.eq_iff_iff, inRanges_iff hsorted, inRanges_iff htable]
    constructor
    · rintro ⟨r, hmem, hin⟩
      exact ⟨r, List.mem_append_right low hmem, hin⟩
    · rintro ⟨r, hmem, hin⟩
      rcases List.mem_append.mp hmem with hmem | hmem
      · have := hlow r hmem
        omega
      · exact ⟨r, hmem, hin⟩

/-- Letters and numeric characters. -/
def alphanumericSet : Nat :=
  codeSet ([(0x30, 0x39), (0x41, 0x5A), (0x61, 0x7A)] ++ alphanumericRanges)

/-- What denotes a digit. -/
def digitSet : Nat :=
  codeSet ([(0x30, 0x39)] ++ digitRanges)

/-- What may start an identifier. -/
def identifierStartSet : Nat :=
  codeSet ([(0x41, 0x5A), (0x5F, 0x5F), (0x61, 0x7A)] ++ identifierStartRanges)

/-- What may continue an identifier. -/
def identifierPartSet : Nat :=
  codeSet ([(0x30, 0x39), (0x41, 0x5A), (0x5F, 0x5F), (0x61, 0x7A)] ++ identifierPartRanges)

/-- Whether a character is alphanumeric is a bit of one number. -/
theorem isAlphanumeric_eq (c : Char) : isAlphanumeric c = alphanumericSet.testBit c.toNat :=
  class_eq_testBit Char.isAlphanum (by decide +kernel) (by decide) (by decide +kernel) c

/-- Whether a character is a digit is a bit of one number. -/
theorem isDigit_eq (c : Char) : isDigit c = digitSet.testBit c.toNat :=
  class_eq_testBit Char.isDigit (by decide +kernel) (by decide) (by decide +kernel) c

/-- Whether a character can start an identifier is a bit of one number. -/
theorem startsIdentifier_eq (c : Char) :
    startsIdentifier c = identifierStartSet.testBit c.toNat :=
  class_eq_testBit (fun c => c.isAlpha || c == '_') (by decide +kernel) (by decide)
    (by decide +kernel) c

/-- Whether a character can go on with an identifier is a bit of one number. -/
theorem continuesIdentifier_eq (c : Char) :
    continuesIdentifier c = identifierPartSet.testBit c.toNat :=
  class_eq_testBit (fun c => c.isAlphanum || c == '_') (by decide +kernel) (by decide)
    (by decide +kernel) c

/-! ## Classes inside of others -/

/-- What can start an identifier can stand later in it. -/
theorem continuesIdentifier_of_starts {c : Char} (hstarts : startsIdentifier c = true) :
    continuesIdentifier c = true := by
  have hinside : identifierStartSet &&& identifierPartSet = identifierStartSet := by
    decide +kernel
  rw [startsIdentifier_eq, ← hinside, Nat.testBit_and, Bool.and_eq_true] at hstarts
  rw [continuesIdentifier_eq]
  exact hstarts.2

/-- No digit starts an identifier. -/
theorem isDigit_of_starts {c : Char} (hstarts : startsIdentifier c = true) :
    isDigit c = false := by
  have hapart : identifierStartSet &&& digitSet = 0 := by decide +kernel
  have hboth := Nat.testBit_and identifierStartSet digitSet c.toNat
  rw [hapart, Nat.zero_testBit, ← startsIdentifier_eq, ← isDigit_eq, hstarts,
    Bool.true_and] at hboth
  exact hboth.symm

/-! ## Changes of case -/

/-- A change of a character that leaves it alone, or takes a character that may start an
identifier to an identifier. -/
def StaysIdentifier (c : Char) (changed : List Char) : Prop :=
  changed = [c] ∨ startsIdentifier c = true ∧ isIdentifier changed = true

instance (c : Char) (changed : List Char) : Decidable (StaysIdentifier c changed) :=
  inferInstanceAs (Decidable (_ ∨ _))

/-- Where a run shifts a code point, if it does. -/
theorem shifted_cases (runs : List CaseRun) (code : Nat) :
    shifted runs code = code ∨ ∃ run ∈ runs, ∃ k < (run.2.1 - run.1) / run.2.2.1 + 1,
      code = run.1 + k * run.2.2.1 ∧ shifted runs code = (code + run.2.2.2).toNat := by
  fun_induction shifted runs code with
  | case1 => exact .inl rfl
  | case2 => exact .inl rfl
  | case3 first last step shift above code hbelow hrange =>
      simp only [Bool.and_eq_true, decide_eq_true_eq, beq_iff_eq] at hrange
      obtain ⟨hlast, hstep⟩ := hrange
      refine .inr ⟨_, List.mem_cons_self, (code - first) / step, ?_, ?_, rfl⟩
      · have hdivided : (code - first) / step ≤ (last - first) / step :=
          Nat.div_le_div_right (by omega)
        exact Nat.lt_succ_of_le hdivided
      · have hexact := Nat.div_add_mod (code - first) step
        rw [hstep, Nat.add_zero, Nat.mul_comm] at hexact
        dsimp only
        omega
  | case4 first last step shift above code hbelow hrange ih =>
      refine ih.imp_right fun hshifted => ?_
      obtain ⟨run, hmem, hrun⟩ := hshifted
      exact ⟨run, List.mem_cons_of_mem _ hmem, hrun⟩

/-- Letters that a run shifts may start an identifier before and afterwards.  Some runs shift
characters that are no letters, which words do not hold. -/
theorem run_stays : ∀ run ∈ upperRuns ++ lowerRuns, ∀ k < (run.2.1 - run.1) / run.2.2.1 + 1,
    alphanumericSet.testBit (run.1 + k * run.2.2.1) = true →
      identifierStartSet.testBit (run.1 + k * run.2.2.1) = true ∧
        identifierStartSet.testBit
          (Char.ofNat ((run.1 + k * run.2.2.1 : Nat) + run.2.2.2).toNat).toNat = true := by
  decide +kernel

/-- A text is an identifier by the bits of its characters. -/
theorem isIdentifier_eq (text : List Char) :
    isIdentifier text = match text with
      | [] => false
      | c :: rest => identifierStartSet.testBit c.toNat &&
          rest.all fun d => identifierPartSet.testBit d.toNat := by
  cases text with
  | nil => rfl
  | cons c rest => rw [isIdentifier, startsIdentifier_eq, funext continuesIdentifier_eq]

/-- The characters with longer forms in the other case start identifiers, and so do these forms. -/
theorem expansion_stays : ∀ entry ∈ upperExpansions ++ lowerExpansions,
    startsIdentifier (Char.ofNat entry.1) = true ∧
      isIdentifier (entry.2.map Char.ofNat) = true := by
  simp only [startsIdentifier_eq, isIdentifier_eq]
  decide +kernel

/-- What becomes of a character by tables: nothing, an expansion, or where a run shifts it. -/
theorem mapped_cases (runs : List CaseRun) (expansions : List (Nat × List Nat)) (c : Char) :
    mapped runs expansions c = [c] ∨
      (∃ entry ∈ expansions, c = Char.ofNat entry.1 ∧
        mapped runs expansions c = entry.2.map Char.ofNat) ∨
      ∃ run ∈ runs, ∃ k < (run.2.1 - run.1) / run.2.2.1 + 1, c.toNat = run.1 + k * run.2.2.1 ∧
        mapped runs expansions c = [Char.ofNat (c.toNat + run.2.2.2).toNat] := by
  unfold mapped
  split
  · rename_i codes hfound
    exact .inr (.inl ⟨_, mem_of_lookup hfound, (Char.ofNat_toNat c).symm, rfl⟩)
  · rcases shifted_cases runs c.toNat with hsame | ⟨run, hmem, k, hk, hcode, hshifted⟩
    · exact .inl (by rw [hsame, Char.ofNat_toNat])
    · exact .inr (.inr ⟨run, hmem, k, hk, hcode, by rw [hshifted]⟩)

/-- What tables of case forms make of a letter is as good in an identifier as the letter. -/
theorem staysIdentifier_mapped {runs : List CaseRun} {expansions : List (Nat × List Nat)}
    (hruns : ∀ run ∈ runs, run ∈ upperRuns ++ lowerRuns)
    (hexpansions : ∀ entry ∈ expansions, entry ∈ upperExpansions ++ lowerExpansions) {c : Char}
    (hletter : isAlphanumeric c = true) : StaysIdentifier c (mapped runs expansions c) := by
  rcases mapped_cases runs expansions c with hsame | ⟨entry, hmem, rfl, hexpanded⟩ |
    ⟨run, hmem, k, hk, hcode, hshifted⟩
  · exact .inl hsame
  · exact hexpanded ▸ .inr (expansion_stays entry (hexpansions entry hmem))
  · rw [isAlphanumeric_eq, hcode] at hletter
    have hstays := run_stays run (hruns run hmem) k hk hletter
    rw [← hcode, ← startsIdentifier_eq, ← startsIdentifier_eq] at hstays
    refine hshifted ▸ .inr ⟨hstays.1, ?_⟩
    rw [isIdentifier, hstays.2]
    rfl

/-- The letters and digits of ASCII, settled by going through them. -/
theorem staysIdentifier_ascii : ∀ code < 0x80,
    StaysIdentifier (Char.ofNat code) [(Char.ofNat code).toUpper] ∧
      StaysIdentifier (Char.ofNat code) [(Char.ofNat code).toLower] := by
  decide +kernel

/-- **Upper case.**  A letter that has another upper case stays part of an identifier. -/
theorem staysIdentifier_upper {c : Char} (hletter : isAlphanumeric c = true) :
    StaysIdentifier c (upper c) := by
  unfold upper
  split
  · rename_i hascii
    exact Char.ofNat_toNat c ▸ (staysIdentifier_ascii c.toNat hascii).1
  · exact staysIdentifier_mapped (fun _ => List.mem_append_left _)
      (fun _ => List.mem_append_left _) hletter

/-- **Lower case.**  A letter that has another lower case stays part of an identifier. -/
theorem staysIdentifier_lower {c : Char} (hletter : isAlphanumeric c = true) :
    StaysIdentifier c (lower c) := by
  unfold lower
  split
  · rename_i hascii
    exact Char.ofNat_toNat c ▸ (staysIdentifier_ascii c.toNat hascii).2
  · exact staysIdentifier_mapped (fun _ => List.mem_append_right _)
      (fun _ => List.mem_append_right _) hletter

/-! ## Letters that stay -/

/-- A text with a letter or a digit in it. -/
def HasLetter (text : List Char) : Prop :=
  ∃ c ∈ text, isAlphanumeric c = true

/-- The case forms in runs are alphanumeric where the characters are. -/
theorem run_hasLetter : ∀ run ∈ upperRuns ++ lowerRuns, ∀ k < (run.2.1 - run.1) / run.2.2.1 + 1,
    alphanumericSet.testBit (run.1 + k * run.2.2.1) = true → alphanumericSet.testBit
      (Char.ofNat ((run.1 + k * run.2.2.1 : Nat) + run.2.2.2).toNat).toNat = true := by
  decide +kernel

/-- The longer case forms have an alphanumeric character in them. -/
theorem expansion_hasLetter : ∀ entry ∈ upperExpansions ++ lowerExpansions,
    HasLetter (entry.2.map Char.ofNat) := by
  have hfirst : ∀ entry ∈ upperExpansions ++ lowerExpansions, ∃ code ∈ entry.2,
      alphanumericSet.testBit (Char.ofNat code).toNat = true := by
    decide +kernel
  intro entry hentry
  obtain ⟨code, hcode, hletter⟩ := hfirst entry hentry
  exact ⟨Char.ofNat code, List.mem_map_of_mem hcode, isAlphanumeric_eq _ ▸ hletter⟩

/-- What tables of case forms make of a letter has an alphanumeric character in it. -/
theorem hasLetter_mapped {runs : List CaseRun} {expansions : List (Nat × List Nat)}
    (hruns : ∀ run ∈ runs, run ∈ upperRuns ++ lowerRuns)
    (hexpansions : ∀ entry ∈ expansions, entry ∈ upperExpansions ++ lowerExpansions) {c : Char}
    (hletter : isAlphanumeric c = true) : HasLetter (mapped runs expansions c) := by
  rcases mapped_cases runs expansions c with hsame | ⟨entry, hmem, -, hexpanded⟩ |
    ⟨run, hmem, k, hk, hcode, hshifted⟩
  · exact hsame ▸ ⟨c, List.mem_singleton_self c, hletter⟩
  · exact hexpanded ▸ expansion_hasLetter entry (hexpansions entry hmem)
  · rw [isAlphanumeric_eq, hcode] at hletter
    have hstays := run_hasLetter run (hruns run hmem) k hk hletter
    rw [← hcode, ← isAlphanumeric_eq] at hstays
    exact hshifted ▸ ⟨_, List.mem_singleton_self _, hstays⟩

/-- In ASCII both case forms of a letter are alphanumeric. -/
theorem hasLetter_ascii : ∀ code < 0x80, isAlphanumeric (Char.ofNat code) = true →
    isAlphanumeric (Char.ofNat code).toUpper = true ∧
      isAlphanumeric (Char.ofNat code).toLower = true := by
  decide +kernel

/-- A letter or digit has one in its upper case, perhaps among other characters. -/
theorem hasLetter_upper {c : Char} (hletter : isAlphanumeric c = true) : HasLetter (upper c) := by
  unfold upper
  split
  · rename_i hascii
    rw [← Char.ofNat_toNat c] at hletter ⊢
    exact ⟨_, List.mem_singleton_self _, (hasLetter_ascii c.toNat hascii hletter).1⟩
  · exact hasLetter_mapped (fun _ => List.mem_append_left _) (fun _ => List.mem_append_left _)
      hletter

/-- A letter or digit has one in its lower case. -/
theorem hasLetter_lower {c : Char} (hletter : isAlphanumeric c = true) : HasLetter (lower c) := by
  unfold lower
  split
  · rename_i hascii
    rw [← Char.ofNat_toNat c] at hletter ⊢
    exact ⟨_, List.mem_singleton_self _, (hasLetter_ascii c.toNat hascii hletter).2⟩
  · exact hasLetter_mapped (fun _ => List.mem_append_right _) (fun _ => List.mem_append_right _)
      hletter

end Exemplar.Text
