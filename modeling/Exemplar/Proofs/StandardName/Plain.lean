import Exemplar.Proofs.Position
import Exemplar.Proofs.Spelling

/-!
# Standard names are plain

A step adds a dot or a closing bracket to a key.  Words hold neither, and no change of case
brings one in: no run of the case tables reaches them and no expansion holds one
(`shifted_ne`, `mem_mapped`).  So a name of the standard generator is plain, whatever the keypath
(`isPlain_standardTypeName`), and so is every identifier.
-/

namespace Exemplar

/-- A character that no step adds to a key, unless it stands in the name of a member. -/
def IsInert (c : Char) : Prop :=
  c ≠ '.' ∧ c ≠ ']'

/-- A text of inert characters is a plain name. -/
theorem isPlain_of_inert {text : Text} (hinert : ∀ c ∈ text, IsInert c) : text.IsPlain where
  noDot hmem := (hinert _ hmem).1 rfl
  noMark hmark := (hinert _ (hmark.mem (by decide))).2 rfl

/-! ## Changes of case -/

namespace Text

/-- Code points that a run can be shifted to lie between the shifted ends of it. -/
theorem shifted_ne {runs : List CaseRun} {code n : Nat} (hn : 0 < n) (hcode : code ≠ n)
    (hruns : ∀ run ∈ runs, (n : Int) < run.1 + run.2.2.2 ∨ run.2.1 + run.2.2.2 < (n : Int)) :
    shifted runs code ≠ n := by
  fun_induction shifted runs code with
  | case1 => exact hcode
  | case2 => exact hcode
  | case3 first last step shift above code hbelow hrange =>
      have hends := hruns _ List.mem_cons_self
      simp only [Bool.and_eq_true, decide_eq_true_eq] at hrange hends
      omega
  | case4 first last step shift above code hbelow hrange ih =>
      exact ih hcode fun run hmem => hruns run (List.mem_cons_of_mem _ hmem)

/-- What a table is looked up for stands in it. -/
theorem mem_of_lookup {table : List (Nat × List Nat)} {code : Nat} {codes : List Nat}
    (hfound : table.lookup code = some codes) : (code, codes) ∈ table := by
  induction table with
  | nil => cases hfound
  | cons entry rest ih =>
      obtain ⟨key, value⟩ := entry
      by_cases hkey : code = key
      · simp only [hkey, List.lookup_cons_self, Option.some.injEq] at hfound
        simp [hkey, hfound]
      · rw [List.lookup_cons, beq_false_of_ne hkey] at hfound
        exact List.mem_cons_of_mem _ (ih hfound)

/-- Another code makes another character, even where it is the code of none. -/
theorem ofNat_ne {code : Nat} {c : Char} (hc : 0 < c.toNat) (hcode : code ≠ c.toNat) :
    Char.ofNat code ≠ c := by
  rintro rfl
  by_cases hvalid : code.isValidChar
  · have hcoded : Char.ofNat code = Char.ofNatAux code hvalid := dif_pos hvalid
    exact hcode (congrArg Char.toNat hcoded).symm
  · have hnull : Char.ofNat code = '\x00' := dif_neg hvalid
    exact absurd (hnull ▸ hc) (by decide)

/-- A character that neither a run nor an expansion leads to comes from itself alone. -/
theorem mem_mapped {runs : List CaseRun} {expansions : List (Nat × List Nat)} {c mark : Char}
    (hmark : 0 < mark.toNat)
    (hruns : ∀ run ∈ runs,
      (mark.toNat : Int) < run.1 + run.2.2.2 ∨ run.2.1 + run.2.2.2 < (mark.toNat : Int))
    (hexpansions : ∀ entry ∈ expansions, mark.toNat ∉ entry.2)
    (hmem : mark ∈ mapped runs expansions c) :
    c = mark := by
  by_contra hother
  have hcode : c.toNat ≠ mark.toNat := fun hsame => hother (Char.toNat_inj.mp hsame)
  unfold mapped at hmem
  split at hmem
  · rename_i codes hfound
    obtain ⟨code, hmember, hsame⟩ := List.mem_map.mp hmem
    refine ofNat_ne hmark (fun hequal => ?_) hsame
    exact hexpansions _ (mem_of_lookup hfound) (hequal ▸ hmember)
  · exact ofNat_ne hmark (shifted_ne hmark hcode hruns) (List.mem_singleton.mp hmem).symm

/-- Neither mark comes from another character by a change of case. -/
theorem eq_of_mem_case {c mark : Char} (hmark : mark = '.' ∨ mark = ']')
    (hmem : mark ∈ upper c ∨ mark ∈ lower c) : c = mark := by
  by_cases hc : c.toNat < 0x80
  · rw [upper_of_lt hc, lower_of_lt hc, List.mem_singleton, List.mem_singleton] at hmem
    obtain ⟨code, hcode, rfl⟩ : ∃ code < 0x80, c = Char.ofNat code :=
      ⟨c.toNat, hc, (Char.ofNat_toNat c).symm⟩
    clear hc
    rcases hmark with rfl | rfl <;>
    · revert code
      decide
  · rw [upper, lower, if_neg hc, if_neg hc] at hmem
    rcases hmark with rfl | rfl <;> rcases hmem with hmem | hmem <;>
      exact mem_mapped (by decide) (by decide +kernel) (by decide +kernel) hmem

/-- The case forms of an inert character are inert. -/
theorem isInert_case {c d : Char} (hinert : IsInert c) (hmem : d ∈ upper c ∨ d ∈ lower c) :
    IsInert d := by
  constructor
  · rintro rfl
    exact hinert.1 (eq_of_mem_case (.inl rfl) hmem)
  · rintro rfl
    exact hinert.2 (eq_of_mem_case (.inr rfl) hmem)

/-- To capitalize a text keeps it inert. -/
theorem inert_capitalize {text : Text} (hinert : ∀ c ∈ text, IsInert c) :
    ∀ c ∈ capitalize text, IsInert c := by
  cases text with
  | nil => exact hinert
  | cons front rest =>
      intro c hmem
      rcases List.mem_append.mp hmem with hfront | hrest
      · exact isInert_case (hinert front List.mem_cons_self) (.inl hfront)
      · exact hinert c (List.mem_cons_of_mem front hrest)

/-- To uncapitalize a text keeps it inert. -/
theorem inert_uncapitalize {text : Text} (hinert : ∀ c ∈ text, IsInert c) :
    ∀ c ∈ uncapitalize text, IsInert c := by
  cases text with
  | nil => exact hinert
  | cons front rest =>
      intro c hmem
      rcases List.mem_append.mp hmem with hfront | hrest
      · exact isInert_case (hinert front List.mem_cons_self) (.inr hfront)
      · exact hinert c (List.mem_cons_of_mem front hrest)

end Text

/-! ## Names -/

/-- Words are inert, since they are alphanumeric. -/
theorem inert_words {text word : Text} (hmem : word ∈ words text) : ∀ c ∈ word, IsInert c := by
  intro c hc
  have halphanumeric := ((mem_words hmem).2 c hc).1
  constructor
  · rintro rfl
    exact absurd halphanumeric (by decide)
  · rintro rfl
    exact absurd halphanumeric (by decide)

/-- The guard of a digit keeps a text inert. -/
theorem inert_guardDigit {text : Text} (hinert : ∀ c ∈ text, IsInert c) :
    ∀ c ∈ guardDigit text, IsInert c := by
  intro c hmem
  rcases mem_guardDigit hmem with rfl | hmem
  · exact ⟨by decide, by decide⟩
  · exact hinert c hmem

/-- A text in camel case is inert. -/
theorem inert_camelCase (text : Text) : ∀ c ∈ camelCase text, IsInert c := by
  unfold camelCase
  split
  · simp
  · rename_i first later hwords
    refine inert_guardDigit fun c hmem => ?_
    rcases List.mem_append.mp hmem with hfirst | hlater
    · exact Text.inert_uncapitalize (inert_words (hwords ▸ List.mem_cons_self)) c hfirst
    · obtain ⟨word, hword, hc⟩ := List.mem_flatMap.mp hlater
      exact Text.inert_capitalize
        (inert_words (hwords ▸ List.mem_cons_of_mem first hword)) c hc

/-- **Standard names are plain**, whatever characters the keypath holds. -/
theorem isPlain_standardTypeName {keypath : Keypath} {name : Name}
    (hname : standardTypeName keypath = some name) : Text.IsPlain name := by
  rw [eq_capitalize_of_name hname]
  exact isPlain_of_inert (Text.inert_capitalize (inert_camelCase _))

/-- Identifiers are plain. -/
theorem isPlain_of_isIdentifier {text : Text} (hidentifier : Text.isIdentifier text = true) :
    text.IsPlain := by
  cases text with
  | nil => cases hidentifier
  | cons c rest =>
      rw [Text.isIdentifier, Bool.and_eq_true, List.all_eq_true] at hidentifier
      obtain ⟨hstart, hlater⟩ := hidentifier
      refine isPlain_of_inert fun d hmem => ?_
      rcases List.mem_cons.mp hmem with rfl | hmem
      · constructor <;> rintro rfl <;> exact absurd hstart (by decide)
      · have hpart := hlater d hmem
        constructor <;> rintro rfl <;> exact absurd hpart (by decide)

end Exemplar
