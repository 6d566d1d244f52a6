import Exemplar.Proofs.Reading.Documents
import Exemplar.Value.Json
import Mathlib.Data.List.Basic

/-!
# Field keys

A field name that is a plain key stands in generated code as it is, and any other name is written
in quotes.  A reader of JSON takes such a key for a string and finds the name in it, whatever
quotes, backslashes and controls the name holds: it reads the escape of one character back,
whatever follows (`readPoint_keyChar`), and so all of them, one after the other, up to the quote
at the end (`readString_escaped`).

Since a plain key does not start with a quote, nothing is lost in a key (`fieldKey_faithful`), and
since controls are escaped, no key breaks a line.
-/

namespace Exemplar

namespace Json

/-- A control is read back from its four digits. -/
private theorem hexDigits_control : ∀ code < 0x20, ∃ a b c d, Text.hex 4 code = [a, b, c, d] ∧
    ([a, b, c, d].mapM hexDigit?).map (List.foldl (fun n digit => 16 * n + digit) 0) =
      some code := by
  have hlength : ∀ code < 0x20, (Text.hex 4 code).length = 4 := by decide +kernel
  have hdigits : ∀ code < 0x20, ((Text.hex 4 code).mapM hexDigit?).map
      (List.foldl (fun n digit => 16 * n + digit) 0) = some code := by decide +kernel
  intro code hcode
  obtain ⟨a, b, c, d, hform⟩ := List.length_eq_four.mp (hlength code hcode)
  exact ⟨a, b, c, d, hform, hform ▸ hdigits code hcode⟩

/-- The code of a control is read back, whatever follows. -/
theorem readCode_control {code : Nat} (hcontrol : code < 0x20) (rest : Text) :
    readCode (Text.hex 4 code ++ rest) = some (code, rest) := by
  obtain ⟨a, b, c, d, hform, hdigits⟩ := hexDigits_control code hcontrol
  obtain ⟨digits, hread, hcode⟩ := Option.map_eq_some_iff.mp hdigits
  simp only [hform, List.cons_append, List.nil_append, readCode, hread]
  simp [hcode]

/-- Only a high surrogate asks for a second code. -/
theorem readPair_of_not_high {code : Nat} (hlow : Text.isHighSurrogate code = false)
    (text : Text) : readPair code text = none := by
  unfold readPair
  cases behind? ['\\', 'u'] text with
  | none => rfl
  | some rest =>
      cases hread : readCode rest with
      | none => simp [hread]
      | some found => simp [hlow]

/-- The code of a control is no half of a pair, so that nothing behind it is read with it. -/
theorem readCodes_control {code : Nat} (hcontrol : code < 0x20) (rest : Text) :
    readCodes (Text.hex 4 code ++ rest) = some (code, rest) := by
  have hlow : Text.isHighSurrogate code = false := by
    simp only [Text.isHighSurrogate, Bool.and_eq_false_iff, decide_eq_false_iff_not]
    omega
  simp [readCodes, readCode_control hcontrol, readPair_of_not_high hlow]

/-- **One character.**  What a key writes for a character is read back as it, whatever follows. -/
theorem readPoint_keyChar (c : Char) (rest : Text) :
    readPoint (Text.keyChar c ++ rest) = some (c.toNat, rest) := by
  unfold Text.keyChar
  split
  case h_8 hquote hbackslash hbreak hreturn htab hbackspace hfeed =>
      split
      case isTrue hcontrol => exact readCodes_control hcontrol rest
      case isFalse hshown =>
          rw [List.cons_append, List.nil_append, readPoint]
          · simp only [hshown, if_false]
          · intro _ heq
            exact absurd heq hbackslash
          · intro _ _ heq
            exact absurd heq hbackslash
  all_goals rfl

/-- **All characters.**  The characters of a key are read up to the quote at its end. -/
theorem readString_escaped (name rest : Text) {limit : Nat} (hlimit : name.length ≤ limit) :
    readString limit (name.flatMap Text.keyChar ++ '"' :: rest) =
      some (name.map Char.toNat, rest) := by
  induction name generalizing limit with
  | nil => cases limit <;> rfl
  | cons c later ih =>
      obtain ⟨fewer, rfl⟩ : ∃ fewer, limit = fewer + 1 :=
        ⟨limit - 1, by rw [List.length_cons] at hlimit; omega⟩
      have hlater := ih (Nat.le_of_succ_le_succ hlimit)
      have hpoint := readPoint_keyChar c (later.flatMap Text.keyChar ++ '"' :: rest)
      rw [List.flatMap_cons, List.append_assoc]
      rw [readString]
      · simp [hpoint, hlater]
      · exact fun other hquote => keyChar_append_ne_quote c _ other hquote

end Json

/-! ## Keys -/

/-- **Reading a quoted key.**  A quoted key is the JSON text of a string, the name. -/
theorem ofJson?_quotedKey (name : Text) :
    Value.ofJson? (Text.quotedKey name) = some (.string name) := by
  have hlimit : name.length ≤ (name.flatMap Text.keyChar ++ ['"']).length := by
    have hescaped : name.length ≤ (name.flatMap Text.keyChar).length := by
      induction name with
      | nil => exact Nat.le_refl _
      | cons c later ih =>
          have hone : 0 < (Text.keyChar c).length := List.length_pos_iff.mpr fun hnone =>
            keyChar_append_ne_quote c ['"'] [] (by rw [hnone, List.nil_append])
          rw [List.flatMap_cons, List.length_append, List.length_cons]
          omega
    rw [List.length_append]
    omega
  have hread := Json.readString_escaped name [] hlimit
  have hdocument : Json.document? (Text.quotedKey name) = some (.string (name.map Char.toNat)) := by
    have hlast : ∀ limit, Json.readDocument (limit + 1) (Text.quotedKey name) =
        some (.string (name.map Char.toNat), []) := by
      intro limit
      rw [Text.quotedKey, Json.readDocument, List.cons_append]
      generalize name.flatMap Text.keyChar ++ ['"'] = escaped at hread
      simp [Json.skipBlanks, hread]
    rw [Json.document?, hlast]
    rfl
  rw [Value.ofJson?, hdocument, Option.bind_some, Json.Document.value?, Text.ofCodes?_codes]
  rfl

/-- A key holds no control, escaped ones included. -/
theorem control_not_mem_keyChar (c : Char) : ∀ d ∈ Text.keyChar c, 0x20 ≤ d.toNat := by
  have hdigits : ∀ code < 0x20,
      (Text.hex 4 code).all (fun d => decide (0x20 ≤ d.toNat)) = true := by
    decide +kernel
  have hall : (Text.keyChar c).all (fun d => decide (0x20 ≤ d.toNat)) = true := by
    unfold Text.keyChar
    split
    case h_8 =>
        split
        case isTrue hcontrol =>
            rw [List.all_append, hdigits _ hcontrol]
            rfl
        case isFalse hshown => simpa using hshown
    all_goals rfl
  intro d hmem
  exact of_decide_eq_true (List.all_eq_true.mp hall d hmem)

/-- A key in quotes holds no control. -/
theorem control_not_mem_quotedKey (name : Text) : ∀ c ∈ Text.quotedKey name, 0x20 ≤ c.toNat := by
  rw [Text.quotedKey, List.cons_append, List.forall_mem_cons, List.forall_mem_append,
    List.forall_mem_singleton]
  refine ⟨by decide, fun c hmem => ?_, by decide⟩
  obtain ⟨d, -, hc⟩ := List.mem_flatMap.mp hmem
  exact control_not_mem_keyChar d c hc

/-- A plain key does not start with a quote. -/
theorem ne_quotedKey_of_isPlainKey {name : Text} (hplain : Text.isPlainKey name = true)
    (other : Text) : name ≠ Text.quotedKey other := by
  rintro rfl
  have hquote := (uniform_of_isPlainKey hplain).2 '"' List.mem_cons_self
  exact absurd hquote (by decide)

/-- A plain key holds no control. -/
theorem control_not_mem_of_isPlainKey {name : Text} (hplain : Text.isPlainKey name = true) :
    ∀ c ∈ name, 0x20 ≤ c.toNat := by
  have hcontrols : ∀ code < 0x20, classOf (Char.ofNat code) ≠ .word := by decide
  intro c hmem
  by_contra hcontrol
  have hword := (uniform_of_isPlainKey hplain).2 c hmem
  exact hcontrols c.toNat (Nat.lt_of_not_le hcontrol) ((Char.ofNat_toNat c).symm ▸ hword)

/-- **Faithful keys.**  The key of a field is its name, if that is a plain key, and otherwise a
JSON text in quotes that is read as the name.  So fields of different names have different keys,
a name that stands as it is cannot be taken for one in quotes, and no key holds a control. -/
theorem fieldKey_faithful (name : Text) :
    (if Text.isPlainKey name = true then fieldKey name = name
      else (∃ inside, fieldKey name = '"' :: inside ++ ['"']) ∧
        Value.ofJson? (fieldKey name) = some (.string name)) ∧
      (∀ other, fieldKey name = fieldKey other → name = other) ∧
      (Text.isPlainKey name = true → ∀ other, fieldKey name ≠ Text.quotedKey other) ∧
      ∀ c ∈ fieldKey name, 0x20 ≤ c.toNat := by
  have hbare : ∀ text, Text.isPlainKey text = true → fieldKey text = text :=
    fun text hplain => if_pos hplain
  have hquoted : ∀ text, ¬ Text.isPlainKey text = true → fieldKey text = Text.quotedKey text :=
    fun text hquoted => if_neg hquoted
  by_cases hplain : Text.isPlainKey name = true
  · rw [if_pos hplain, hbare name hplain]
    have hnever := ne_quotedKey_of_isPlainKey hplain
    refine ⟨rfl, fun other hsame => ?_, fun _ => hnever, control_not_mem_of_isPlainKey hplain⟩
    by_cases hother : Text.isPlainKey other = true
    · rwa [hbare other hother] at hsame
    · exact absurd (hsame.trans (hquoted other hother)) (hnever other)
  · rw [if_neg hplain, hquoted name hplain]
    have hread := ofJson?_quotedKey name
    refine ⟨⟨⟨_, rfl⟩, hread⟩, fun other hsame => ?_, fun h => absurd h hplain,
      control_not_mem_quotedKey name⟩
    by_cases hother : Text.isPlainKey other = true
    · rw [hbare other hother] at hsame
      exact absurd hsame.symm (ne_quotedKey_of_isPlainKey hother name)
    · rw [hquoted other hother] at hsame
      have hstrings := hread.symm.trans (hsame ▸ ofJson?_quotedKey other)
      exact Value.string.inj (Option.some.inj hstrings)

/-- A name with a quote, a backslash in front of a letter and the end of a line in it. -/
example : fieldKey "say \"\\n\n" = "\"say \\\"\\\\n\\n\"".toList := by decide

end Exemplar
