import Exemplar.Proofs.Layout.Statements
import Exemplar.Proofs.Layout.Width

/-!
# Documents of one line

A document in which nothing forces a break has a form of one line, with every group laid flat
(`Doc.flatText`).  It is what the printer looks ahead at when it decides a group, and what it
writes when it lays the group flat, so that a group lies flat exactly when that form fits together
with what follows it.
-/

namespace Exemplar

namespace Doc

mutual

/-- The text of a document with every group laid flat. -/
def flatText : Doc → Text
  | text content => content
  | concat parts => flatTextAll parts
  | indent body => body.flatText
  | group body _ => body.flatText
  | line flat _ => flat
  | ifBroken _ flat => flat.flatText

/-- The text of documents one after the other with every group laid flat. -/
def flatTextAll : List Doc → Text
  | [] => []
  | part :: rest => part.flatText ++ flatTextAll rest

end

/-! ## Laid flat -/

mutual

/-- The text ahead of a flat document of one line is all of it, and what follows. -/
theorem ahead_flat (doc : Doc) (hdoc : doc.OneLine) (follows : Text) :
    doc.ahead .flat follows = doc.flatText ++ follows := by
  cases doc with
  | text content => rfl
  | line flat hard =>
      obtain ⟨-, rfl⟩ : '\n' ∉ flat ∧ hard = false := hdoc
      simp [ahead, flatText]
  | concat parts => exact aheadAll_flat parts hdoc follows
  | indent body => exact ahead_flat body hdoc.2 follows
  | group body marked =>
      obtain ⟨hmarked, hbody⟩ := hdoc
      obtain rfl : marked = false := hmarked
      exact ahead_flat body hbody follows
  | ifBroken broken flat => exact ahead_flat flat hdoc.2.2 follows

/-- Of several documents that are laid flat all is ahead. -/
theorem aheadAll_flat (docs : List Doc) (hdocs : (concat docs).OneLine) (follows : Text) :
    aheadAll .flat follows docs = flatTextAll docs ++ follows := by
  cases docs with
  | nil => rfl
  | cons doc rest =>
      obtain ⟨-, hdoc, hrest⟩ := hdocs
      rw [aheadAll, aheadAll_flat rest ⟨trivial, hrest⟩, ahead_flat doc hdoc, flatTextAll,
        List.append_assoc]

end

/-- Laid flat, a document that takes one line has no line feed. -/
theorem newline_not_mem_flatText {doc : Doc} (hdoc : doc.OneLine) : '\n' ∉ doc.flatText := by
  have hline := (ahead_of_oneLine doc hdoc).1
  rwa [ahead_flat doc hdoc, List.append_nil] at hline

mutual

/-- Laid flat, a document of one line is written as its flat text. -/
theorem settle_flat (style : Style) (depth : Nat) (follows : Text) (column : Nat) (doc : Doc)
    (hdoc : doc.OneLine) :
    (doc.settle style depth .flat follows column).1.write style depth .flat = doc.flatText ∧
      (doc.settle style depth .flat follows column).2 = column + doc.flatText.length := by
  cases doc with
  | text content => exact ⟨rfl, rfl⟩
  | line flat hard =>
      obtain ⟨-, rfl⟩ : '\n' ∉ flat ∧ hard = false := hdoc
      simp [settle, write, flatText]
  | concat parts => exact settleAll_flat style depth follows column parts hdoc
  | indent body => exact settle_flat style (depth + 1) follows column body hdoc.2
  | group body marked =>
      obtain ⟨hmarked, hbody⟩ := hdoc
      obtain rfl : marked = false := hmarked
      rw [settle, if_pos ⟨rfl, .inl rfl⟩]
      exact settle_flat style depth follows column body hbody
  | ifBroken broken flat => exact settle_flat style depth follows column flat hdoc.2.2

/-- Several documents inside a flat group lie flat, too. -/
theorem settleAll_flat (style : Style) (depth : Nat) (follows : Text) (column : Nat)
    (docs : List Doc) (hdocs : (concat docs).OneLine) :
    writeAll style depth .flat (settleAll style depth .flat follows column docs).1 =
        flatTextAll docs ∧
      (settleAll style depth .flat follows column docs).2 =
        column + (flatTextAll docs).length := by
  cases docs with
  | nil => exact ⟨rfl, rfl⟩
  | cons doc rest =>
      obtain ⟨-, hdoc, hrest⟩ := hdocs
      obtain ⟨hfirst, hmiddle⟩ :=
        settle_flat style depth (aheadAll .flat follows rest) column doc hdoc
      obtain ⟨hlater, hlast⟩ := settleAll_flat style depth follows
        (doc.settle style depth .flat (aheadAll .flat follows rest) column).2 rest ⟨trivial, hrest⟩
      rw [settleAll, writeAll, hfirst, hlater, hlast, hmiddle, flatTextAll, List.length_append,
        Nat.add_assoc]
      exact ⟨rfl, rfl⟩

end

/-! ## Groups -/

/-- An unmarked group of one line in a broken group lies flat when its flat text fits together with
what follows it. -/
theorem liesFlat_iff {style : Style} {follows : Text} {column : Nat} {body : Doc}
    (hbody : body.OneLine) : body.LiesFlat style .broken follows column false ↔
      column + body.flatText.length + follows.length ≤ style.width.1 := by
  simp [LiesFlat, ahead_flat body hbody, Nat.add_assoc]

/-! ## Without marks -/

mutual

/-- A document of one line has no hard line that marks anything. -/
theorem propagate_of_oneLine (doc : Doc) (hdoc : doc.OneLine) : doc.propagate = (doc, false) := by
  cases doc with
  | text content => rfl
  | line flat hard =>
      obtain ⟨-, rfl⟩ : '\n' ∉ flat ∧ hard = false := hdoc
      rfl
  | concat parts => rw [propagate, propagateAll_of_oneLine parts hdoc]
  | indent body => rw [propagate, propagate_of_oneLine body hdoc.2]
  | group body marked =>
      obtain ⟨hmarked, hbody⟩ := hdoc
      obtain rfl : marked = false := hmarked
      rw [propagate, propagate_of_oneLine body hbody]
      rfl
  | ifBroken broken flat =>
      rw [propagate, propagate_of_oneLine broken hdoc.2.1, propagate_of_oneLine flat hdoc.2.2]

/-- Nothing is marked in documents that take one line. -/
theorem propagateAll_of_oneLine (docs : List Doc) (hdocs : (concat docs).OneLine) :
    propagateAll docs = (docs, false) := by
  cases docs with
  | nil => rfl
  | cons doc rest =>
      obtain ⟨-, hdoc, hrest⟩ := hdocs
      rw [propagateAll, propagate_of_oneLine doc hdoc,
        propagateAll_of_oneLine rest ⟨trivial, hrest⟩]
      rfl

end

/-- A document without hard lines is printed without marking it. -/
theorem print_of_oneLine (style : Style) {doc : Doc} (hdoc : doc.OneLine) :
    doc.print style = (doc.settled style).write style 0 .broken := by
  rw [print_eq_write_settled, propagate_of_oneLine doc hdoc]

end Doc

end Exemplar
