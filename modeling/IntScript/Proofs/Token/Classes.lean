import IntScript.Token.Scan

/-!
# Classes of characters

White space, letters, digits and the signs of the language do not overlap. Where a class is a table, that
is checked character by character.
-/

namespace IntScript

theorem Text.CharRanges.forall_of_all {ranges : Text.CharRanges} {p : Char → Bool}
    (h : (ranges.all fun r => (List.range' r.1 (r.2 + 1 - r.1)).all fun n => p (Char.ofNat n)) = true)
    {c : Char} (hc : ranges.contains c = true) : p c = true := by
  obtain ⟨r, hr, hlo, hhi⟩ := (CharRanges.contains_iff ranges c).1 hc
  have hrange := List.all_eq_true.1 h r hr
  have hmem : c.toNat ∈ List.range' r.1 (r.2 + 1 - r.1) := by
    rw [List.mem_range'_1]
    omega
  have hp := List.all_eq_true.1 hrange c.toNat hmem
  rwa [Char.ofNat_toNat] at hp

namespace Token

open Text

theorem breaks_of_isWhiteSpace {c : Char} (h : isWhiteSpace c = true) :
    continuesName c = false ∧ c ≠ '=' := by
  have hall := CharRanges.forall_of_all
    (p := fun c => !continuesName c && c != '=') (by decide +kernel) h
  simpa using hall

theorem contains_of_isDigit {c : Char} (h : c.isDigit = true) :
    CharRanges.contains [(48, 57)] c = true := by
  simp only [Char.isDigit, Bool.and_eq_true, decide_eq_true_eq] at h
  apply (CharRanges.contains_iff _ c).2
  exact ⟨(48, 57), by simp, UInt32.le_iff_toNat_le.1 h.1, UInt32.le_iff_toNat_le.1 h.2⟩

theorem beginsName_eq_false_of_isDigit {c : Char} (h : c.isDigit = true) :
    beginsName c = false := by
  have hall := CharRanges.forall_of_all (p := fun c => !beginsName c) (by decide +kernel)
    (contains_of_isDigit h)
  simpa using hall

theorem continuesName_of_isDigit {c : Char} (h : c.isDigit = true) : continuesName c = true :=
  CharRanges.forall_of_all (p := continuesName) (by decide +kernel) (contains_of_isDigit h)

theorem begins_no_word {c : Char} (h : continuesName c = false) :
    c.isDigit = false ∧ beginsName c = false := by
  constructor
  · cases hdigit : c.isDigit with
    | false => rfl
    | true => rw [continuesName_of_isDigit hdigit] at h; exact h
  · cases hname : beginsName c with
    | false => rfl
    | true => rw [continuesName_of_beginsName hname] at h; exact h

/-- The character can stand at the front of a text without being skipped. -/
def IsVisible (c : Char) : Prop := isWhiteSpace c = false ∧ c ≠ '#'

instance (c : Char) : Decidable (IsVisible c) := inferInstanceAs (Decidable (_ ∧ _))

theorem isVisible_of_continuesName {c : Char} (h : continuesName c = true) : IsVisible c := by
  constructor
  · cases hc : isWhiteSpace c with
    | false => rfl
    | true =>
      rw [(breaks_of_isWhiteSpace hc).1] at h
      cases h
  · rintro rfl
    exact absurd h (by decide)

theorem equalKind?_of_continuesName {c : Char} (h : continuesName c = true) :
    c ≠ '"' ∧ equalKind? c = none := by
  constructor
  · rintro rfl
    exact absurd h (by decide)
  · unfold equalKind?
    split
    · exact absurd h (by decide)
    · exact absurd h (by decide)
    · exact absurd h (by decide)
    · exact absurd h (by decide)
    · rfl

end Token

end IntScript
