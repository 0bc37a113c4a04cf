/-!
The values of the language: 64-bit signed integers. Integers outside their range have no word; nothing
wraps around. Words are read and written in decimal.
-/

namespace IntScript

abbrev Word := Int64

namespace Word

def Fits (i : Int) : Prop := -9223372036854775808 ≤ i ∧ i ≤ 9223372036854775807

instance (i : Int) : Decidable (Fits i) := inferInstanceAs (Decidable (_ ∧ _))

def ofInt? (i : Int) : Option Word := if Fits i then some (Int64.ofInt i) else none

theorem fits_toInt (w : Word) : Fits w.toInt := by
  have hlo := w.le_toInt
  have hhi := w.toInt_lt
  exact ⟨by omega, by omega⟩

theorem ofInt?_eq_some_iff {i : Int} {w : Word} : ofInt? i = some w ↔ w.toInt = i := by
  constructor
  · intro h
    simp only [ofInt?, Option.ite_none_right_eq_some, Option.some.injEq] at h
    obtain ⟨⟨hlo, hhi⟩, rfl⟩ := h
    exact Int64.toInt_ofInt_of_le (by omega) (by omega)
  · rintro rfl
    simp [ofInt?, fits_toInt, Int64.ofInt_toInt]

theorem ofInt?_eq_none_iff {i : Int} : ofInt? i = none ↔ ¬ Fits i := by
  simp [ofInt?]

def ofBool (b : Bool) : Word := if b then 1 else 0

/-- The number that a non-empty run of ASCII digits denotes. -/
def digits? (cs : List Char) : Option Nat :=
  if cs ≠ [] ∧ cs.all Char.isDigit = true then some (Nat.ofDigitChars 10 cs 0) else none

/-- Reads a word: an optional sign, then digits, with a value in range. -/
def ofDecimal? : List Char → Option Word
  | '-' :: cs => (digits? cs).bind fun n => ofInt? (-n)
  | '+' :: cs => (digits? cs).bind fun n => ofInt? n
  | cs => (digits? cs).bind fun n => ofInt? n

/-- Writes a word: a minus sign if it is negative, then its digits without leading zeros. -/
def decimal (w : Word) : List Char :=
  if w.toInt < 0 then '-' :: Nat.toDigits 10 w.toInt.natAbs else Nat.toDigits 10 w.toInt.natAbs

end Word

end IntScript
