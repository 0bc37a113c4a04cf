import IntScript.Run.RuntimeError
import IntScript.Tree

/-!
What operators do to words. Results are those of the integers; one that has no word is an overflow.
Quotients are rounded down.
-/

namespace IntScript

namespace Word

/-- The word of an integer, or an overflow in the operator that gave it. -/
def checked (operator : String) (i : Int) : Except RuntimeError Word :=
  match ofInt? i with
  | some w => .ok w
  | none => .error (.arithmeticOverflow operator)

def negate (w : Word) : Except RuntimeError Word := checked "-" (-w.toInt)

/-- The quotient, rounded towards zero. There is none by zero, and none that has no word. -/
def quotient? (left right : Word) : Option Word :=
  if right.toInt = 0 then none else ofInt? (left.toInt.tdiv right.toInt)

/-- What is left over. Asking for it is a fault where there is no quotient. -/
def remainder? (left right : Word) : Option Word :=
  if (quotient? left right).isSome then ofInt? (left.toInt.tmod right.toInt) else none

def predecessor? (w : Word) : Option Word := ofInt? (w.toInt - 1)

/-- The quotient, rounded down: rounded towards zero, and one less if the signs differ and something is
left over. There is no answer if a step has none. -/
def floorSteps (left right : Word) : Option (Except RuntimeError Word) :=
  if right.toInt = 0 then some (.error .divisionByZero)
  else
    match quotient? left right with
    | none => some (.error (.arithmeticOverflow "/"))
    | some q =>
      if ¬ (left.toInt < 0 ↔ right.toInt < 0) then
        match remainder? left right with
        | none => none
        | some rest => if rest.toInt ≠ 0 then (predecessor? q).map .ok else some (.ok q)
      else some (.ok q)

theorem exists_ofInt? {i : Int} (h : Fits i) : ∃ w, ofInt? i = some w :=
  ⟨_, if_pos h⟩

theorem checked_of_ofInt? {operator : String} {i : Int} {w : Word} (h : ofInt? i = some w) :
    checked operator i = .ok w := by
  rw [checked, h]

theorem fits_tmod (left : Word) {right : Word} (hright : right.toInt ≠ 0) :
    Fits (left.toInt.tmod right.toInt) := by
  have hsize : (left.toInt.tmod right.toInt).natAbs < right.toInt.natAbs := by
    rw [Int.natAbs_tmod]
    exact Nat.mod_lt _ (by omega)
  obtain ⟨hlo, hhi⟩ := fits_toInt right
  constructor <;> omega

theorem natAbs_tdiv_le {left right : Word} (hright : right.toInt ≠ 0)
    (hrest : left.toInt.tmod right.toInt ≠ 0) :
    (left.toInt.tdiv right.toInt).natAbs ≤ 4611686018427387904 := by
  -- Where something is left over, the divisor is not one, so the quotient is far from the edge.
  have hone : right.toInt.natAbs ≠ 1 := by
    intro hone
    have hmod := Int.natAbs_tmod left.toInt right.toInt
    rw [hone, Nat.mod_one] at hmod
    exact hrest (Int.natAbs_eq_zero.1 hmod)
  have htwo : 2 ≤ right.toInt.natAbs := by omega
  have hhalf : (left.toInt.tdiv right.toInt).natAbs ≤ left.toInt.natAbs / 2 := by
    rw [Int.natAbs_tdiv]
    exact Nat.div_le_div_left htwo (by omega)
  obtain ⟨hlo, hhi⟩ := fits_toInt left
  omega

theorem fdiv_eq_sub_one {a b : Int} (hb : b ≠ 0) (hsigns : ¬ (a < 0 ↔ b < 0)) (hrest : a.tmod b ≠ 0) :
    a.fdiv b = a.tdiv b - 1 := by
  have hdvd : ¬ b ∣ a := fun h => hrest (Int.tmod_eq_zero_of_dvd h)
  rw [Int.fdiv_eq_tdiv, if_neg hdvd]
  by_cases ha : 0 ≤ a
  · rw [if_pos ha, if_neg (by omega)]
  · rw [if_neg ha, if_pos (by omega), Int.sign_eq_one_of_pos (by omega)]

theorem fdiv_eq_tdiv {a b : Int} (h : (a < 0 ↔ b < 0) ∨ a.tmod b = 0) : a.fdiv b = a.tdiv b := by
  rw [Int.fdiv_eq_tdiv]
  by_cases hdvd : b ∣ a
  · rw [if_pos hdvd, Int.sub_zero]
  rw [if_neg hdvd]
  have hsigns : a < 0 ↔ b < 0 := h.resolve_right fun hrest => hdvd (Int.dvd_of_tmod_eq_zero hrest)
  by_cases ha : 0 ≤ a
  · rw [if_pos ha, if_pos (by omega), Int.sub_zero]
  · rw [if_neg ha, if_neg (by omega), Int.sign_eq_neg_one_of_neg (by omega)]
    exact Int.sub_zero _

theorem floorSteps_eq (left right : Word) :
    floorSteps left right =
      some (if right.toInt = 0 then .error .divisionByZero
        else checked "/" (left.toInt.fdiv right.toInt)) := by
  unfold floorSteps
  by_cases hright : right.toInt = 0
  · rw [if_pos hright, if_pos hright]
  rw [if_neg hright, if_neg hright]
  have hquotient : quotient? left right = ofInt? (left.toInt.tdiv right.toInt) := if_neg hright
  cases hq : quotient? left right with
  | none =>
    have hover : ¬ Fits (left.toInt.tdiv right.toInt) := ofInt?_eq_none_iff.1 (hquotient ▸ hq)
    -- only a quotient that is exact can be too large, and then both ways to round agree
    have hzero : left.toInt.tmod right.toInt = 0 := by
      refine Decidable.byContradiction fun hrest => hover ?_
      have hsize := natAbs_tdiv_le hright hrest
      constructor <;> omega
    rw [fdiv_eq_tdiv (.inr hzero), checked, ofInt?_eq_none_iff.2 hover]
  | some q =>
    have htdiv : ofInt? (left.toInt.tdiv right.toInt) = some q := hquotient ▸ hq
    dsimp only
    by_cases hsigns : left.toInt < 0 ↔ right.toInt < 0
    · rw [if_neg (not_not_intro hsigns), fdiv_eq_tdiv (.inl hsigns), checked_of_ofInt? htdiv]
    · have hremainder : remainder? left right = ofInt? (left.toInt.tmod right.toInt) := by
        rw [remainder?, hq]
        rfl
      obtain ⟨rest, hrest⟩ := exists_ofInt? (fits_tmod left hright)
      rw [if_pos hsigns, hremainder, hrest]
      dsimp only
      rw [ofInt?_eq_some_iff.1 hrest]
      by_cases hzero : left.toInt.tmod right.toInt = 0
      · rw [if_neg (not_not_intro hzero), fdiv_eq_tdiv (.inr hzero), checked_of_ofInt? htdiv]
      · have hsize := natAbs_tdiv_le hright hzero
        have hfits : Fits (left.toInt.tdiv right.toInt - 1) := by
          constructor <;> omega
        obtain ⟨p, hp⟩ := exists_ofInt? hfits
        rw [if_pos hzero, fdiv_eq_sub_one hright hsigns hzero, predecessor?,
          ofInt?_eq_some_iff.1 htdiv, hp, checked_of_ofInt? hp]
        rfl

def floorDiv (left right : Word) : Except RuntimeError Word :=
  (floorSteps left right).get (by rw [floorSteps_eq]; rfl)

theorem floorDiv_eq (left right : Word) :
    left.floorDiv right =
      if right.toInt = 0 then .error .divisionByZero
      else checked "/" (left.toInt.fdiv right.toInt) := by
  simp only [floorDiv, floorSteps_eq, Option.get_some]

end Word

/-- The value of an operator on two words. A comparison has the value one or zero. -/
def BinaryOperator.apply (op : BinaryOperator) (left right : Word) : Except RuntimeError Word :=
  match op with
  | add => Word.checked op.symbol (left.toInt + right.toInt)
  | sub => Word.checked op.symbol (left.toInt - right.toInt)
  | mul => Word.checked op.symbol (left.toInt * right.toInt)
  | div => left.floorDiv right
  | equal => .ok (.ofBool (left.toInt = right.toInt))
  | notEqual => .ok (.ofBool (left.toInt ≠ right.toInt))
  | less => .ok (.ofBool (left.toInt < right.toInt))
  | lessEqual => .ok (.ofBool (left.toInt ≤ right.toInt))
  | greater => .ok (.ofBool (right.toInt < left.toInt))
  | greaterEqual => .ok (.ofBool (right.toInt ≤ left.toInt))

end IntScript
