import IntScript.Run.Eval
import Mathlib

/-!
# Arithmetic is exact or fails

An expression of integers, variables and operators has a value over all integers, and operations that
lead to it: from left to right, and the operands before the operator. A run of it gives that value if no
operation divides by zero and all results have a word. Otherwise it ends with the fault of the first
operation of which this is not true.
-/

namespace IntScript

open IntScript.Action

/-- The value of an operator on integers. Quotients are rounded down; a comparison has the value one or
zero. -/
def BinaryOperator.exact (op : BinaryOperator) (a b : ℤ) : ℤ :=
  match op with
  | add => a + b
  | sub => a - b
  | mul => a * b
  | div => ⌊(a : ℚ) / b⌋
  | equal => if a = b then 1 else 0
  | notEqual => if a ≠ b then 1 else 0
  | less => if a < b then 1 else 0
  | lessEqual => if a ≤ b then 1 else 0
  | greater => if a > b then 1 else 0
  | greaterEqual => if a ≥ b then 1 else 0

inductive Operation where
  | negate (a : ℤ)
  | binary (op : BinaryOperator) (a b : ℤ)

namespace Operation

def result : Operation → ℤ
  | negate a => -a
  | binary op a b => op.exact a b

def symbol : Operation → String
  | negate _ => "-"
  | binary op _ _ => op.symbol

def divisor? : Operation → Option ℤ
  | binary .div _ b => some b
  | _ => none

def DividesByZero (o : Operation) : Prop := o.divisor? = some 0

instance : DecidablePred DividesByZero := fun _ => inferInstanceAs (Decidable (_ = _))

def fault? (o : Operation) : Option RuntimeError :=
  if o.DividesByZero then some .divisionByZero
  else if Word.Fits o.result then none
  else some (.arithmeticOverflow o.symbol)

theorem fault?_eq_none_iff {o : Operation} :
    o.fault? = none ↔ ¬ o.DividesByZero ∧ Word.Fits o.result := by
  unfold fault?
  split_ifs <;> simp_all

end Operation

namespace Expression

inductive Arithmetic (bound : String → Prop) : Expression → Prop where
  | integer (w : Word) : Arithmetic bound (.integer w)
  | var {name : String} (h : bound name) : Arithmetic bound (.var name)
  | negate {e : Expression} (h : Arithmetic bound e) : Arithmetic bound (.negate e)
  | binary (op : BinaryOperator) {left right : Expression} (hl : Arithmetic bound left)
      (hr : Arithmetic bound right) : Arithmetic bound (.binary op left right)

def exact (ρ : String → Word) : Expression → ℤ
  | .integer w => w.toInt
  | .var name => (ρ name).toInt
  | .negate e => -e.exact ρ
  | .binary op left right => op.exact (left.exact ρ) (right.exact ρ)
  | _ => 0

/-- The operations that lead to that value, in their order. -/
def operations (ρ : String → Word) : Expression → List Operation
  | .negate e => e.operations ρ ++ [.negate (e.exact ρ)]
  | .binary op left right =>
    left.operations ρ ++ (right.operations ρ ++ [.binary op (left.exact ρ) (right.exact ρ)])
  | _ => []

end Expression

/-- A result of operations that lead to a value: the word of the value if none has a fault, and the
first fault else. -/
inductive Gives (os : List Operation) (value : ℤ) : Except RuntimeError Word → Prop where
  | ok {w : Word} (hfine : os.findSome? Operation.fault? = none) (hw : w.toInt = value) :
      Gives os value (.ok w)
  | error {k : RuntimeError} (hk : os.findSome? Operation.fault? = some k) :
      Gives os value (.error k)

namespace Gives

variable {os os' : List Operation} {a b : ℤ} {w : Word} {k : RuntimeError}
  {r : Except RuntimeError Word}

theorem toInt_eq (h : Gives os a (.ok w)) : w.toInt = a := by
  cases h with
  | ok _ hw => exact hw

theorem append_ok (h : Gives os a (.ok w)) (h' : Gives os' b r) : Gives (os ++ os') b r := by
  cases h with
  | ok hfine _ =>
    have happend : (os ++ os').findSome? Operation.fault? = os'.findSome? Operation.fault? := by
      rw [List.findSome?_append, hfine, Option.none_or]
    cases h' with
    | ok hfine' hw => exact .ok (happend.trans hfine') hw
    | error hk => exact .error (happend.trans hk)

theorem append_error (h : Gives os a (.error k)) : Gives (os ++ os') b (.error k) := by
  cases h with
  | error hk => exact .error (by rw [List.findSome?_append, hk, Option.some_or])

theorem of_checked (o : Operation) :
    Gives [o] o.result
      (if o.DividesByZero then .error .divisionByZero else Word.checked o.symbol o.result) := by
  by_cases hzero : o.DividesByZero
  · rw [if_pos hzero]
    exact .error (by simp [Operation.fault?, hzero])
  rw [if_neg hzero]
  by_cases hfits : Word.Fits o.result
  · obtain ⟨w, hw⟩ := Word.exists_ofInt? hfits
    rw [Word.checked_of_ofInt? hw]
    exact .ok (by simp [Operation.fault?, hzero, hfits]) (Word.ofInt?_eq_some_iff.1 hw)
  · rw [Word.checked, Word.ofInt?_eq_none_iff.2 hfits]
    exact .error (by simp [Operation.fault?, hzero, hfits])

theorem exists_ok_iff (h : Gives os a r) :
    (∃ w, r = .ok w) ↔ ∀ o ∈ os, ¬ o.DividesByZero ∧ Word.Fits o.result := by
  have hsound : os.findSome? Operation.fault? = none ↔
      ∀ o ∈ os, ¬ o.DividesByZero ∧ Word.Fits o.result := by
    simp only [List.findSome?_eq_none_iff, Operation.fault?_eq_none_iff]
  rw [← hsound]
  cases h with
  | @ok w hfine _ => simp [hfine]
  | error hk => simp [hk]

theorem eq_error_iff (h : Gives os a r) :
    r = .error k ↔ os.findSome? Operation.fault? = some k := by
  cases h with
  | ok hfine _ => simp [hfine]
  | error hk => simp [hk]

end Gives

theorem floor_div_eq_fdiv (a : ℤ) (b : ℤ) : ⌊(a : ℚ) / b⌋ = a.fdiv b := by
  obtain ⟨n, rfl | rfl⟩ := b.eq_nat_or_neg
  · rw [Int.fdiv_eq_ediv_of_nonneg _ (Int.natCast_nonneg n), Int.cast_natCast,
      Rat.floor_intCast_div_natCast]
  · rw [← Int.neg_fdiv_neg, Int.neg_neg, Int.fdiv_eq_ediv_of_nonneg _ (Int.natCast_nonneg n),
      ← Rat.floor_intCast_div_natCast]
    push_cast
    rw [neg_div, div_neg]

theorem Word.checked_ite (operator : String) (p : Prop) [Decidable p] :
    checked operator (if p then 1 else 0) = .ok (ofBool p) := by
  by_cases hp : p
  · simp [hp, checked, ofBool, ofInt?, Fits]
  · simp [hp, checked, ofBool, ofInt?, Fits]

theorem BinaryOperator.apply_eq (op : BinaryOperator) (a b : Word) :
    op.apply a b =
      if (Operation.binary op a.toInt b.toInt).DividesByZero then .error .divisionByZero
      else Word.checked op.symbol (op.exact a.toInt b.toInt) := by
  cases op with
  | div =>
    rw [exact, floor_div_eq_fdiv]
    simp only [apply, Word.floorDiv_eq, Operation.DividesByZero, Operation.divisor?,
      Option.some.injEq]
    rfl
  | add | sub | mul => rfl
  | equal | notEqual | less | lessEqual | greater | greaterEqual =>
    exact (Word.checked_ite _ _).symm

namespace Run

variable {ω : Type} {h : Handle} {m : Machine ω} {ρ : String → Word} {e : Expression}

theorem gives_expression (body : Statement → Handle → Run ω Flow)
    (he : e.Arithmetic fun name => m.arena.get h name = .ok (some (ρ name))) :
    ∃ r, expression body h e m = some (r, m) ∧ Gives (e.operations ρ) (e.exact ρ) r := by
  -- By induction on the expression: an operator comes to run only where its operands gave their
  -- values, so what is known of its operation is all that is left to add.
  induction he with
  | integer w => exact ⟨.ok w, rfl, .ok rfl rfl⟩
  | @var name hbound =>
    have hget : (consult (·.get h name) : Run ω _) m = some (.ok (some (ρ name)), m) := by
      simp [consult, hbound]
    exact ⟨.ok (ρ name), bind_eq_ok hget, .ok rfl rfl⟩
  | @negate e _ ih =>
    obtain ⟨r, hrun, hgives⟩ := ih
    cases r with
    | error k => exact ⟨.error k, bind_eq_error hrun, hgives.append_error⟩
    | ok a =>
      refine ⟨a.negate, bind_eq_ok hrun, hgives.append_ok ?_⟩
      rw [Expression.exact, ← hgives.toInt_eq]
      exact .of_checked (.negate a.toInt)
  | @binary op left right _ _ ihl ihr =>
    obtain ⟨r, hrun, hgives⟩ := ihl
    cases r with
    | error k => exact ⟨.error k, bind_eq_error hrun, hgives.append_error⟩
    | ok a =>
      obtain ⟨r', hrun', hgives'⟩ := ihr
      cases r' with
      | error k =>
        exact ⟨.error k, (bind_eq_ok hrun).trans (bind_eq_error hrun'),
          hgives.append_ok hgives'.append_error⟩
      | ok b =>
        refine ⟨op.apply a b, (bind_eq_ok hrun).trans (bind_eq_ok hrun'),
          hgives.append_ok (hgives'.append_ok ?_)⟩
        rw [Expression.exact, ← hgives.toInt_eq, ← hgives'.toInt_eq, op.apply_eq]
        exact .of_checked (.binary op a.toInt b.toInt)

/-- Arithmetic leaves the machine as it is. It gives the exact value if all of its operations are sound,
and ends with the fault of the first one that is not. A division rounds down, in steps that never ask
for more than words have. -/
theorem evaluate_arithmetic [Sink ω] (budget : Nat)
    (he : e.Arithmetic fun name => m.arena.get h name = .ok (some (ρ name))) :
    (∃ r, evaluate budget e h m = some (r, m) ∧
      ((∃ w, r = .ok w) ↔
        ∀ o ∈ e.operations ρ, ¬ o.DividesByZero ∧ Word.Fits o.result) ∧
      (∀ w, r = .ok w → w.toInt = e.exact ρ) ∧
      ∀ k, r = .error k ↔ (e.operations ρ).findSome? Operation.fault? = some k) ∧
    ∀ left right : Word, Word.floorSteps left right = some (left.floorDiv right) ∧
      left.floorDiv right = if right.toInt = 0 then .error .divisionByZero
        else Word.checked "/" ⌊(left.toInt : ℚ) / right.toInt⌋ := by
  constructor
  · obtain ⟨r, hrun, hgives⟩ := gives_expression (Run.body budget) he
    refine ⟨r, hrun, hgives.exists_ok_iff, ?_, fun k => hgives.eq_error_iff⟩
    rintro w rfl
    exact hgives.toInt_eq
  · intro left right
    constructor
    · exact (Option.some_get _).symm
    · rw [floor_div_eq_fdiv, Word.floorDiv_eq]

def lowest : Machine Transcript :=
  ⟨.empty, ⟨#[⟨[("low", Int64.minValue)], [], none⟩]⟩⟩

def twoFaults : Expression :=
  .binary .add (.binary .div (.var "low") (.negate (.integer 1)))
    (.binary .div (.integer 1) (.integer 0))

theorem evaluate_arithmetic_twoFaults :
    evaluate 0 twoFaults .global lowest = some (.error (.arithmeticOverflow "/"), lowest) := by
  have he : twoFaults.Arithmetic fun name =>
      lowest.arena.get .global name = .ok (some Int64.minValue) :=
    .binary .add (.binary .div (.var rfl) (.negate (.integer 1)))
      (.binary .div (.integer 1) (.integer 0))
  have hfault : (twoFaults.operations fun _ => Int64.minValue).findSome? Operation.fault? =
      some (.arithmeticOverflow "/") := by
    have hnegate : (Operation.negate 1).fault? = none := by decide
    have hdivide : (Operation.binary .div (-9223372036854775808) (-1)).fault? =
        some (.arithmeticOverflow "/") := by
      rw [Operation.fault?, if_neg (by decide), Operation.result, BinaryOperator.exact,
        floor_div_eq_fdiv]
      rfl
    simp [twoFaults, Expression.operations, Expression.exact, hnegate, hdivide]
  obtain ⟨⟨r, hrun, -, -, herror⟩, -⟩ := evaluate_arithmetic 0 he
  rw [hrun, (herror _).2 hfault]

end Run

end IntScript
