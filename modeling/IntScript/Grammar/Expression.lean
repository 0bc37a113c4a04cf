import IntScript.Grammar.Cursor
import IntScript.Tree

/-!
Expressions as tokens write them. Comparisons bind weakest, then sums, then products, and operators of one
level group to the left; a minus sign binds tighter than all of them. An assignment may stand wherever an
expression may and reaches as far as it can. An operand never begins a line, except as the first token of
its statement: the functions named `…Here` leave that test out. Nesting is bounded by a number that any
count above the tokens ahead satisfies (`advances_expression`).
-/

namespace IntScript.Grammar

def comparisonOperator? : TokenKind → Option BinaryOperator
  | .less => some .less
  | .lessEqual => some .lessEqual
  | .greater => some .greater
  | .greaterEqual => some .greaterEqual
  | .equalEqual => some .equal
  | .bangEqual => some .notEqual
  | _ => none

def sumOperator? : TokenKind → Option BinaryOperator
  | .plus => some .add
  | .minus => some .sub
  | _ => none

def productOperator? : TokenKind → Option BinaryOperator
  | .star => some .mul
  | .slash => some .div
  | _ => none

def beginsOperand : TokenKind → Bool
  | .integer | .string | .identifier | .lparen => true
  | _ => false

namespace Parser

variable {α : Type}

/-- What follows is an operand, so it must go on with the line. -/
def operandOnLine (operand : Parser α) : Parser α := do
  if ← Action.read Cursor.startsLine then unexpected .expression else operand

def commaSeparated (item : Parser α) : Nat → Parser (List α)
  | 0 => Action.stuck
  | n + 1 => do
    let a ← item
    if ← accept .comma then return a :: (← commaSeparated item n) else return [a]

def unlessParen (items : Parser (List α)) : Parser (List α) := do
  if ← Action.read (·.nextIs .rparen) then return [] else items

def untilParen (items : Parser (List α)) (expected : Expectation) : Parser (List α) := do
  let found ← unlessParen items
  let _ ← expect .rparen expected
  return found

def integerValue (t : Token) : Parser Expression :=
  match Word.ofDecimal? t.lexeme.toList with
  | some value => return .integer value
  | none => Action.fail ⟨.invalidIntegerLiteral t.lexeme, t.position⟩

def variableOrCall (nested : Parser Expression) (name : String) (n : Nat) : Parser Expression := do
  match ← takeOnLine? .lparen with
  | none => return .var name
  | some _ => return .call name (← untilParen (commaSeparated nested n) .parenAfterArguments)

def primary (nested : Parser Expression) (n : Nat) : Parser Expression := do
  match ← take? fun _ t => if beginsOperand t.kind then some t else none with
  | none => unexpected .expression
  | some t =>
    match t.kind with
    | .integer => integerValue t
    | .string => return .text t.lexeme
    | .identifier => variableOrCall nested t.lexeme n
    | _ =>
      let e ← nested
      let _ ← expect .rparen .parenAfterExpression
      return e

def unaryHere (nested : Parser Expression) : Nat → Parser Expression
  | 0 => Action.stuck
  | n + 1 => do
    if ← accept .minus then return .negate (← operandOnLine (unaryHere nested n))
    else primary nested (n + 1)

def takeOperator? (level : TokenKind → Option BinaryOperator) : Parser (Option BinaryOperator) :=
  take? fun c t => if c.startsLine then none else level t.kind

def chainFrom (level : TokenKind → Option BinaryOperator) (operand : Parser Expression) :
    Nat → Expression → Parser Expression
  | 0, _ => Action.stuck
  | n + 1, left => do
    match ← takeOperator? level with
    | none => return left
    | some op => chainFrom level operand n (.binary op left (← operand))

def chain (level : TokenKind → Option BinaryOperator) (first operand : Parser Expression) (n : Nat) :
    Parser Expression := do
  chainFrom level operand n (← first)

def product (first operand : Parser Expression) (n : Nat) : Parser Expression :=
  chain productOperator? first operand n

def sum (first operand : Parser Expression) (n : Nat) : Parser Expression :=
  chain sumOperator? (product first operand n) (product operand operand n) n

def comparison (first operand : Parser Expression) (n : Nat) : Parser Expression :=
  chain comparisonOperator? (sum first operand n) (sum operand operand n) n

/-- An expression whose first token may begin a line. -/
def expressionHere : Nat → Parser Expression
  | 0 => Action.stuck
  | n + 1 => do
    let nested := operandOnLine (expressionHere n)
    match ← takeTarget with
    | some name => return .assign name (← nested)
    | none =>
      let first := unaryHere nested (n + 1)
      comparison first (operandOnLine first) (n + 1)

def expression (n : Nat) : Parser Expression := operandOnLine (expressionHere n)

theorem advances_operandOnLine {m : Nat} {p : Parser α} {k : α → Nat} (h : Advances m p k) :
    Advances m (operandOnLine p) k :=
  (advances_read m _).bind_same fun b => by
    cases b
    · exact h
    · exact advances_unexpected _ _ _

theorem advances_commaSeparated {item : Parser α} {m n : Nat} (hn : m < n)
    (hitem : Advances m item fun _ => 1) : Advances m (commaSeparated item n) fun _ => 1 := by
  induction n generalizing m with
  | zero => omega
  | succ n ih =>
    refine hitem.bind fun a _ => (advances_accept _ _).bind fun b hb => ?_
    cases b with
    | false => exact advances_pure rfl
    | true =>
      simp only [if_true] at hb
      exact (ih (by simp only [if_true]; omega) (hitem.mono (by omega) fun _ => Nat.le_refl _)).bind
        fun _ _ => advances_pure (by simp)

theorem advances_unlessParen {items : Parser (List α)} {m : Nat}
    (hitems : Advances m items fun _ => 0) : Advances m (unlessParen items) fun _ => 0 :=
  (advances_read m _).bind_same fun b => by
    cases b
    · exact hitems
    · exact advances_pure rfl

theorem advances_untilParen {items : Parser (List α)} {m : Nat}
    (hitems : Advances m items fun _ => 0) (expected : Expectation) :
    Advances m (untilParen items expected) fun _ => 1 :=
  (advances_unlessParen hitems).bind_same fun _ =>
    (advances_expect _ _ _).bind fun _ _ => advances_pure rfl

theorem advances_integerValue (m : Nat) (t : Token) : Advances m (integerValue t) fun _ => 0 := by
  unfold integerValue
  split
  · exact advances_pure rfl
  · exact advances_fail _ _ _

theorem advances_variableOrCall {nested : Parser Expression} {m n : Nat} (name : String) (hn : m < n)
    (hnested : Advances m nested fun _ => 1) :
    Advances m (variableOrCall nested name n) fun _ => 0 :=
  (advances_takeOnLine? m _).bind fun
    | none, _ => advances_pure rfl
    | some _, _ => by
      refine Advances.bind (advances_untilParen ?_ _) fun _ _ => advances_pure (by simp)
      exact (advances_commaSeparated (by omega) (hnested.mono (by omega) fun _ => Nat.le_refl _)).mono
        (Nat.le_refl _) fun _ => Nat.zero_le _

theorem advances_primary {nested : Parser Expression} {m n : Nat} (hn : m ≤ n)
    (hnested : ∀ m' < m, Advances m' nested fun _ => 1) :
    Advances m (primary nested n) fun _ => 1 :=
  (advances_take? m _).bind fun
    | none, _ => advances_unexpected _ _ _
    | some t, hm => by
      simp only [Option.isSome_some, if_true] at hm ⊢
      split
      · exact (advances_integerValue _ t).mono (Nat.le_refl _) fun _ => Nat.le_refl _
      · exact advances_pure rfl
      · exact advances_variableOrCall _ (by omega) (hnested _ (by omega))
      · exact (hnested _ (by omega)).bind fun _ _ =>
          (advances_expect _ _ _).bind fun _ _ => advances_pure (by simp)

theorem advances_unaryHere {nested : Parser Expression} {m n : Nat} (hn : m < n)
    (hnested : ∀ m' < m, Advances m' nested fun _ => 1) :
    Advances m (unaryHere nested n) fun _ => 1 := by
  induction n generalizing m with
  | zero => omega
  | succ n ih =>
    refine (advances_accept _ _).bind fun b hb => ?_
    cases b with
    | false => exact advances_primary (by simp; omega) fun m' h => hnested m' (by simpa using h)
    | true =>
      simp only [if_true] at hb
      refine (advances_operandOnLine (ih ?_ fun m' h => hnested m' ?_)).bind fun _ _ =>
        advances_pure (by simp)
      · simp only [if_true]; omega
      · simp only [if_true] at h; omega

theorem advances_chainFrom {level : TokenKind → Option BinaryOperator} {operand : Parser Expression}
    {m n : Nat} (hn : m < n) (hoperand : Advances m operand fun _ => 1) (left : Expression) :
    Advances m (chainFrom level operand n left) fun _ => 0 := by
  induction n generalizing m left with
  | zero => omega
  | succ n ih =>
    refine (advances_take? m _).bind fun
      | none, _ => advances_pure rfl
      | some op, hm => ?_
    simp only [Option.isSome_some, if_true] at hm ⊢
    refine (hoperand.mono (by omega) fun _ => Nat.le_refl _).bind fun right _ => ?_
    exact (ih (by omega) (hoperand.mono (by omega) fun _ => Nat.le_refl _) _).mono
      (Nat.le_refl _) fun _ => by simp

theorem advances_chain {level : TokenKind → Option BinaryOperator}
    {first operand : Parser Expression} {m n : Nat} (hn : m < n)
    (hfirst : Advances m first fun _ => 1) (hoperand : Advances m operand fun _ => 1) :
    Advances m (chain level first operand n) fun _ => 1 :=
  hfirst.bind fun _ _ =>
    (advances_chainFrom (by omega) (hoperand.mono (by omega) fun _ => Nat.le_refl _) _).mono
      (Nat.le_refl _) fun _ => Nat.le_refl _

theorem advances_comparison {first operand : Parser Expression} {m n : Nat} (hn : m < n)
    (hfirst : Advances m first fun _ => 1) (hoperand : Advances m operand fun _ => 1) :
    Advances m (comparison first operand n) fun _ => 1 :=
  advances_chain hn
    (advances_chain hn (advances_chain hn hfirst hoperand) (advances_chain hn hoperand hoperand))
    (advances_chain hn (advances_chain hn hoperand hoperand) (advances_chain hn hoperand hoperand))

theorem advances_expressionHere {m n : Nat} (hn : m < n) :
    Advances m (expressionHere n) fun _ => 1 := by
  induction n generalizing m with
  | zero => omega
  | succ n ih =>
    have hnested : ∀ m' < n, Advances m' (operandOnLine (expressionHere n)) fun _ => 1 :=
      fun m' h => advances_operandOnLine (ih h)
    refine (advances_takeTarget m).bind fun
      | some name, hm => ?_
      | none, _ => ?_
    · simp only [Option.isSome_some, if_true] at hm ⊢
      exact (hnested _ (by omega)).bind fun _ _ => advances_pure (by simp)
    · have hunary : Advances m (unaryHere (operandOnLine (expressionHere n)) (n + 1)) fun _ => 1 :=
        advances_unaryHere hn fun m' h => hnested m' (by omega)
      exact advances_comparison hn hunary (advances_operandOnLine hunary)

theorem advances_expression {m n : Nat} (hn : m < n) : Advances m (expression n) fun _ => 1 :=
  advances_operandOnLine (advances_expressionHere hn)

end Parser

end IntScript.Grammar
