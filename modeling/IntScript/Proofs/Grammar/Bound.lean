import IntScript.Grammar.Program
import IntScript.Proofs.Action.Order

/-!
# The bound on nesting does not matter

A parser with a larger bound is above the one with a smaller bound. Since every bound above the number
of tokens ahead gives an answer, any two such bounds give the same answer.
-/

namespace IntScript.Grammar

namespace Parser

open IntScript.Action

variable {α : Type}

theorem operandOnLine_le {p q : Parser α} (h : p ≤ q) : operandOnLine p ≤ operandOnLine q := by
  apply bind_le_bind_right
  intro b
  cases b with
  | false => exact h
  | true => exact le_rfl

theorem commaSeparated_le {p q : Parser α} (h : p ≤ q) {m n : Nat} (hmn : m ≤ n) :
    commaSeparated p m ≤ commaSeparated q n := by
  induction m generalizing n with
  | zero => exact stuck_le _
  | succ m ih =>
    obtain ⟨n, rfl⟩ : ∃ k, n = k + 1 := ⟨n - 1, by omega⟩
    refine bind_le_bind h fun a => bind_le_bind_right _ fun b => ?_
    cases b with
    | false => exact le_rfl
    | true => exact bind_le_bind (ih (by omega)) fun _ => le_rfl

theorem untilParen_le {p q : Parser (List α)} (h : p ≤ q) (expected : Expectation) :
    untilParen p expected ≤ untilParen q expected := by
  refine bind_le_bind (bind_le_bind_right _ fun b => ?_) fun _ => le_rfl
  cases b with
  | false => exact h
  | true => exact le_rfl

theorem variableOrCall_le {p q : Parser Expression} (h : p ≤ q) (name : String) {m n : Nat}
    (hmn : m ≤ n) : variableOrCall p name m ≤ variableOrCall q name n := by
  apply bind_le_bind_right
  intro o
  cases o with
  | none => exact le_rfl
  | some t => exact bind_le_bind (untilParen_le (commaSeparated_le h hmn) _) fun _ => le_rfl

theorem primary_le {p q : Parser Expression} (h : p ≤ q) {m n : Nat} (hmn : m ≤ n) :
    primary p m ≤ primary q n := by
  apply bind_le_bind_right
  intro o
  cases o with
  | none => exact le_rfl
  | some t =>
    dsimp only
    split
    · exact le_rfl
    · exact le_rfl
    · exact variableOrCall_le h _ hmn
    · exact bind_le_bind h fun _ => le_rfl

theorem unaryHere_le {p q : Parser Expression} (h : p ≤ q) {m n : Nat} (hmn : m ≤ n) :
    unaryHere p m ≤ unaryHere q n := by
  induction m generalizing n with
  | zero => exact stuck_le _
  | succ m ih =>
    obtain ⟨n, rfl⟩ : ∃ k, n = k + 1 := ⟨n - 1, by omega⟩
    apply bind_le_bind_right
    intro b
    cases b with
    | false => exact primary_le h hmn
    | true => exact bind_le_bind (operandOnLine_le (ih (by omega))) fun _ => le_rfl

theorem chainFrom_le (level : TokenKind → Option BinaryOperator) {p q : Parser Expression}
    (h : p ≤ q) {m n : Nat} (hmn : m ≤ n) (left : Expression) :
    chainFrom level p m left ≤ chainFrom level q n left := by
  induction m generalizing n left with
  | zero => exact stuck_le _
  | succ m ih =>
    obtain ⟨n, rfl⟩ : ∃ k, n = k + 1 := ⟨n - 1, by omega⟩
    apply bind_le_bind_right
    intro o
    cases o with
    | none => exact le_rfl
    | some op => exact bind_le_bind h fun right => ih (by omega) _

theorem chain_le (level : TokenKind → Option BinaryOperator) {first first' p q : Parser Expression}
    (hfirst : first ≤ first') (h : p ≤ q) {m n : Nat} (hmn : m ≤ n) :
    chain level first p m ≤ chain level first' q n :=
  bind_le_bind hfirst fun left => chainFrom_le level h hmn left

theorem comparison_le {first first' p q : Parser Expression} (hfirst : first ≤ first') (h : p ≤ q)
    {m n : Nat} (hmn : m ≤ n) : comparison first p m ≤ comparison first' q n := by
  have hproduct := chain_le productOperator? h h hmn
  have hsum := chain_le sumOperator? hproduct hproduct hmn
  have hfirstSum := chain_le sumOperator? (chain_le productOperator? hfirst h hmn) hproduct hmn
  exact chain_le comparisonOperator? hfirstSum hsum hmn

theorem expressionHere_le {m n : Nat} (hmn : m ≤ n) : expressionHere m ≤ expressionHere n := by
  induction m generalizing n with
  | zero => exact stuck_le _
  | succ m ih =>
    obtain ⟨n, rfl⟩ : ∃ k, n = k + 1 := ⟨n - 1, by omega⟩
    have hnested := operandOnLine_le (ih (n := n) (by omega))
    have hunary := unaryHere_le hnested hmn
    apply bind_le_bind_right
    intro o
    cases o with
    | none => exact comparison_le hunary (operandOnLine_le hunary) hmn
    | some name => exact bind_le_bind hnested fun _ => le_rfl

theorem expression_le {m n : Nat} (hmn : m ≤ n) : expression m ≤ expression n :=
  operandOnLine_le (expressionHere_le hmn)

theorem unlessEnd_le {p q : Parser α} (h : p ≤ q) : unlessEnd p ≤ unlessEnd q := by
  apply bind_le_bind_right
  intro b
  cases b with
  | false => exact bind_le_bind h fun _ => le_rfl
  | true => exact le_rfl

theorem linesAt_le {p q : Parser Statement} (h : p ≤ q) (column : Nat) {m n : Nat} (hmn : m ≤ n) :
    linesAt p column m ≤ linesAt q column n := by
  induction m generalizing n with
  | zero => exact stuck_le _
  | succ m ih =>
    obtain ⟨n, rfl⟩ : ∃ k, n = k + 1 := ⟨n - 1, by omega⟩
    apply bind_le_bind_right
    intro fit
    cases fit with
    | behind => exact le_rfl
    | deeper => exact le_rfl
    | within => exact bind_le_bind h fun s => bind_le_bind (ih (by omega)) fun _ => le_rfl

theorem body_le {p q : Parser Statement} (h : p ≤ q) (construct : Construct) (header : Nat)
    {m n : Nat} (hmn : m ≤ n) : body p construct header m ≤ body q construct header n := by
  refine bind_le_bind_right _ fun _ => bind_le_bind_right _ fun b => ?_
  cases b with
  | false => exact h
  | true =>
    refine bind_le_bind_right _ fun b => ?_
    cases b with
    | false =>
      exact bind_le_bind_right _ fun column => bind_le_bind (linesAt_le h column hmn) fun _ => le_rfl
    | true => exact le_rfl

theorem ifStatement_le {p q : Parser Statement} (h : p ≤ q) (header : Nat) {m n : Nat}
    (hmn : m ≤ n) : ifStatement p header m ≤ ifStatement q header n := by
  refine bind_le_bind (expression_le hmn) fun condition =>
    bind_le_bind (body_le h _ _ hmn) fun thenBranch => bind_le_bind_right _ fun o => ?_
  cases o with
  | none => exact le_rfl
  | some t => exact bind_le_bind (body_le h _ _ hmn) fun _ => le_rfl

theorem parameters_le (function : String) {m n : Nat} (hmn : m ≤ n) (seen : List String) :
    parameters function m seen ≤ parameters function n seen := by
  induction m generalizing n seen with
  | zero => exact stuck_le _
  | succ m ih =>
    obtain ⟨n, rfl⟩ : ∃ k, n = k + 1 := ⟨n - 1, by omega⟩
    apply bind_le_bind_right
    intro t
    split
    · exact le_rfl
    · refine bind_le_bind_right _ fun b => ?_
      cases b with
      | false => exact le_rfl
      | true => exact bind_le_bind (ih (by omega) _) fun _ => le_rfl

theorem defStatement_le {p q : Parser Statement} (h : p ≤ q) (header : Nat) {m n : Nat}
    (hmn : m ≤ n) : defStatement p header m ≤ defStatement q header n := by
  refine bind_le_bind_right _ fun name => bind_le_bind_right _ fun _ => ?_
  refine bind_le_bind (untilParen_le (parameters_le name.lexeme hmn []) _) fun names => ?_
  exact bind_le_bind (body_le h _ _ hmn) fun _ => le_rfl

theorem plainStatement_le {m n : Nat} (hmn : m ≤ n) : plainStatement m ≤ plainStatement n := by
  apply bind_le_bind_right
  intro o
  cases o with
  | none => exact bind_le_bind (expressionHere_le hmn) fun _ => le_rfl
  | some name => exact bind_le_bind (expression_le hmn) fun _ => le_rfl

theorem openStatement_le {p q : Parser Statement} (h : p ≤ q) {m n : Nat} (hmn : m ≤ n) :
    openStatement p m ≤ openStatement q n := by
  apply bind_le_bind_right
  intro o
  cases o with
  | none => exact plainStatement_le hmn
  | some t =>
    dsimp only
    split
    · have hitems := commaSeparated_le (expression_le hmn) hmn
      exact bind_le_bind (unlessEnd_le hitems) fun _ => le_rfl
    · exact ifStatement_le h _ hmn
    · exact defStatement_le h _ hmn
    · exact bind_le_bind (unlessEnd_le (expression_le hmn)) fun _ => le_rfl

theorem statement_le {m n : Nat} (hmn : m ≤ n) : statement m ≤ statement n := by
  induction m generalizing n with
  | zero => exact stuck_le _
  | succ m ih =>
    obtain ⟨n, rfl⟩ : ∃ k, n = k + 1 := ⟨n - 1, by omega⟩
    exact bind_le_bind (openStatement_le (ih (by omega)) hmn) fun _ => le_rfl

theorem program_le {m n : Nat} (hmn : m ≤ n) : program m ≤ program n := by
  apply bind_le_bind_right
  intro column
  exact bind_le_bind (linesAt_le (statement_le hmn) column hmn) fun _ => le_rfl

/-- Two bounds on a family that grows with its bound give one answer, if both are above the number of
tokens ahead and that is enough. -/
theorem eq_of_bounds {p : Nat → Parser α} {k : α → Nat} {c : Cursor}
    (hle : ∀ {m n}, m ≤ n → p m ≤ p n) (hp : ∀ {n}, c.size < n → Advances c.size (p n) k)
    {m n : Nat} (hm : c.size < m) (hn : c.size < n) : p m c = p n c := by
  rcases Nat.le_total m n with h | h
  · exact eq_of_le (hle h) ((hp hm).isSome (Nat.le_refl _))
  · exact (eq_of_le (hle h) ((hp hn).isSome (Nat.le_refl _))).symm

theorem statement_bound {c : Cursor} {m n : Nat} (hm : c.size < m) (hn : c.size < n) :
    statement m c = statement n c :=
  eq_of_bounds statement_le advances_statement hm hn

end Parser

theorem Cursor.program_bound {c : Cursor} {n : Nat} (hn : c.size < n) :
    Parser.program n c = some c.program := by
  rw [← c.program_eq_some]
  exact Parser.eq_of_bounds Parser.program_le Parser.advances_program hn (Nat.lt_succ_self c.size)

end IntScript.Grammar
