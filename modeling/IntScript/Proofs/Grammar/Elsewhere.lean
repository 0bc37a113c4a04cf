import IntScript.Proofs.Grammar.Alike
import IntScript.Proofs.Grammar.Taken

/-!
# Statements that are read elsewhere

From alike cursors, expressions and statements are read alike.
-/

namespace IntScript.Grammar.Parser

open IntScript.Action

variable {α α' : Type} {m : Motion} {b : Cursor} {c c' : Cursor}

def Runs (m : Motion) (b : Cursor) (R : α → α' → Prop) (p : Parser α) (p' : Parser α') : Prop :=
  ∀ c c', Alike m b c c' → Together m b R p p' c c'

def RunsHere (m : Motion) (b : Cursor) (R : α → α' → Prop) (p : Parser α) (p' : Parser α') :
    Prop :=
  ∀ c c', c.atEnd = false → Alike m b c c' → Together m b R p p' c c'

section Expressions

theorem refuses_nested {p : Parser α} (h : FailsAtEnd p) (hline : c.endsStatement = true) :
    Refuses .expression (operandOnLine p) c := by
  apply refuses_operandOnLine
  intro hstarts
  rw [Cursor.endsStatement, hstarts, Bool.or_false] at hline
  exact h c hline

theorem runs_operandOnLine {p : Parser α} (h : RunsHere m b Eq p p) (hfails : FailsAtEnd p) :
    Runs m b Eq (operandOnLine p) (operandOnLine p) := by
  intro c c' halike
  cases hend : c.atEnd with
  | false =>
    apply together_read
    rw [halike.line hend]
    split
    · exact together_unexpected halike _
    · exact h c c' hend halike
  | true =>
    have hline : c.endsStatement = true := by rw [Cursor.endsStatement, hend, Bool.true_or]
    exact together_of_refuses halike hend (refuses_nested hfails hline)
      (refuses_nested hfails (halike.endsStatement_eq.trans hline))

theorem runs_commaSeparated {p : Parser α} (h : Runs m b Eq p p) (n : Nat) :
    Runs m b Eq (commaSeparated p n) (commaSeparated p n) := by
  induction n with
  | zero => exact fun c c' _ => together_stuck
  | succ n ih =>
    intro c c' halike
    apply together_bind (h c c' halike)
    rintro a _ d d' rfl hnext
    apply together_bind (together_accept hnext (.inr rfl))
    rintro found _ d d' rfl hnext
    split
    · apply together_bind (ih d d' hnext)
      rintro as _ d d' rfl hnext
      exact together_pure hnext rfl
    · exact together_pure hnext rfl

theorem runs_untilParen {items : Parser (List α)} {wanted : Expectation} (h : Runs m b Eq items items)
    (hrefuses : ∀ c, c.endsStatement = true → Refuses wanted items c) (expected : Expectation) :
    Runs m b Eq (untilParen items expected) (untilParen items expected) := by
  intro c c' halike
  cases hend : c.atEnd with
  | true =>
    have hline : c.endsStatement = true := by rw [Cursor.endsStatement, hend, Bool.true_or]
    have hline' : c'.endsStatement = true := halike.endsStatement_eq.trans hline
    exact together_of_refuses halike hend (refuses_untilParen hline (hrefuses c hline) _)
      (refuses_untilParen hline' (hrefuses c' hline') _)
  | false =>
    have hfound : Together m b Eq (unlessParen items) (unlessParen items) c c' := by
      apply together_read
      rw [halike.nextIs_eq hend]
      split
      · exact together_pure halike rfl
      · exact h c c' halike
    apply together_bind hfound
    rintro as _ d d' rfl hnext
    apply together_bind (together_expect hnext _ _)
    rintro t u d d' - hnext
    exact together_pure hnext rfl

theorem runs_variableOrCall {nested : Parser Expression} (h : Runs m b Eq nested nested)
    (hrefuses : ∀ c, c.endsStatement = true → Refuses .expression nested c) (name : String) (n : Nat) :
    Runs m b Eq (variableOrCall nested name n) (variableOrCall nested name n) := by
  intro c c' halike
  apply together_bind (together_takeOnLine? halike _)
  rintro o o' d d' hrel hnext
  cases hrel with
  | none => exact together_pure hnext rfl
  | some =>
    apply together_bind (runs_untilParen (runs_commaSeparated h n)
      (fun c hc => refuses_commaSeparated (hrefuses c hc) n) _ d d' hnext)
    rintro args _ d d' rfl hnext
    exact together_pure hnext rfl

theorem runsHere_primary {nested : Parser Expression} (h : Runs m b Eq nested nested)
    (hrefuses : ∀ c, c.endsStatement = true → Refuses .expression nested c) (n : Nat) :
    RunsHere m b Eq (primary nested n) (primary nested n) := by
  intro c c' hend halike
  refine together_bind (R := Option.Rel m.Moves) (together_take? halike ?_ ?_) ?_
  · intro t u hmoves _
    rw [hmoves.kind]
    split
    · exact .some hmoves
    · exact .none
  · intro hnot
    rw [hend] at hnot
    cases hnot
  · rintro o o' d d' hrel hnext
    cases hrel with
    | none => exact together_unexpected hnext _
    | @some t u hmoves =>
      dsimp only
      rw [hmoves.kind]
      split
      · unfold integerValue
        rw [hmoves.lexeme, hmoves.position_eq]
        split
        · exact together_pure hnext rfl
        · exact together_fail hnext fun _ => rfl
      · rw [hmoves.lexeme]
        exact together_pure hnext rfl
      · rw [hmoves.lexeme]
        exact runs_variableOrCall h hrefuses _ _ d d' hnext
      · apply together_bind (h d d' hnext)
        rintro e _ d d' rfl hnext
        apply together_bind (together_expect hnext _ _)
        rintro t u d d' - hnext
        exact together_pure hnext rfl

theorem runsHere_unaryHere {nested : Parser Expression} (h : Runs m b Eq nested nested)
    (hrefuses : ∀ c, c.endsStatement = true → Refuses .expression nested c) (n : Nat) :
    RunsHere m b Eq (unaryHere nested n) (unaryHere nested n) := by
  induction n with
  | zero => exact fun c c' _ _ => together_stuck
  | succ n ih =>
    intro c c' hend halike
    have hsigned := runs_operandOnLine ih (failsAtEnd_unaryHere nested n)
    apply together_bind_of (together_accept halike (.inl hend))
    rintro found _ d d' hfound rfl hnext
    obtain ⟨ts, hpass, ⟨rfl, rfl⟩ | ⟨rfl, -⟩⟩ := takes_accept _ _ _ hfound
    · exact runsHere_primary h hrefuses _ d d' (hpass.atEnd_eq.trans hend) hnext
    · apply together_bind (hsigned d d' hnext)
      rintro e _ d d' rfl hnext
      exact together_pure hnext rfl

theorem runs_chainFrom {operand : Parser Expression} (h : Runs m b Eq operand operand)
    (level : TokenKind → Option BinaryOperator) (n : Nat) (left : Expression) :
    Runs m b Eq (chainFrom level operand n left) (chainFrom level operand n left) := by
  induction n generalizing left with
  | zero => exact fun c c' _ => together_stuck
  | succ n ih =>
    intro c c' halike
    apply together_bind (together_takeOperator? halike level)
    rintro o o' d d' hrel hnext
    cases hrel with
    | none => exact together_pure hnext rfl
    | some hop =>
      obtain rfl := hop
      apply together_bind (h d d' hnext)
      rintro right _ d d' rfl hnext
      exact ih _ d d' hnext

theorem together_chain {first operand : Parser Expression} (hfirst : Together m b Eq first first c c')
    (h : Runs m b Eq operand operand) (level : TokenKind → Option BinaryOperator) (n : Nat) :
    Together m b Eq (chain level first operand n) (chain level first operand n) c c' := by
  apply together_bind hfirst
  rintro left _ d d' rfl hnext
  exact runs_chainFrom h level n left d d' hnext

theorem together_comparison {first operand : Parser Expression}
    (hfirst : Together m b Eq first first c c') (h : Runs m b Eq operand operand) (n : Nat) :
    Together m b Eq (comparison first operand n) (comparison first operand n) c c' := by
  have hproduct : Runs m b Eq (product operand operand n) (product operand operand n) :=
    fun c c' halike => together_chain (h c c' halike) h _ n
  have hsum : Runs m b Eq (sum operand operand n) (sum operand operand n) :=
    fun c c' halike => together_chain (hproduct c c' halike) hproduct _ n
  exact together_chain (together_chain (together_chain hfirst h _ n) hproduct _ n) hsum _ n

theorem runsHere_expressionHere (n : Nat) :
    RunsHere m b Eq (expressionHere n) (expressionHere n) := by
  induction n with
  | zero => exact fun c c' _ _ => together_stuck
  | succ n ih =>
    have hnested := runs_operandOnLine ih (failsAtEnd_expressionHere n)
    have hunary := runsHere_unaryHere hnested
      (fun c hc => refuses_nested (failsAtEnd_expressionHere n) hc) (n + 1)
    have hoperand := runs_operandOnLine hunary (failsAtEnd_unaryHere _ _)
    intro c c' hend halike
    apply together_bind_of (together_takeTarget halike hend)
    rintro o _ d d' ho rfl hnext
    obtain ⟨ts, hpass, ⟨rfl, rfl⟩ | ⟨t, s, -, -, -, -, rfl⟩⟩ := takes_takeTarget _ _ ho
    · exact together_comparison (hunary d d' (hpass.atEnd_eq.trans hend) hnext) hoperand _
    · apply together_bind (hnested d d' hnext)
      rintro e _ d d' rfl hnext
      exact together_pure hnext rfl

theorem runs_expression (n : Nat) : Runs m b Eq (expression n) (expression n) :=
  runs_operandOnLine (runsHere_expressionHere n) (failsAtEnd_expressionHere n)

end Expressions

section Statements

variable {p : Parser Statement}

theorem runs_unlessEnd {items : Parser α} (h : Runs m b Eq items items) :
    Runs m b Eq (unlessEnd items) (unlessEnd items) := by
  intro c c' halike
  apply together_read
  rw [halike.endsStatement_eq]
  split
  · exact together_pure halike rfl
  · apply together_bind (h c c' halike)
    rintro a _ d d' rfl hnext
    exact together_pure hnext rfl

theorem runs_printStatement (n : Nat) : Runs m b Eq (printStatement n) (printStatement n) := by
  intro c c' halike
  apply together_bind (runs_unlessEnd (runs_commaSeparated (runs_expression n) n) c c' halike)
  rintro o _ d d' rfl hnext
  exact together_pure hnext rfl

theorem runs_returnStatement (n : Nat) : Runs m b Eq (returnStatement n) (returnStatement n) := by
  intro c c' halike
  apply together_bind (runs_unlessEnd (runs_expression n) c c' halike)
  rintro o _ d d' rfl hnext
  exact together_pure hnext rfl

theorem fit_eq (h : Alike m b c c') (hend : c.atEnd = false) (column : Nat) :
    c'.fit (m.column column) = c.fit column := by
  simp only [Cursor.fit, h.atEnd_eq hend, hend, h.line hend, h.column_eq hend,
    m.column_mono.lt_iff_lt]

theorem runs_linesAt (h : RunsHere m b Eq p p) {column : Nat}
    (hcolumn : b.ahead = [] ∨ 0 < m.column column) (n : Nat) :
    Runs m b Eq (linesAt p column n) (linesAt p (m.column column) n) := by
  induction n with
  | zero => exact fun c c' _ => together_stuck
  | succ n ih =>
    intro c c' halike
    apply together_read
    cases hend : c.atEnd with
    | true =>
      obtain rfl := halike.atEnd hend
      rw [Cursor.fit_of_atEnd hend, halike.borders.fit hcolumn]
      exact together_pure halike rfl
    | false =>
      rw [fit_eq halike hend]
      cases c.fit column with
      | behind => exact together_pure halike rfl
      | deeper => exact together_failHere halike _
      | within =>
        apply together_bind (h c c' hend halike)
        rintro s _ d d' rfl hnext
        apply together_bind (ih d d' hnext)
        rintro ss _ d d' rfl hnext
        exact together_pure hnext rfl

theorem runs_indentedBlock (h : RunsHere m b Eq p p) (construct : Construct) (header n : Nat) :
    Runs m b Eq (indentedBlock p construct header n)
      (indentedBlock p construct (m.column header) n) := by
  -- A block is deeper than its header, so the border is not.
  intro c c' halike
  apply together_read
  cases hend : c.atEnd with
  | true =>
    obtain rfl := halike.atEnd hend
    have hleft : (c'.atEnd || decide (c'.position.column ≤ m.column header)) = true := by
      cases hend' : c'.atEnd with
      | true => rfl
      | false => simp [halike.borders.column_eq hend']
    rw [hleft, Bool.true_or]
    exact together_failHere halike _
  | false =>
    have hle : c'.position.column ≤ m.column header ↔ c.position.column ≤ header := by
      rw [halike.column_eq hend]
      exact m.column_mono.le_iff_le
    simp only [halike.atEnd_eq hend, hle]
    split
    next => exact together_failHere halike _
    next hdeeper =>
      have hlt : header < c.position.column := by simpa using hdeeper
      apply together_read
      rw [halike.column_eq hend]
      have hcolumn : 0 < m.column c.position.column := by
        have := m.column_mono hlt
        omega
      apply together_bind (runs_linesAt h (.inr hcolumn) n c c' halike)
      rintro ss _ d d' rfl hnext
      exact together_pure hnext rfl

theorem runs_body (h : RunsHere m b Eq p p) (construct : Construct) (header n : Nat) :
    Runs m b Eq (body p construct header n) (body p construct (m.column header) n) := by
  intro c c' halike
  apply together_bind (together_takeOnLine? halike _)
  rintro o o' d d' - hnext
  apply together_read
  rw [hnext.endsStatement_eq]
  split
  next => exact runs_indentedBlock h construct header n d d' hnext
  next hline =>
    have hend : d.atEnd = false := by
      rw [Cursor.endsStatement, Bool.or_eq_true, not_or] at hline
      exact Bool.eq_false_iff.2 hline.1
    exact h d d' hend hnext

theorem runs_ifStatement (h : RunsHere m b Eq p p) (header n : Nat) :
    Runs m b Eq (ifStatement p header n) (ifStatement p (m.column header) n) := by
  intro c c' halike
  apply together_bind (runs_expression n c c' halike)
  rintro condition _ d d' rfl hnext
  apply together_bind (runs_body h _ header n d d' hnext)
  rintro thenBranch _ d d' rfl hnext
  apply together_bind (together_takeElse? hnext header)
  rintro o o' d d' hrel hnext
  cases hrel with
  | none => exact together_pure hnext rfl
  | some hmoves =>
    dsimp only
    rw [hmoves.column]
    apply together_bind (runs_body h _ _ n d d' hnext)
    rintro elseBranch _ d d' rfl hnext
    exact together_pure hnext rfl

theorem runs_parameters (function : String) (n : Nat) (seen : List String) :
    Runs m b Eq (parameters function n seen) (parameters function n seen) := by
  induction n generalizing seen with
  | zero => exact fun c c' _ => together_stuck
  | succ n ih =>
    intro c c' halike
    apply together_bind (together_expect halike _ _)
    rintro t u d d' hmoves hnext
    rw [hmoves.lexeme, hmoves.position_eq]
    split
    · exact together_fail hnext fun _ => rfl
    · apply together_bind (together_accept hnext (.inr rfl))
      rintro found _ d d' rfl hnext
      split
      · apply together_bind (ih _ d d' hnext)
        rintro names _ d d' rfl hnext
        exact together_pure hnext rfl
      · exact together_pure hnext rfl

theorem runs_defStatement (h : RunsHere m b Eq p p) (header n : Nat) :
    Runs m b Eq (defStatement p header n) (defStatement p (m.column header) n) := by
  intro c c' halike
  apply together_bind (together_expect halike _ _)
  rintro name name' d d' hname hnext
  rw [hname.lexeme]
  apply together_bind (together_expect hnext _ _)
  rintro o o' d d' - hnext
  apply together_bind (runs_untilParen (runs_parameters name.lexeme n [])
    (fun c hc => refuses_parameters hc _ _ _) _ d d' hnext)
  rintro names _ d d' rfl hnext
  apply together_bind (runs_body h _ header n d d' hnext)
  rintro body _ d d' rfl hnext
  exact together_pure hnext rfl

theorem runsHere_plainStatement (n : Nat) :
    RunsHere m b Eq (plainStatement n) (plainStatement n) := by
  intro c c' hend halike
  apply together_bind_of (together_takeTarget halike hend)
  rintro o _ d d' ho rfl hnext
  obtain ⟨ts, hpass, ⟨rfl, rfl⟩ | ⟨t, s, -, -, -, -, rfl⟩⟩ := takes_takeTarget _ _ ho
  · apply together_bind (runsHere_expressionHere n d d' (hpass.atEnd_eq.trans hend) hnext)
    rintro e _ d d' rfl hnext
    exact together_pure hnext rfl
  · apply together_bind (runs_expression n d d' hnext)
    rintro e _ d d' rfl hnext
    exact together_pure hnext rfl

theorem runsHere_openStatement (h : RunsHere m b Eq p p) (n : Nat) :
    RunsHere m b Eq (openStatement p n) (openStatement p n) := by
  intro c c' hend halike
  refine together_bind_of (R := Option.Rel m.Moves) (together_take? halike ?_ ?_) ?_
  · intro t u hmoves _
    rw [hmoves.kind]
    split
    · exact .some hmoves
    · exact .none
  · intro hnot
    rw [hend] at hnot
    cases hnot
  · rintro o o' d d' ho hrel hnext
    cases hrel with
    | none =>
      obtain ⟨ts, hpass, ⟨-, rfl⟩ | ⟨t, u, -, -, -, hnone⟩⟩ := takes_take? _ _ _ ho
      · exact runsHere_plainStatement n d d' (hpass.atEnd_eq.trans hend) hnext
      · cases hnone
    | @some t u hmoves =>
      dsimp only
      rw [hmoves.kind, hmoves.column]
      split
      · exact runs_printStatement n d d' hnext
      · exact runs_ifStatement h _ n d d' hnext
      · exact runs_defStatement h _ n d d' hnext
      · exact runs_returnStatement n d d' hnext

theorem runs_endOfStatement : Runs m b Eq endOfStatement endOfStatement := by
  intro c c' halike
  have hended : (c'.endsStatement || c'.nextIs .elseKeyword) =
      (c.endsStatement || c.nextIs .elseKeyword) := by
    rw [halike.endsStatement_eq]
    cases hend : c.atEnd with
    | false => rw [halike.nextIs_eq hend]
    | true => rw [Cursor.endsStatement, hend, Bool.true_or, Bool.true_or, Bool.true_or]
  apply together_read
  rw [hended]
  split
  · exact together_pure halike rfl
  · exact together_unexpected halike _

theorem runsHere_statement (n : Nat) : RunsHere m b Eq (statement n) (statement n) := by
  induction n with
  | zero => exact fun c c' _ _ => together_stuck
  | succ n ih =>
    intro c c' hend halike
    apply together_bind (runsHere_openStatement ih (n + 1) c c' hend halike)
    rintro s _ d d' rfl hnext
    apply together_bind (runs_endOfStatement d d' hnext)
    rintro _ _ d d' - hnext
    exact together_pure hnext rfl

theorem runsHere_topLevelStatement (column n : Nat) :
    RunsHere m b Eq (topLevelStatement column n) (topLevelStatement (m.column column) n) := by
  intro c c' hend halike
  apply together_read
  simp only [halike.line hend, halike.column_eq hend, ne_eq, m.column_mono.injective.eq_iff]
  split
  · exact together_failHere halike _
  · exact runsHere_statement n c c' hend halike

end Statements

end IntScript.Grammar.Parser
