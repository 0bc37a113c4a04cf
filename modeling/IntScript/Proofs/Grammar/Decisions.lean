import IntScript.Grammar.Program
import IntScript.Proofs.Grammar.Decided

/-!
# What decides the answers of all parsers

No parser of expressions, statements or programs has looked behind the next token when it gives a value, nor
behind the token at fault when it fails. A literal that is no word and a parameter that is there twice are
at fault themselves, and are taken before that is found.
-/

namespace IntScript.Grammar.Parser

open IntScript.Action Cursor

variable {α : Type} {m : Nat} {p : Parser α} {c d : Cursor} {t : Token}

section Expressions

variable {nested : Parser Expression} {previous : Option Token} {ts : List Token} {finish : Position}

theorem decided_operandOnLine (h : ∀ c, Decided 0 p c) (c : Cursor) : Decided 0 (operandOnLine p) c := by
  apply decided_read looksOnce_startsLine
  split
  · exact decided_unexpected _
  · exact h c

theorem decided_commaSeparated (h : ∀ c, Decided 0 p c) (n : Nat) (c : Cursor) :
    Decided 0 (commaSeparated p n) c := by
  induction n generalizing c with
  | zero => exact decided_stuck
  | succ n ih =>
    apply (h c).bind
    rintro a d -
    apply (decided_accept _).bind
    rintro found d₁ -
    split
    · exact (ih d₁).bind fun as d₂ _ => decided_pure _
    · exact decided_pure _

theorem decided_untilParen {items : Parser (List α)} (h : ∀ c, Decided 0 items c)
    (expected : Expectation) (c : Cursor) : Decided 0 (untilParen items expected) c := by
  have hitems : Decided 0 (unlessParen items) c := by
    apply decided_read (looksOnce_of_cons fun _ _ _ _ _ _ => rfl)
    split
    · exact decided_pure _
    · exact h c
  apply hitems.bind
  rintro as d -
  apply (decided_expect _ _).bind
  rintro t d₁ -
  exact decided_pure as

theorem decided_variableOrCall (h : ∀ c, Decided 0 nested c) (name : String) (n : Nat) (c : Cursor) :
    Decided 0 (variableOrCall nested name n) c := by
  apply (decided_takeOnLine? _).bind
  rintro (_ | t) d -
  · exact decided_pure _
  · exact (decided_untilParen (decided_commaSeparated h n) _ d).bind fun _ _ _ => decided_pure _

theorem primary_eq (nested : Parser Expression) (n : Nat) (hahead : c.ahead = t :: ts)
    (h : beginsOperand t.kind = true) : ∀ c', c.SameNext c' → primary nested n c' =
      (match t.kind with
        | .integer => integerValue t
        | .string => return .text t.lexeme
        | .identifier => variableOrCall nested t.lexeme n
        | _ => do
          let e ← nested
          let _ ← expect .rparen .parenAfterExpression
          return e : Parser Expression) c'.advance := by
  intro c' hnext
  obtain ⟨previous', ahead', finish'⟩ := c'
  obtain ⟨ts', rfl⟩ : ∃ ts', ahead' = t :: ts' := by
    rw [← List.head?_eq_some_iff]
    exact hnext.head.trans (by rw [hahead]; rfl)
  exact primary_apply h

theorem decided_primary (h : ∀ c, Decided 0 nested c) (n : Nat) (c : Cursor) :
    Decided 0 (primary nested n) c := by
  -- A literal that is no word is at fault itself, so nothing behind it has been looked at.
  by_cases hhead : ∃ t ts, c.ahead = t :: ts ∧ beginsOperand t.kind = true
  · obtain ⟨t, ts, hahead, hbegins⟩ := hhead
    have hprimary := primary_eq nested n hahead hbegins
    cases hkind : t.kind <;> rw [hkind] at hbegins hprimary <;> try contradiction
    case integer =>
      unfold integerValue at hprimary
      cases hvalue : Word.ofDecimal? t.lexeme.toList with
      | some value =>
        rw [hvalue] at hprimary
        exact (decided_taken hahead hprimary (decided_pure _)).mono (Nat.zero_le 1)
      | none =>
        rw [hvalue] at hprimary
        have hpass : c.Passes ([] ++ [t]) c.advance := passes_advance_of hahead
        refine .token (e := ⟨.invalidIntegerLiteral t.lexeme, t.position⟩) hpass (Nat.le_refl 0) rfl
          fun c' d' hpass' hprevious => .inr ⟨c'.advance, ?_, .inr hpass'.advance_eq⟩
        exact hprimary c' (hpass.sameNext hpass' hprevious nofun)
    case string => exact (decided_taken hahead hprimary (decided_pure _)).mono (Nat.zero_le 1)
    case identifier =>
      exact (decided_taken hahead hprimary (decided_variableOrCall h _ _ _)).mono (Nat.zero_le 1)
    case lparen =>
      apply (decided_taken hahead hprimary _).mono (Nat.zero_le 1)
      apply (h _).bind
      rintro e d -
      exact (decided_expect _ _).bind fun _ _ _ => decided_pure e
  · apply (decided_take? fun _ => looksOnce_of_cons fun _ _ _ _ _ _ => rfl).bind
    rintro o d ho
    obtain ⟨ts, -, ⟨rfl, -⟩ | ⟨t, a, -, hahead, ha, -⟩⟩ := takes_take? _ _ _ ho
    · exact decided_unexpected _
    · obtain ⟨rest, hrest⟩ := List.head?_eq_some_iff.1 hahead
      exact absurd ⟨t, rest, hrest, (Option.ite_none_right_eq_some.1 ha).1⟩ hhead

theorem decided_unaryHere (h : ∀ c, Decided 0 nested c) (n : Nat) (c : Cursor) :
    Decided c.names (unaryHere nested n) c := by
  induction n generalizing c with
  | zero => exact decided_stuck
  | succ n ih =>
    have hplain (c : Cursor) : Decided 0 (unaryHere nested n) c := (ih c).mono (Nat.zero_le _)
    cases hname : c.nextIs .identifier with
    | true =>
      obtain ⟨t, ts, hahead, hkind⟩ := exists_name hname
      apply Decided.mono _ c.names_le
      apply decided_taken hahead (q := variableOrCall nested t.lexeme (n + 1)) _
        (decided_variableOrCall h _ _ _)
      intro c' hnext
      have hhead : c'.ahead.head? = some t := hnext.head.trans (by rw [hahead]; rfl)
      have hsign : ∀ u ∈ c'.ahead.head?, u.kind ≠ .minus := by
        rintro u hu
        rw [hhead] at hu
        cases hu
        rw [hkind]
        decide
      rw [unaryHere, bind_eq_ok (accept_none hsign)]
      have hprimary := primary_eq nested (n + 1) hahead (by rw [hkind]; rfl) c' hnext
      rw [hkind] at hprimary
      exact hprimary
    | false =>
      rw [names, hname]
      apply (decided_accept _).bind
      rintro found d -
      split
      · exact (decided_operandOnLine hplain d).bind fun _ _ _ => decided_pure _
      · exact decided_primary h _ d

theorem decided_chainFrom {operand : Parser Expression} (h : ∀ c, Decided 0 operand c)
    (level : TokenKind → Option BinaryOperator) (n : Nat) (left : Expression) (c : Cursor) :
    Decided 0 (chainFrom level operand n left) c := by
  induction n generalizing left c with
  | zero => exact decided_stuck
  | succ n ih =>
    apply (decided_takeOperator? level).bind
    rintro (_ | op) d -
    · exact decided_pure _
    · exact (h d).bind fun right d₁ _ => ih _ d₁

theorem decided_chain {first operand : Parser Expression} (hfirst : Decided m first c)
    (h : ∀ c, Decided 0 operand c) (level : TokenKind → Option BinaryOperator) (n : Nat) :
    Decided m (chain level first operand n) c :=
  hfirst.bind fun left d _ => decided_chainFrom h level n left d

theorem decided_comparison {first operand : Parser Expression} (hfirst : Decided m first c)
    (h : ∀ c, Decided 0 operand c) (n : Nat) : Decided m (comparison first operand n) c := by
  have hproduct (c : Cursor) : Decided 0 (product operand operand n) c := decided_chain (h c) h _ n
  have hsum (c : Cursor) : Decided 0 (sum operand operand n) c :=
    decided_chain (hproduct c) hproduct _ n
  exact decided_chain (decided_chain (decided_chain hfirst h _ n) hproduct _ n) hsum _ n

theorem decided_expressionHere (n : Nat) (c : Cursor) : Decided c.names (expressionHere n) c := by
  induction n generalizing c with
  | zero => exact decided_stuck
  | succ n ih =>
    have hnested (c : Cursor) : Decided 0 (operandOnLine (expressionHere n)) c :=
      decided_operandOnLine (fun c => (ih c).mono (Nat.zero_le _)) c
    have hunary := decided_unaryHere hnested (n + 1)
    apply decided_takeTarget
    · exact decided_comparison (hunary c)
        (decided_operandOnLine fun c => (hunary c).mono (Nat.zero_le _)) _
    · intro name d
      exact (hnested d).bind fun _ _ _ => decided_pure _

theorem decided_expression (n : Nat) (c : Cursor) : Decided 0 (expression n) c :=
  decided_operandOnLine (fun c => (decided_expressionHere n c).mono (Nat.zero_le _)) c

end Expressions

section Statements

variable {p : Parser Statement}

theorem looksOnce_endsStatement : LooksOnce Cursor.endsStatement :=
  looksOnce_of_cons fun _ _ _ _ _ _ => rfl

theorem decided_unlessEnd {items : Parser α} (h : ∀ c, Decided 0 items c) (c : Cursor) :
    Decided 0 (unlessEnd items) c := by
  apply decided_read looksOnce_endsStatement
  split
  · exact decided_pure _
  · exact (h c).bind fun _ _ _ => decided_pure _

theorem decided_printStatement (n : Nat) (c : Cursor) : Decided 0 (printStatement n) c :=
  (decided_unlessEnd (decided_commaSeparated (decided_expression n) n) c).bind fun _ _ _ => decided_pure _

theorem decided_returnStatement (n : Nat) (c : Cursor) : Decided 0 (returnStatement n) c :=
  (decided_unlessEnd (decided_expression n) c).bind fun _ _ _ => decided_pure _

theorem decided_linesAt (h : ∀ c, Decided 0 p c) (column n : Nat) (c : Cursor) :
    Decided 0 (linesAt p column n) c := by
  induction n generalizing c with
  | zero => exact decided_stuck
  | succ n ih =>
    apply decided_read (looksOnce_of_cons fun _ _ _ _ _ _ => rfl)
    split
    · exact decided_pure _
    · exact decided_failHere _
    · apply (h c).bind
      rintro s d -
      exact (ih d).bind fun _ _ _ => decided_pure _

theorem decided_indentedBlock (h : ∀ c, Decided 0 p c) (construct : Construct) (header n : Nat)
    (c : Cursor) : Decided 0 (indentedBlock p construct header n) c := by
  apply decided_read (looksOnce_of_cons fun _ _ _ _ _ _ => rfl)
  split
  · exact decided_failHere _
  · apply decided_read (looksOnce_of_cons fun _ _ _ _ _ _ => rfl)
    exact (decided_linesAt h _ n c).bind fun _ _ _ => decided_pure _

theorem decided_body (h : ∀ c, Decided 0 p c) (construct : Construct) (header n : Nat) (c : Cursor) :
    Decided 0 (body p construct header n) c := by
  apply (decided_takeOnLine? _).bind
  rintro o d -
  apply decided_read looksOnce_endsStatement
  split
  · exact decided_indentedBlock h construct header n d
  · exact h d

theorem decided_ifStatement (h : ∀ c, Decided 0 p c) (header n : Nat) (c : Cursor) :
    Decided 0 (ifStatement p header n) c := by
  apply (decided_expression n c).bind
  rintro condition d -
  apply (decided_body h _ header n d).bind
  rintro thenBranch d₁ -
  apply (decided_takeElse? header).bind
  rintro (_ | t) d₂ -
  · exact decided_pure _
  · exact (decided_body h _ t.span.column n d₂).bind fun _ _ _ => decided_pure _

theorem decided_parameters (function : String) (n : Nat) (seen : List String) (c : Cursor) :
    Decided 0 (parameters function n seen) c := by
  -- A parameter that is there twice is at fault itself.
  induction n generalizing seen c with
  | zero => exact decided_stuck
  | succ n ih =>
    by_cases htwice : ∃ t d, expect .identifier .parameterName c = some (.ok t, d) ∧
        seen.contains t.lexeme = true
    · obtain ⟨t, d, ht, hseen⟩ := htwice
      obtain ⟨hkind, hline, hpass⟩ := expect_eq_ok ht
      have hfirst : c.Passes ([] ++ [t]) d := hpass
      refine .token (e := ⟨.duplicateParameter t.lexeme function, t.position⟩) hfirst
        (Nat.le_refl 0) rfl fun c' d' hpass' hprevious => .inr ⟨d', ?_, .inr rfl⟩
      have hline' := (looksOnce_startsLine c c' (hpass.sameNext hpass' hprevious nofun)).trans hline
      have hexpect : expect .identifier .parameterName c' = some (.ok t, d') := by
        obtain ⟨previous', ahead', finish'⟩ := c'
        obtain rfl : ahead' = t :: d'.ahead := hpass'.ahead
        rw [expect_apply hkind hline', ← hpass'.advance_eq]
        rfl
      rw [parameters, bind_eq_ok hexpect, if_pos hseen]
      rfl
    · apply (decided_expect _ _).bind
      rintro t d ht
      split
      next hseen => exact absurd ⟨t, d, ht, hseen⟩ htwice
      next =>
        apply (decided_accept _).bind
        rintro found d₁ -
        split
        · exact (ih _ d₁).bind fun _ _ _ => decided_pure _
        · exact decided_pure _

theorem decided_defStatement (h : ∀ c, Decided 0 p c) (header n : Nat) (c : Cursor) :
    Decided 0 (defStatement p header n) c := by
  apply (decided_expect _ _).bind
  rintro name d -
  apply (decided_expect _ _).bind
  rintro o d₁ -
  apply (decided_untilParen (decided_parameters name.lexeme n []) _ d₁).bind
  rintro names d₂ -
  exact (decided_body h _ header n d₂).bind fun _ _ _ => decided_pure _

theorem decided_plainStatement (n : Nat) (c : Cursor) : Decided 0 (plainStatement n) c := by
  apply Decided.mono _ (Nat.zero_le c.names)
  apply decided_takeTarget
  · exact (decided_expressionHere n c).bind fun _ _ _ => decided_pure _
  · intro name d
    exact (decided_expression n d).bind fun _ _ _ => decided_pure _

theorem decided_openStatement (h : ∀ c, Decided 0 p c) (n : Nat) (c : Cursor) :
    Decided 0 (openStatement p n) c := by
  apply (decided_take? fun _ => looksOnce_of_cons fun _ _ _ _ _ _ => rfl).bind
  rintro (_ | t) d -
  · exact decided_plainStatement n d
  · dsimp only
    split
    · exact decided_printStatement n d
    · exact decided_ifStatement h _ n d
    · exact decided_defStatement h _ n d
    · exact decided_returnStatement n d

theorem decided_statement (n : Nat) (c : Cursor) : Decided 0 (statement n) c := by
  induction n generalizing c with
  | zero => exact decided_stuck
  | succ n ih =>
    apply (decided_openStatement ih (n + 1) c).bind
    rintro s d -
    have hend : Decided 0 endOfStatement d := by
      apply decided_read (looksOnce_of_cons fun _ _ _ _ _ _ => rfl)
      split
      · exact decided_pure _
      · exact decided_unexpected _
    exact hend.bind fun _ _ _ => decided_pure s

theorem decided_topLevelStatement (column n : Nat) (c : Cursor) :
    Decided 0 (topLevelStatement column n) c := by
  apply decided_read (looksOnce_of_cons fun _ _ _ _ _ _ => rfl)
  split
  · exact decided_failHere _
  · exact decided_statement n c

theorem decided_program (n : Nat) (c : Cursor) : Decided 0 (program n) c := by
  apply decided_read (looksOnce_of_cons fun _ _ _ _ _ _ => rfl)
  apply (decided_linesAt (decided_statement n) _ n c).bind
  rintro ss d -
  apply decided_read (looksOnce_of_cons fun _ _ _ _ _ _ => rfl)
  split
  · exact decided_pure _
  · exact decided_unexpected _

end Statements

end IntScript.Grammar.Parser
