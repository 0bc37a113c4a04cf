import IntScript.Proofs.Grammar.Recovery

/-!
# The end mark is only pointed at

Where the end mark stands decides nothing. Reading the same tokens gives the same tree or the same faults
wherever the mark behind them is, and only a fault found at the mark is reported at its position.
-/

namespace IntScript.Grammar

open IntScript.Action

/-- A fault, and the position of the token that shows it unless that is the end mark. -/
structure Blame where
  fault : Fault
  place : Option Position

def Blame.error (finish : Position) (b : Blame) : SyntaxError := ⟨b.fault, b.place.getD finish⟩

namespace Parser

variable {α β : Type} {p : Parser α} {k : α → Parser β} {previous : Option Token} {ahead : List Token}

/-- From here the parser goes the same way for all positions of the end mark, as far as it has an answer. -/
def UnmarkedFrom (p : Parser α) (previous : Option Token) (ahead : List Token) : Prop :=
  ∃ (r : Except Blame α) (previous' : Option Token) (ahead' : List Token), ∀ finish,
    p ⟨previous, ahead, finish⟩ = none ∨
      p ⟨previous, ahead, finish⟩ = some (r.mapError (·.error finish), ⟨previous', ahead', finish⟩)

def Unmarked (p : Parser α) : Prop := ∀ previous ahead, UnmarkedFrom p previous ahead

theorem unmarked_pure (a : α) : Unmarked (pure a : Parser α) :=
  fun previous ahead => ⟨.ok a, previous, ahead, fun _ => .inr rfl⟩

theorem unmarked_stuck : Unmarked (Action.stuck : Parser α) :=
  fun previous ahead => ⟨.error ⟨.unexpectedIndent, none⟩, previous, ahead, fun _ => .inl rfl⟩

theorem unmarked_fail (e : SyntaxError) : Unmarked (Action.fail e : Parser α) :=
  fun previous ahead => ⟨.error ⟨e.fault, some e.position⟩, previous, ahead, fun _ => .inr rfl⟩

theorem unmarked_failHere (fault : Fault) : Unmarked (failHere fault : Parser α)
  | previous, [] => ⟨.error ⟨fault, none⟩, previous, [], fun _ => .inr rfl⟩
  | previous, t :: ts => ⟨.error ⟨fault, some t.position⟩, previous, t :: ts, fun _ => .inr rfl⟩

theorem unmarked_unexpected (expected : Expectation) : Unmarked (unexpected expected : Parser α)
  | previous, [] =>
    ⟨.error ⟨.unexpectedToken expected .endOfFile, none⟩, previous, [], fun _ => .inr rfl⟩
  | previous, t :: ts =>
    ⟨.error ⟨.unexpectedToken expected (.token t.kind t.lexeme), some t.position⟩, previous, t :: ts,
      fun _ => .inr rfl⟩

theorem UnmarkedFrom.bind (hp : UnmarkedFrom p previous ahead) (hk : ∀ a, Unmarked (k a)) :
    UnmarkedFrom (p >>= k) previous ahead := by
  obtain ⟨r, previous₁, ahead₁, hr⟩ := hp
  cases r with
  | error b =>
    refine ⟨.error b, previous₁, ahead₁, fun finish => ?_⟩
    obtain hnone | herror := hr finish
    · exact .inl (bind_eq_none hnone)
    · exact .inr (bind_eq_error herror)
  | ok a =>
    obtain ⟨r', previous₂, ahead₂, hr'⟩ := hk a previous₁ ahead₁
    refine ⟨r', previous₂, ahead₂, fun finish => ?_⟩
    obtain hnone | hok := hr finish
    · exact .inl (bind_eq_none hnone)
    · rw [bind_eq_ok hok]
      exact hr' finish

theorem Unmarked.bind (hp : Unmarked p) (hk : ∀ a, Unmarked (k a)) : Unmarked (p >>= k) :=
  fun previous ahead => (hp previous ahead).bind hk

theorem unmarkedFrom_read {g : Cursor → α} {a : α} (ha : ∀ finish, g ⟨previous, ahead, finish⟩ = a)
    (hk : UnmarkedFrom (k a) previous ahead) : UnmarkedFrom (Action.read g >>= k) previous ahead := by
  obtain ⟨r, previous', ahead', hr⟩ := hk
  refine ⟨r, previous', ahead', fun finish => ?_⟩
  rw [bind_eq_ok (read_apply _ _), ha finish]
  exact hr finish

theorem unmarked_read {g : Cursor → α}
    (hg : ∀ previous ahead finish, g ⟨previous, ahead, finish⟩ = g ⟨previous, ahead, ⟨0, 0⟩⟩)
    (hk : ∀ a, Unmarked (k a)) : Unmarked (Action.read g >>= k) :=
  fun previous ahead => unmarkedFrom_read (hg previous ahead) (hk _ previous ahead)

theorem unmarked_take? {f : Cursor → Token → Option α}
    (hf : ∀ previous t ts finish finish',
      f ⟨previous, t :: ts, finish⟩ t = f ⟨previous, t :: ts, finish'⟩ t) :
    Unmarked (take? f)
  | previous, [] => ⟨.ok none, previous, [], fun _ => .inr rfl⟩
  | previous, t :: ts => by
    cases hft : f ⟨previous, t :: ts, ⟨0, 0⟩⟩ t with
    | none =>
      refine ⟨.ok none, previous, t :: ts, fun finish => .inr ?_⟩
      simp only [take?, hf previous t ts finish ⟨0, 0⟩, hft]
      rfl
    | some a =>
      refine ⟨.ok (some a), some t, ts, fun finish => .inr ?_⟩
      simp only [take?, hf previous t ts finish ⟨0, 0⟩, hft]
      rfl

theorem unmarked_accept (kind : TokenKind) : Unmarked (accept kind) :=
  (unmarked_take? fun _ _ _ _ _ => rfl).bind fun _ => unmarked_pure _

theorem unmarked_takeOnLine? (kind : TokenKind) : Unmarked (takeOnLine? kind) :=
  unmarked_take? fun _ _ _ _ _ => rfl

theorem unmarked_expect (kind : TokenKind) (expected : Expectation) : Unmarked (expect kind expected) := by
  refine (unmarked_takeOnLine? kind).bind fun o => ?_
  cases o with
  | none => exact unmarked_unexpected expected
  | some t => exact unmarked_pure t

theorem unmarked_takeTarget : Unmarked takeTarget := by
  intro previous ahead
  cases hfollows : (Cursor.mk previous ahead ⟨0, 0⟩).assignmentAhead with
  | false =>
    refine ⟨.ok none, previous, ahead, fun finish => .inr ?_⟩
    exact takeTarget_apply hfollows
  | true =>
    obtain _ | ⟨t, _ | ⟨e, ts⟩⟩ := ahead
    · cases hfollows
    · cases hfollows
    · refine ⟨.ok (some t.lexeme), some e, ts, fun finish => .inr ?_⟩
      have hfollows' : (Cursor.mk previous (t :: e :: ts) finish).assignmentAhead = true := hfollows
      rw [takeTarget]
      simp only [hfollows', if_true]
      rfl

section Expressions

def MissesOperand (p : Parser α) : Prop :=
  ∀ previous finish, p ⟨previous, [], finish⟩ = none ∨
    p ⟨previous, [], finish⟩ = unexpected .expression ⟨previous, [], finish⟩

theorem MissesOperand.bind (h : MissesOperand p) : MissesOperand (p >>= k) := by
  intro previous finish
  obtain hnone | hfails := h previous finish
  · exact .inl (bind_eq_none hnone)
  · exact .inr (bind_eq_error hfails)

theorem unmarked_operandOnLine (h : Unmarked p) (hmisses : MissesOperand p) :
    Unmarked (operandOnLine p)
  | previous, [] => by
    refine ⟨.error ⟨.unexpectedToken .expression .endOfFile, none⟩, previous, [], fun finish => ?_⟩
    rw [operandOnLine, bind_eq_ok (read_apply _ _)]
    split
    · exact .inr rfl
    · obtain hnone | hfails := hmisses previous finish
      · exact .inl hnone
      · exact .inr hfails
  | previous, t :: ts => by
    refine unmarkedFrom_read (fun finish => rfl) (a := (Cursor.mk previous (t :: ts) ⟨0, 0⟩).startsLine) ?_
    split
    · exact unmarked_unexpected _ _ _
    · exact h _ _

theorem unmarked_commaSeparated (h : Unmarked p) (n : Nat) : Unmarked (commaSeparated p n) := by
  induction n with
  | zero => exact unmarked_stuck
  | succ n ih =>
    refine h.bind fun a => (unmarked_accept _).bind fun b => ?_
    cases b with
    | false => exact unmarked_pure _
    | true => exact ih.bind fun _ => unmarked_pure _

theorem unmarked_untilParen {items : Parser (List α)} (h : Unmarked items) (expected : Expectation) :
    Unmarked (untilParen items expected) := by
  have hitems : Unmarked (unlessParen items) := by
    refine unmarked_read (fun _ _ _ => rfl) fun b => ?_
    cases b with
    | false => exact h
    | true => exact unmarked_pure _
  exact hitems.bind fun _ => (unmarked_expect _ _).bind fun _ => unmarked_pure _

theorem unmarked_integerValue (t : Token) : Unmarked (integerValue t) := by
  unfold integerValue
  split
  · exact unmarked_pure _
  · exact unmarked_fail _

theorem unmarked_variableOrCall {nested : Parser Expression} (h : Unmarked nested) (name : String)
    (n : Nat) : Unmarked (variableOrCall nested name n) := by
  refine (unmarked_takeOnLine? _).bind fun o => ?_
  cases o with
  | none => exact unmarked_pure _
  | some t =>
    exact (unmarked_untilParen (unmarked_commaSeparated h n) _).bind fun _ => unmarked_pure _

theorem unmarked_primary {nested : Parser Expression} (h : Unmarked nested) (n : Nat) :
    Unmarked (primary nested n) := by
  refine (unmarked_take? fun _ _ _ _ _ => rfl).bind fun o => ?_
  cases o with
  | none => exact unmarked_unexpected _
  | some t =>
    dsimp only
    split
    · exact unmarked_integerValue t
    · exact unmarked_pure _
    · exact unmarked_variableOrCall h _ n
    · exact h.bind fun _ => (unmarked_expect _ _).bind fun _ => unmarked_pure _

theorem missesOperand_unaryHere (nested : Parser Expression) (n : Nat) :
    MissesOperand (unaryHere nested n) := by
  intro previous finish
  cases n with
  | zero => exact .inl rfl
  | succ n => exact .inr rfl

theorem unmarked_unaryHere {nested : Parser Expression} (h : Unmarked nested) (n : Nat) :
    Unmarked (unaryHere nested n) := by
  induction n with
  | zero => exact unmarked_stuck
  | succ n ih =>
    refine (unmarked_accept _).bind fun b => ?_
    cases b with
    | false => exact unmarked_primary h (n + 1)
    | true =>
      exact (unmarked_operandOnLine ih (missesOperand_unaryHere nested n)).bind fun _ =>
        unmarked_pure _

theorem unmarked_chainFrom (level : TokenKind → Option BinaryOperator) {operand : Parser Expression}
    (h : Unmarked operand) (n : Nat) (left : Expression) :
    Unmarked (chainFrom level operand n left) := by
  induction n generalizing left with
  | zero => exact unmarked_stuck
  | succ n ih =>
    refine (unmarked_take? fun _ _ _ _ _ => rfl).bind fun o => ?_
    cases o with
    | none => exact unmarked_pure _
    | some op => exact h.bind fun _ => ih _

theorem unmarked_chain (level : TokenKind → Option BinaryOperator) {first operand : Parser Expression}
    (hfirst : Unmarked first) (h : Unmarked operand) (n : Nat) :
    Unmarked (chain level first operand n) :=
  hfirst.bind fun left => unmarked_chainFrom level h n left

theorem unmarked_comparison {first operand : Parser Expression} (hfirst : Unmarked first)
    (h : Unmarked operand) (n : Nat) : Unmarked (comparison first operand n) := by
  have hproduct := unmarked_chain productOperator? h h n
  have hsum := unmarked_chain sumOperator? hproduct hproduct n
  exact unmarked_chain _ (unmarked_chain _ (unmarked_chain _ hfirst h n) hproduct n) hsum n

theorem missesOperand_expressionHere (n : Nat) : MissesOperand (expressionHere n) := by
  cases n with
  | zero => exact fun _ _ => .inl rfl
  | succ n =>
    -- No name is there to be assigned to, so the first operand is what is missing.
    have hfirst := missesOperand_unaryHere (operandOnLine (expressionHere n)) (n + 1)
    have hcomparison : MissesOperand (comparison (unaryHere (operandOnLine (expressionHere n)) (n + 1))
        (operandOnLine (unaryHere (operandOnLine (expressionHere n)) (n + 1))) (n + 1)) :=
      ((hfirst.bind).bind).bind
    exact fun previous finish => hcomparison previous finish

theorem unmarked_expressionHere (n : Nat) : Unmarked (expressionHere n) := by
  induction n with
  | zero => exact unmarked_stuck
  | succ n ih =>
    have hnested := unmarked_operandOnLine ih (missesOperand_expressionHere n)
    refine unmarked_takeTarget.bind fun o => ?_
    cases o with
    | some name => exact hnested.bind fun _ => unmarked_pure _
    | none =>
      have hunary := unmarked_unaryHere hnested (n + 1)
      exact unmarked_comparison hunary (unmarked_operandOnLine hunary (missesOperand_unaryHere _ _)) _

theorem unmarked_expression (n : Nat) : Unmarked (expression n) :=
  unmarked_operandOnLine (unmarked_expressionHere n) (missesOperand_expressionHere n)

end Expressions

section Statements

variable {s : Parser Statement}

theorem endsStatement_unmarked (previous : Option Token) (ahead : List Token) (finish : Position) :
    (Cursor.mk previous ahead finish).endsStatement =
      (Cursor.mk previous ahead ⟨0, 0⟩).endsStatement := by
  cases ahead <;> rfl

theorem fit_unmarked (column : Nat) (previous : Option Token) (ahead : List Token)
    (finish : Position) : (Cursor.mk previous ahead finish).fit column =
      (Cursor.mk previous ahead ⟨0, 0⟩).fit column := by
  cases ahead <;> rfl

theorem unmarked_unlessEnd (h : Unmarked p) : Unmarked (unlessEnd p) := by
  refine unmarked_read endsStatement_unmarked fun b => ?_
  cases b with
  | false => exact h.bind fun _ => unmarked_pure _
  | true => exact unmarked_pure _

theorem unmarked_linesAt (h : Unmarked s) (column n : Nat) : Unmarked (linesAt s column n) := by
  induction n with
  | zero => exact unmarked_stuck
  | succ n ih =>
    refine unmarked_read (fit_unmarked column) fun fit => ?_
    cases fit with
    | behind => exact unmarked_pure _
    | deeper => exact unmarked_failHere _
    | within => exact h.bind fun _ => ih.bind fun _ => unmarked_pure _

theorem unmarked_indentedBlock (h : Unmarked s) (construct : Construct) (header n : Nat) :
    Unmarked (indentedBlock s construct header n)
  | previous, [] => unmarkedFrom_read (a := true) (fun _ => rfl) (unmarked_failHere _ _ _)
  | previous, t :: ts => by
    refine unmarkedFrom_read (a := decide (t.span.column ≤ header)) (fun _ => rfl) ?_
    split
    · exact unmarked_failHere _ _ _
    · exact unmarkedFrom_read (a := t.span.column) (fun _ => rfl)
        (((unmarked_linesAt h _ n).bind fun _ => unmarked_pure _) _ _)

theorem unmarked_body (h : Unmarked s) (construct : Construct) (header n : Nat) :
    Unmarked (body s construct header n) := by
  refine (unmarked_takeOnLine? _).bind fun _ => unmarked_read endsStatement_unmarked fun b => ?_
  cases b with
  | false => exact h
  | true => exact unmarked_indentedBlock h construct header n

theorem unmarked_ifStatement (h : Unmarked s) (header n : Nat) :
    Unmarked (ifStatement s header n) := by
  refine (unmarked_expression n).bind fun _ => (unmarked_body h _ _ n).bind fun _ =>
    (unmarked_take? fun _ _ _ _ _ => rfl).bind fun o => ?_
  cases o with
  | none => exact unmarked_pure _
  | some t => exact (unmarked_body h _ _ n).bind fun _ => unmarked_pure _

theorem unmarked_parameters (function : String) (n : Nat) (seen : List String) :
    Unmarked (parameters function n seen) := by
  induction n generalizing seen with
  | zero => exact unmarked_stuck
  | succ n ih =>
    refine (unmarked_expect _ _).bind fun t => ?_
    split
    · exact unmarked_fail _
    · refine (unmarked_accept _).bind fun b => ?_
      cases b with
      | false => exact unmarked_pure _
      | true => exact (ih _).bind fun _ => unmarked_pure _

theorem unmarked_defStatement (h : Unmarked s) (header n : Nat) :
    Unmarked (defStatement s header n) :=
  (unmarked_expect _ _).bind fun _ => (unmarked_expect _ _).bind fun _ =>
    (unmarked_untilParen (unmarked_parameters _ n []) _).bind fun _ =>
      (unmarked_body h _ _ n).bind fun _ => unmarked_pure _

theorem unmarked_plainStatement (n : Nat) : Unmarked (plainStatement n) := by
  refine unmarked_takeTarget.bind fun o => ?_
  cases o with
  | none => exact (unmarked_expressionHere n).bind fun _ => unmarked_pure _
  | some name => exact (unmarked_expression n).bind fun _ => unmarked_pure _

theorem unmarked_openStatement (h : Unmarked s) (n : Nat) : Unmarked (openStatement s n) := by
  refine (unmarked_take? fun _ _ _ _ _ => rfl).bind fun o => ?_
  cases o with
  | none => exact unmarked_plainStatement n
  | some t =>
    dsimp only
    split
    · exact (unmarked_unlessEnd (unmarked_commaSeparated (unmarked_expression n) n)).bind fun _ =>
        unmarked_pure _
    · exact unmarked_ifStatement h _ n
    · exact unmarked_defStatement h _ n
    · exact (unmarked_unlessEnd (unmarked_expression n)).bind fun _ => unmarked_pure _

theorem unmarked_endOfStatement : Unmarked endOfStatement := by
  refine unmarked_read (fun previous ahead finish => ?_) fun b => ?_
  · rw [endsStatement_unmarked]
    rfl
  · cases b with
    | false => exact unmarked_unexpected _
    | true => exact unmarked_pure _

theorem unmarked_statement (n : Nat) : Unmarked (statement n) := by
  induction n with
  | zero => exact unmarked_stuck
  | succ n ih =>
    exact (unmarked_openStatement ih _).bind fun _ => unmarked_endOfStatement.bind fun _ =>
      unmarked_pure _

end Statements

section Programs

theorem unmarked_program (n : Nat) : Unmarked (program n)
  | previous, [] => by
    refine ⟨.ok (.block []), previous, [], fun finish => ?_⟩
    cases n with
    | zero => exact .inl rfl
    | succ n => exact .inr rfl
  | previous, t :: ts => by
    refine unmarkedFrom_read (a := t.span.column) (fun _ => rfl) ?_
    refine ((unmarked_linesAt (unmarked_statement n) _ n).bind fun _ =>
      unmarked_read (fun _ _ _ => rfl) fun b => ?_) _ _
    cases b with
    | false => exact unmarked_unexpected _
    | true => exact unmarked_pure _

theorem unmarkedFrom_topLevelStatement (column n : Nat) (previous : Option Token) (t : Token)
    (ts : List Token) : UnmarkedFrom (topLevelStatement column n) previous (t :: ts) := by
  refine unmarkedFrom_read (fun _ => rfl)
    (a := (Cursor.mk previous (t :: ts) ⟨0, 0⟩).startsLine && t.span.column ≠ column) ?_
  split
  · exact unmarked_failHere _ _ _
  · exact unmarked_statement n _ _

end Programs

end Parser

namespace Cursor

open Grammar.Parser

theorem program_unmarked (previous : Option Token) (ahead : List Token) :
    ∃ (r : Except Blame Statement) (previous' : Option Token) (ahead' : List Token), ∀ finish,
      (Cursor.mk previous ahead finish).program =
        (r.mapError (·.error finish), ⟨previous', ahead', finish⟩) := by
  obtain ⟨r, previous', ahead', hr⟩ := unmarked_program (ahead.length + 1) previous ahead
  refine ⟨r, previous', ahead', fun finish => ?_⟩
  have hread : Parser.program (ahead.length + 1) ⟨previous, ahead, finish⟩ =
      some (Cursor.mk previous ahead finish).program := by
    simp [Cursor.program, size]
  obtain hnone | hsome := hr finish
  · cases hnone.symm.trans hread
  · exact Option.some.inj (hread.symm.trans hsome)

theorem topLevelStatement_unmarked (column : Nat) (previous : Option Token) (t : Token)
    (ts : List Token) :
    ∃ (r : Except Blame Statement) (previous' : Option Token) (ahead' : List Token), ∀ finish,
      (Cursor.mk previous (t :: ts) finish).topLevelStatement column =
        (r.mapError (·.error finish), ⟨previous', ahead', finish⟩) := by
  obtain ⟨n, hn⟩ : ∃ n, (t :: ts).length < n := ⟨_, Nat.lt_succ_self _⟩
  obtain ⟨r, previous', ahead', hr⟩ := unmarkedFrom_topLevelStatement column n previous t ts
  refine ⟨r, previous', ahead', fun finish => ?_⟩
  have hread : Parser.topLevelStatement column n ⟨previous, t :: ts, finish⟩ =
      some ((Cursor.mk previous (t :: ts) finish).topLevelStatement column) := topLevelStatement_eq hn
  obtain hnone | hsome := hr finish
  · rw [hread] at hnone
    cases hnone
  · rw [hread] at hsome
    exact Option.some.inj hsome

theorem seekLine_unmarked (column : Nat) (previous : Option Token) (ts : List Token) :
    ∃ (previous' : Option Token) (ahead' : List Token), ∀ finish,
      seekLine column finish previous ts = ⟨previous', ahead', finish⟩ := by
  induction ts generalizing previous with
  | nil => exact ⟨previous, [], fun _ => rfl⟩
  | cons t ts ih =>
    cases hhere : (Cursor.mk previous (t :: ts) ⟨0, 0⟩).startsLine && decide (t.span.column ≤ column) with
    | true =>
      refine ⟨previous, t :: ts, fun finish => ?_⟩
      rw [seekLine]
      exact if_pos hhere
    | false =>
      obtain ⟨previous', ahead', hseek⟩ := ih (some t)
      refine ⟨previous', ahead', fun finish => ?_⟩
      rw [seekLine, ← hseek finish]
      exact if_neg (Bool.not_eq_true _ ▸ hhere)

theorem resume_unmarked (column : Nat) (previous : Option Token) (ahead : List Token) :
    ∃ (previous' : Option Token) (ahead' : List Token), ∀ finish,
      (Cursor.mk previous ahead finish).resume column = ⟨previous', ahead', finish⟩ := by
  cases ahead with
  | nil => exact ⟨previous, [], fun _ => rfl⟩
  | cons t ts => exact seekLine_unmarked column (some t) ts

theorem topLevelStatements_unmarked (column : Nat) (previous : Option Token) (ahead : List Token) :
    ∃ (outcomes : List (Except Blame Statement)) (previous' : Option Token) (ahead' : List Token),
      ∀ finish, (Cursor.mk previous ahead finish).topLevelStatements column =
        (outcomes.map (·.mapError (·.error finish)), ⟨previous', ahead', finish⟩) := by
  -- A statement that is read takes a token, and so does what follows a malformed one.
  induction hsize : ahead.length using Nat.strongRecOn generalizing previous ahead with
  | ind size ih =>
    cases ahead with
    | nil =>
      refine ⟨[], previous, [], fun finish => ?_⟩
      exact topLevelStatements_eq_atEnd rfl
    | cons t ts =>
      obtain ⟨r, previous₁, ahead₁, hr⟩ := topLevelStatement_unmarked column previous t ts
      cases r with
      | ok s =>
        have hless := size_topLevelStatement_lt (hr ⟨0, 0⟩)
        obtain ⟨outcomes, previous', ahead', hrest⟩ := ih _ (hsize ▸ hless) previous₁ ahead₁ rfl
        refine ⟨.ok s :: outcomes, previous', ahead', fun finish => ?_⟩
        rw [topLevelStatements_eq_ok rfl (hr finish), hrest finish]
        rfl
      | error b =>
        obtain ⟨previous₂, ahead₂, hresume⟩ := resume_unmarked column previous₁ ahead₁
        have hless : ahead₂.length < size := by
          have hread := size_topLevelStatement_le ⟨previous, t :: ts, ⟨0, 0⟩⟩ column
          have hskip := size_resume_le ⟨previous₁, ahead₁, ⟨0, 0⟩⟩ column
          rw [hr] at hread
          rw [hresume] at hskip
          simp only [Cursor.size, List.length_cons] at hread hskip hsize
          omega
        obtain ⟨outcomes, previous', ahead', hrest⟩ := ih _ hless previous₂ ahead₂ rfl
        refine ⟨.error b :: outcomes, previous', ahead', fun finish => ?_⟩
        rw [topLevelStatements_eq_error rfl (hr finish), hresume finish, hrest finish]
        rfl

theorem gather_unmarked (outcomes : List (Except Blame Statement)) :
    ∃ r : Except (List Blame) (List Statement), ∀ finish,
      gather (outcomes.map (·.mapError (·.error finish))) =
        r.mapError (·.map (·.error finish)) := by
  induction outcomes with
  | nil => exact ⟨.ok [], fun _ => rfl⟩
  | cons outcome outcomes ih =>
    obtain ⟨r, hr⟩ := ih
    cases outcome with
    | ok s =>
      refine ⟨r.map (s :: ·), fun finish => ?_⟩
      rw [List.map_cons, Except.mapError, gather, hr]
      cases r <;> rfl
    | error b =>
      cases r with
      | ok ss =>
        refine ⟨.error [b], fun finish => ?_⟩
        rw [List.map_cons, Except.mapError, gather, hr]
        rfl
      | error bs =>
        refine ⟨.error (b :: bs), fun finish => ?_⟩
        rw [List.map_cons, Except.mapError, gather, hr]
        rfl

theorem recovering_unmarked (previous : Option Token) (ahead : List Token) :
    ∃ (r : Except (List Blame) Statement) (previous' : Option Token) (ahead' : List Token), ∀ finish,
      (Cursor.mk previous ahead finish).recovering =
        (r.mapError (·.map (·.error finish)), ⟨previous', ahead', finish⟩) := by
  cases ahead with
  | nil =>
    refine ⟨.ok (.block []), previous, [], fun finish => ?_⟩
    rw [recovering_eq, topLevelStatements_eq_atEnd rfl]
    rfl
  | cons t ts =>
    obtain ⟨outcomes, previous', ahead', hread⟩ :=
      topLevelStatements_unmarked t.span.column previous (t :: ts)
    obtain ⟨r, hr⟩ := gather_unmarked outcomes
    refine ⟨r.map .block, previous', ahead', fun finish => ?_⟩
    have hcolumn : (Cursor.mk previous (t :: ts) finish).position.column = t.span.column := rfl
    rw [recovering_eq, hcolumn, hread finish, hr finish]
    cases r <;> rfl

end Cursor

end IntScript.Grammar
