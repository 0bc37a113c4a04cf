import IntScript.Proofs.Grammar.Bound
import IntScript.Proofs.Grammar.Shape

/-!
# Stopping at the first fault and reporting all of them

The two ways to read a program make the same decisions up to its first fault. They give the same tree,
or the fault that stops the first is the first one the other reports. Only a line further left than the
program is worded differently: to the first it is a program that does not end, to the other an indent.
-/

namespace IntScript

/-- The error that recovering reports in place of the one that stops a program. -/
def SyntaxError.recovered (e : SyntaxError) : SyntaxError :=
  match e.fault with
  | .unexpectedToken .topLevelStatement _ => ⟨.unexpectedIndent, e.position⟩
  | _ => e

def reportedErrors {α : Type} : Except (List SyntaxError) α → List SyntaxError
  | .ok _ => []
  | .error es => es

theorem reportedErrors_map {α β : Type} (f : α → β) (r : Except (List SyntaxError) α) :
    reportedErrors (r.map f) = reportedErrors r := by
  cases r <;> rfl

namespace Grammar.Cursor

open IntScript.Action Grammar.Parser

variable {c c' : Cursor} {column : Nat}

theorem recovered_eq_self {e : SyntaxError} (h : ¬ e.fault.IsDedent) : e.recovered = e := by
  rw [SyntaxError.recovered]
  split
  next hfault => exact absurd (by rw [hfault]; trivial) h
  next => rfl

theorem topLevelStatement_within (hend : c.atEnd = false) (hfit : c.fit column = .within) (n : Nat) :
    Parser.topLevelStatement column n c = statement n c := by
  have hstay : (c.startsLine && decide (c.position.column ≠ column)) = false := by
    cases hline : c.startsLine with
    | false => rfl
    | true =>
      simp only [fit, hend, hline] at hfit
      by_cases hlt : c.position.column < column
      · simp [hlt] at hfit
      · by_cases hgt : column < c.position.column
        · simp [hlt, hgt] at hfit
        · simp only [ne_eq, decide_not, Bool.true_and, Bool.not_eq_false', decide_eq_true_eq]
          omega
  rw [Parser.topLevelStatement, bind_eq_ok (read_apply _ _), hstay]
  rfl

theorem topLevelStatement_outside (hend : c.atEnd = false) (hfit : c.fit column ≠ .within)
    (n : Nat) : Parser.topLevelStatement column n c =
      some (.error ⟨.unexpectedIndent, c.position⟩, c) := by
  have hmove : (c.startsLine && decide (c.position.column ≠ column)) = true := by
    cases hline : c.startsLine with
    | false => simp [fit, hend, hline] at hfit
    | true =>
      by_cases heq : c.position.column = column
      · simp [fit, hend, hline, heq] at hfit
      · simp [heq]
  rw [Parser.topLevelStatement, bind_eq_ok (read_apply _ _), hmove]
  rfl

theorem topLevelStatement_le (column : Nat) {m n : Nat} (hmn : m ≤ n) :
    Parser.topLevelStatement column m ≤ Parser.topLevelStatement column n := by
  apply bind_le_bind_right
  intro outside
  split
  · exact le_rfl
  · exact statement_le hmn

theorem topLevelStatement_eq {n : Nat} (hn : c.size < n) :
    Parser.topLevelStatement column n c = some (c.topLevelStatement column) := by
  rw [← topLevelStatement_eq_some]
  exact eq_of_bounds (topLevelStatement_le column) (advances_topLevelStatement column) hn
    (Nat.lt_succ_self c.size)

theorem topLevelStatements_eq_atEnd (h : c.atEnd = true) : c.topLevelStatements column = ([], c) := by
  rw [topLevelStatements, dif_pos h]

theorem topLevelStatements_atEnd (h : c.atEnd = true) : (c.topLevelStatements column).1 = [] := by
  rw [topLevelStatements_eq_atEnd h]

theorem topLevelStatements_eq_ok {s : Statement} (hend : c.atEnd = false)
    (h : c.topLevelStatement column = (.ok s, c')) : c.topLevelStatements column =
      (.ok s :: (c'.topLevelStatements column).1, (c'.topLevelStatements column).2) := by
  rw [topLevelStatements, dif_neg (by simp [hend])]
  split
  next s₁ c₁ h₁ =>
    rw [h] at h₁
    cases h₁
    rfl
  next e₁ c₁ h₁ =>
    rw [h] at h₁
    cases h₁

theorem topLevelStatements_eq_error {e : SyntaxError} (hend : c.atEnd = false)
    (h : c.topLevelStatement column = (.error e, c')) : c.topLevelStatements column =
      (.error e :: ((c'.resume column).topLevelStatements column).1,
        ((c'.resume column).topLevelStatements column).2) := by
  rw [topLevelStatements, dif_neg (by simp [hend])]
  split
  next s₁ c₁ h₁ =>
    rw [h] at h₁
    cases h₁
  next e₁ c₁ h₁ =>
    rw [h] at h₁
    cases h₁
    rfl

theorem topLevelStatements_ok {s : Statement} (hend : c.atEnd = false)
    (h : c.topLevelStatement column = (.ok s, c')) :
    (c.topLevelStatements column).1 = .ok s :: (c'.topLevelStatements column).1 := by
  rw [topLevelStatements_eq_ok hend h]

theorem topLevelStatements_error {e : SyntaxError} (hend : c.atEnd = false)
    (h : c.topLevelStatement column = (.error e, c')) : (c.topLevelStatements column).1 =
      .error e :: ((c'.resume column).topLevelStatements column).1 := by
  rw [topLevelStatements_eq_error hend h]

theorem recovering_eq (c : Cursor) : c.recovering =
    ((gather (c.topLevelStatements c.position.column).1).map .block,
      (c.topLevelStatements c.position.column).2) := rfl

theorem gather_error (e : SyntaxError) (outcomes : List (Except SyntaxError Statement)) :
    ∃ es, gather (.error e :: outcomes) = .error (e :: es) := by
  rw [gather]
  cases gather outcomes with
  | ok ss => exact ⟨[], rfl⟩
  | error es => exact ⟨es, rfl⟩

theorem gather_append_ok (ss : List Statement) (outcomes : List (Except SyntaxError Statement)) :
    gather (ss.map .ok ++ outcomes) = (gather outcomes).map (ss ++ ·) := by
  induction ss with
  | nil =>
    rw [List.map_nil, List.nil_append]
    cases gather outcomes <;> rfl
  | cons s ss ih =>
    rw [List.map_cons, List.cons_append, gather, ih]
    cases gather outcomes <;> rfl

theorem reportedErrors_gather_error (e : SyntaxError)
    (outcomes : List (Except SyntaxError Statement)) :
    reportedErrors (gather (.error e :: outcomes)) = e :: reportedErrors (gather outcomes) := by
  rw [gather]
  cases gather outcomes <;> rfl

/-- How reading lines up to a fault or a line further left, and the gathered outcomes of reading all
lines, belong together. -/
def Agrees (x : Except SyntaxError (List Statement) × Cursor)
    (gathered : Except (List SyntaxError) (List Statement)) : Prop :=
  match x.1 with
  | .error e => ¬ e.fault.IsDedent ∧ ∃ es, gathered = .error (e :: es)
  | .ok ss =>
    if x.2.atEnd then gathered = .ok ss
    else ∃ es, gathered = .error (⟨.unexpectedIndent, x.2.position⟩ :: es)

theorem Agrees.cons {r : Except SyntaxError (List Statement)}
    {gathered : Except (List SyntaxError) (List Statement)} (h : Agrees (r, c) gathered)
    (s : Statement) : Agrees (r.map (s :: ·), c) (gathered.map (s :: ·)) := by
  cases r with
  | error e =>
    obtain ⟨he, es, rfl⟩ := h
    exact ⟨he, es, rfl⟩
  | ok ss =>
    dsimp only [Agrees, Except.map] at h ⊢
    by_cases hend : c.atEnd = true
    · rw [if_pos hend] at h ⊢
      rw [h]
    · rw [if_neg hend] at h ⊢
      obtain ⟨es, rfl⟩ := h
      exact ⟨es, rfl⟩

theorem linesAt_agrees (column : Nat) {m n : Nat} (hm : c.size < m) (hn : c.size < n) :
    ∃ x, linesAt (statement m) column n c = some x ∧
      Agrees x (gather (c.topLevelStatements column).1) := by
  -- The induction follows the lines that are read, while the bound on statements stays as it is.
  induction n generalizing c with
  | zero => omega
  | succ n ih =>
    have hread : (Action.read (·.fit column) : Parser Fit) c = some (.ok (c.fit column), c) := rfl
    cases hend : c.atEnd with
    | true =>
      refine ⟨(.ok [], c), ?_, ?_⟩
      · rw [linesAt, bind_eq_ok hread, fit_of_atEnd hend]
        rfl
      · rw [topLevelStatements_atEnd hend]
        simp [Agrees, hend, gather]
    | false =>
      have htop : Parser.topLevelStatement column (c.size + 1) c =
          some (c.topLevelStatement column) := topLevelStatement_eq_some
      by_cases hfit : c.fit column = .within
      · rw [topLevelStatement_within hend hfit,
          statement_bound (Nat.lt_succ_self c.size) hm] at htop
        generalize hx : c.topLevelStatement column = x at htop
        obtain ⟨r, c'⟩ := x
        cases r with
        | error e =>
          have houtcomes := topLevelStatements_error hend hx
          refine ⟨(.error e, c'), ?_, ?_⟩
          · rw [linesAt, bind_eq_ok hread, hfit]
            exact bind_eq_error htop
          · have he : ¬ e.fault.IsDedent :=
              (gives_statement (V := .any) m).error
                (fun _ _ => ⟨fun _ => trivial, fun _ _ _ => trivial⟩) htop
            rw [houtcomes]
            exact ⟨he, gather_error e _⟩
        | ok s =>
          have hlt := size_topLevelStatement_lt hx
          obtain ⟨⟨r, c₂⟩, hlines, hagrees⟩ := ih (c := c') (by omega) (by omega)
          refine ⟨(r.map (s :: ·), c₂), ?_, ?_⟩
          · rw [linesAt, bind_eq_ok hread, hfit]
            dsimp only
            rw [bind_eq_ok htop]
            cases r with
            | error e => exact bind_eq_error hlines
            | ok ss => exact bind_eq_ok hlines
          · rw [topLevelStatements_ok hend hx]
            exact hagrees.cons s
      · rw [topLevelStatement_outside hend hfit, Option.some.injEq] at htop
        rw [topLevelStatements_error hend htop.symm]
        obtain ⟨es, hes⟩ := gather_error ⟨.unexpectedIndent, c.position⟩
          ((c.resume column).topLevelStatements column).1
        rw [hes]
        cases hcase : c.fit column with
        | within => exact absurd hcase hfit
        | behind =>
          refine ⟨(.ok [], c), ?_, ?_⟩
          · rw [linesAt, bind_eq_ok hread, hcase]
            rfl
          · simp [Agrees, hend]
        | deeper =>
          refine ⟨(.error ⟨.unexpectedIndent, c.position⟩, c), ?_, fun h => h, es, rfl⟩
          rw [linesAt, bind_eq_ok hread, hcase]
          rfl

theorem program_agrees (c : Cursor) :
    match c.program.1 with
    | .ok root => c.recovering.1 = .ok root
    | .error e => ∃ es, c.recovering.1 = .error (e.recovered :: es) := by
  have hsize := Nat.lt_succ_self c.size
  obtain ⟨⟨r, c'⟩, hlines, hagrees⟩ :=
    linesAt_agrees c.position.column hsize hsize
  have hprogram := c.program_eq_some
  have hrecovering : c.recovering.1 =
      (gather (c.topLevelStatements c.position.column).1).map .block := rfl
  rw [hrecovering]
  rw [Parser.program, bind_eq_ok (read_apply _ _)] at hprogram
  cases r with
  | error e =>
    obtain ⟨hfault, es, hes⟩ := hagrees
    rw [bind_eq_error hlines, Option.some.injEq] at hprogram
    rw [← hprogram, hes]
    exact ⟨es, by rw [recovered_eq_self hfault]; rfl⟩
  | ok ss =>
    rw [bind_eq_ok hlines, bind_eq_ok (read_apply _ _)] at hprogram
    dsimp only [Agrees] at hagrees
    cases hend : c'.atEnd with
    | true =>
      rw [hend, if_pos rfl, pure_apply, Option.some.injEq] at hprogram
      rw [if_pos hend] at hagrees
      rw [← hprogram, hagrees]
      rfl
    | false =>
      have hfail : (unexpected .topLevelStatement : Parser Statement) c' =
          some (.error ⟨.unexpectedToken .topLevelStatement c'.found, c'.position⟩, c') := rfl
      rw [hend, if_neg (by simp), hfail, Option.some.injEq] at hprogram
      rw [if_neg (by simp [hend])] at hagrees
      obtain ⟨es, hes⟩ := hagrees
      rw [← hprogram, hes]
      exact ⟨es, rfl⟩

end Grammar.Cursor

namespace Statement

/-- Reading a program with recovery gives the trees that reading it strictly gives, and reports the
strict error first. -/
theorem ofTokensRecovering_agrees (ts : List Token) :
    (∀ root, ofTokens ts = .ok root ↔ ofTokensRecovering ts = .ok root) ∧
      ∀ e, ofTokens ts = .error e → ∃ es, ofTokensRecovering ts = .error (e.recovered :: es) := by
  have h := (Grammar.Cursor.ofTokens ts).program_agrees
  unfold ofTokens ofTokensRecovering
  generalize (Grammar.Cursor.ofTokens ts).program.1 = r at h
  cases r with
  | ok root =>
    dsimp only at h
    rw [h]
    refine ⟨fun other => ?_, fun e he => nomatch he⟩
    rw [Except.ok.injEq, Except.ok.injEq]
  | error e =>
    obtain ⟨es, hes⟩ := h
    rw [hes]
    constructor
    · intro root
      exact ⟨fun h => (nomatch h), fun h => (nomatch h)⟩
    · intro e' he
      cases he
      exact ⟨es, rfl⟩

def steppedNames : List Token :=
  [⟨.identifier, "x", ⟨2, 3, 1, 2, 1⟩⟩, ⟨.identifier, "y", ⟨4, 5, 2, 0, 2⟩⟩]

theorem ofTokensRecovering_agrees_steppedNames :
    ofTokens steppedNames =
        .error ⟨.unexpectedToken .topLevelStatement (.token .identifier "y"), ⟨2, 0⟩⟩ ∧
      ∃ es, ofTokensRecovering steppedNames = .error (⟨.unexpectedIndent, ⟨2, 0⟩⟩ :: es) := by
  have h : ofTokens steppedNames =
      .error ⟨.unexpectedToken .topLevelStatement (.token .identifier "y"), ⟨2, 0⟩⟩ := by rfl
  exact ⟨h, (ofTokensRecovering_agrees steppedNames).2 _ h⟩

end Statement

end IntScript
