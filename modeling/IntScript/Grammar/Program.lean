import IntScript.Grammar.Statement

/-!
Programs as tokens write them: statements on lines that begin in the column of the first token. Reading
either stops at the first fault or, recovering, goes on behind each malformed statement and reports all of
them. Both say where they stopped, so that reading can go on from there, and both have an answer on every
list of tokens.
-/

namespace IntScript.Grammar

namespace Parser

def program (n : Nat) : Parser Statement := do
  let statements ← linesAt (statement n) (← Action.read (·.position.column)) n
  if ← Action.read Cursor.atEnd then return .block statements else unexpected .topLevelStatement

def topLevelStatement (column n : Nat) : Parser Statement := do
  if ← Action.read fun c => c.startsLine && c.position.column ≠ column then
    failHere .unexpectedIndent
  else statement n

theorem advances_program {m n : Nat} (hn : m < n) : Advances m (program n) fun _ => 0 :=
  (advances_read m _).bind_same fun _ =>
    (advances_linesAt hn (advances_statement hn)).bind_same fun _ =>
      (advances_read m _).bind_same fun b => by
        cases b
        · exact advances_unexpected _ _ _
        · exact advances_pure rfl

theorem advances_topLevelStatement (column : Nat) {m n : Nat} (hn : m < n) :
    Advances m (topLevelStatement column n) fun _ => 1 :=
  (advances_read m _).bind_same fun b => by
    cases b
    · exact advances_statement hn
    · exact advances_failHere _ _ _

theorem Advances.isSome {α : Type} {m : Nat} {p : Parser α} {k : α → Nat} (h : Advances m p k)
    {c : Cursor} (hc : c.size ≤ m) : (p c).isSome = true := by
  obtain ⟨r, c', hp, -⟩ := h c hc
  simp [hp]

end Parser

namespace Cursor

/-- Reads a program up to its first fault. The cursor is left where reading stopped. -/
def program (c : Cursor) : Except SyntaxError Statement × Cursor :=
  (Parser.program (c.size + 1) c).get
    ((Parser.advances_program (Nat.lt_succ_self _)).isSome (Nat.le_refl _))

def topLevelStatement (c : Cursor) (column : Nat) : Except SyntaxError Statement × Cursor :=
  (Parser.topLevelStatement column (c.size + 1) c).get
    ((Parser.advances_topLevelStatement column (Nat.lt_succ_self _)).isSome (Nat.le_refl _))

theorem program_eq_some (c : Cursor) : Parser.program (c.size + 1) c = some c.program := by
  simp [program]

theorem topLevelStatement_eq_some {c : Cursor} {column : Nat} :
    Parser.topLevelStatement column (c.size + 1) c = some (c.topLevelStatement column) := by
  simp [topLevelStatement]

theorem size_topLevelStatement_le (c : Cursor) (column : Nat) :
    (c.topLevelStatement column).2.size ≤ c.size := by
  obtain ⟨r, c', hp, hle, -⟩ := Parser.advances_topLevelStatement column
    (Nat.lt_succ_self c.size) c (Nat.le_refl _)
  rw [topLevelStatement_eq_some, Option.some.injEq] at hp
  simpa [hp] using hle

theorem size_topLevelStatement_lt {c c' : Cursor} {column : Nat} {s : Statement}
    (h : c.topLevelStatement column = (.ok s, c')) : c'.size < c.size := by
  obtain ⟨r, c'', hp, -, hok⟩ := Parser.advances_topLevelStatement column
    (Nat.lt_succ_self c.size) c (Nat.le_refl _)
  rw [topLevelStatement_eq_some, h, Option.some.injEq, Prod.mk.injEq] at hp
  obtain ⟨rfl, rfl⟩ := hp
  exact hok s rfl

/-- Reads the statements of a program whose lines begin at the column, each with its own outcome. Behind a
malformed one it drops a token and goes on at the next line that is not indented. -/
def topLevelStatements (c : Cursor) (column : Nat) :
    List (Except SyntaxError Statement) × Cursor :=
  if hend : c.atEnd then ([], c)
  else
    have hpos : c.size ≠ 0 := fun h => hend (c.atEnd_iff.2 h)
    match h : c.topLevelStatement column with
    | (.ok s, c') =>
      have := size_topLevelStatement_lt h
      let (outcomes, last) := c'.topLevelStatements column
      (.ok s :: outcomes, last)
    | (.error e, c') =>
      have hle : c'.size ≤ c.size := by simpa [h] using c.size_topLevelStatement_le column
      have hresume := c'.size_resume_le column
      let (outcomes, last) := (c'.resume column).topLevelStatements column
      (.error e :: outcomes, last)
termination_by c.size

def gather : List (Except SyntaxError Statement) → Except (List SyntaxError) (List Statement)
  | [] => .ok []
  | .ok s :: outcomes => (gather outcomes).map (s :: ·)
  | .error e :: outcomes =>
    match gather outcomes with
    | .ok _ => .error [e]
    | .error es => .error (e :: es)

def recovering (c : Cursor) : Except (List SyntaxError) Statement × Cursor :=
  let (outcomes, last) := c.topLevelStatements c.position.column
  ((gather outcomes).map .block, last)

end Cursor

end Grammar

namespace Statement

/-- The program that a list of tokens writes, or its first fault. -/
def ofTokens (ts : List Token) : Except SyntaxError Statement :=
  (Grammar.Cursor.ofTokens ts).program.1

def ofTokensRecovering (ts : List Token) : Except (List SyntaxError) Statement :=
  (Grammar.Cursor.ofTokens ts).recovering.1

end Statement

end IntScript
