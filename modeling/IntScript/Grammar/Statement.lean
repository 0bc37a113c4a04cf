import IntScript.Grammar.Expression

/-!
Statements as tokens write them. A statement owns its line, or the rest of it; only an `else` may follow,
for the `if` whose body it ends. The body of an `if`, an `else` or a `def` is one statement on the line of
its header, or a block of lines that all begin at one column, further right than the header. An `else` on
a line of its own belongs to the `if` in its column.
-/

namespace IntScript.Grammar

def beginsStatement : TokenKind → Bool
  | .print | .ifKeyword | .defKeyword | .returnKeyword => true
  | _ => false

namespace Parser

variable {α : Type}

def unlessEnd (items : Parser α) : Parser (Option α) := do
  if ← Action.read Cursor.endsStatement then return none else return some (← items)

def printStatement (n : Nat) : Parser Statement := do
  return .print ((← unlessEnd (commaSeparated (expression n) n)).getD [])

def returnStatement (n : Nat) : Parser Statement := do
  return .giveBack (← unlessEnd (expression n))

def linesAt (statement : Parser Statement) (column : Nat) : Nat → Parser (List Statement)
  | 0 => Action.stuck
  | n + 1 => do
    match ← Action.read (·.fit column) with
    | .behind => return []
    | .deeper => failHere .unexpectedIndent
    | .within =>
      let s ← statement
      return s :: (← linesAt statement column n)

def indentedBlock (statement : Parser Statement) (construct : Construct) (header n : Nat) :
    Parser Statement := do
  if ← Action.read fun c => c.atEnd || c.position.column ≤ header then
    failHere (.expectedIndentedBlock construct)
  else
    return .block (← linesAt statement (← Action.read (·.position.column)) n)

/-- A statement on the header's line, after a colon or without one, or an indented block. -/
def body (statement : Parser Statement) (construct : Construct) (header n : Nat) :
    Parser Statement := do
  let _ ← takeOnLine? .colon
  if ← Action.read Cursor.endsStatement then indentedBlock statement construct header n
  else statement

def takeElse? (column : Nat) : Parser (Option Token) :=
  take? fun c t =>
    if t.kind = .elseKeyword ∧ (c.startsLine = false ∨ t.span.column = column) then some t else none

def ifStatement (statement : Parser Statement) (header n : Nat) : Parser Statement := do
  let condition ← expression n
  let thenBranch ← body statement .ifBranch header n
  match ← takeElse? header with
  | none => return .ifElse condition thenBranch none
  | some t => return .ifElse condition thenBranch (← body statement .elseBranch t.span.column n)

def parameters (function : String) : Nat → List String → Parser (List String)
  | 0, _ => Action.stuck
  | n + 1, seen => do
    let t ← expect .identifier .parameterName
    if seen.contains t.lexeme then Action.fail ⟨.duplicateParameter t.lexeme function, t.position⟩
    else if ← accept .comma then return t.lexeme :: (← parameters function n (t.lexeme :: seen))
    else return [t.lexeme]

def defStatement (statement : Parser Statement) (header n : Nat) : Parser Statement := do
  let name ← expect .identifier .functionName
  let _ ← expect .lparen .parenAfterName
  let names ← untilParen (parameters name.lexeme n []) .parenAfterParameters
  return .define name.lexeme names (← body statement (.function name.lexeme) header n)

def plainStatement (n : Nat) : Parser Statement := do
  match ← takeTarget with
  | some name => return .assign name (← expression n)
  | none => return .expression (← expressionHere n)

def openStatement (statement : Parser Statement) (n : Nat) : Parser Statement := do
  match ← take? fun _ t => if beginsStatement t.kind then some t else none with
  | none => plainStatement n
  | some t =>
    match t.kind with
    | .print => printStatement n
    | .ifKeyword => ifStatement statement t.span.column n
    | .defKeyword => defStatement statement t.span.column n
    | _ => returnStatement n

def endOfStatement : Parser Unit := do
  if ← Action.read fun c => c.endsStatement || c.nextIs .elseKeyword then return ()
  else unexpected .endOfLine

def statement : Nat → Parser Statement
  | 0 => Action.stuck
  | n + 1 => do
    let s ← openStatement (statement n) (n + 1)
    let _ ← endOfStatement
    return s

theorem advances_unlessEnd {m : Nat} {items : Parser α} (h : Advances m items fun _ => 0) :
    Advances m (unlessEnd items) fun _ => 0 :=
  (advances_read m _).bind_same fun b => by
    cases b
    · exact h.bind_same fun _ => advances_pure rfl
    · exact advances_pure rfl

theorem advances_printStatement {m n : Nat} (hn : m < n) :
    Advances m (printStatement n) fun _ => 0 :=
  (advances_unlessEnd ((advances_commaSeparated hn (advances_expression hn)).mono (Nat.le_refl _)
    fun _ => Nat.zero_le _)).bind_same fun _ => advances_pure rfl

theorem advances_returnStatement {m n : Nat} (hn : m < n) :
    Advances m (returnStatement n) fun _ => 0 :=
  (advances_unlessEnd ((advances_expression hn).mono (Nat.le_refl _)
    fun _ => Nat.zero_le _)).bind_same fun _ => advances_pure rfl

theorem advances_linesAt {p : Parser Statement} {column m n : Nat} (hn : m < n)
    (hp : Advances m p fun _ => 1) : Advances m (linesAt p column n) fun _ => 0 := by
  induction n generalizing m with
  | zero => omega
  | succ n ih =>
    refine (advances_read m _).bind_same fun fit => ?_
    cases fit with
    | behind => exact advances_pure rfl
    | deeper => exact advances_failHere _ _ _
    | within =>
      exact hp.bind fun _ _ =>
        (ih (by omega) (hp.mono (by omega) fun _ => Nat.le_refl _)).bind fun _ _ =>
          advances_pure (by simp)

theorem advances_indentedBlock {p : Parser Statement} {construct : Construct} {header m n : Nat}
    (hn : m < n) (hp : Advances m p fun _ => 1) :
    Advances m (indentedBlock p construct header n) fun _ => 0 :=
  (advances_read m _).bind_same fun b => by
    cases b
    · exact (advances_read m _).bind_same fun _ =>
        (advances_linesAt hn hp).bind_same fun _ => advances_pure rfl
    · exact advances_failHere _ _ _

theorem advances_body {p : Parser Statement} {construct : Construct} {header m n : Nat}
    (hn : m < n) (hp : Advances m p fun _ => 1) :
    Advances m (body p construct header n) fun _ => 0 :=
  ((advances_takeOnLine? m _).mono (Nat.le_refl _) fun _ => Nat.zero_le _).bind_same fun _ =>
    (advances_read m _).bind_same fun b => by
      cases b
      · exact hp.mono (Nat.le_refl _) fun _ => Nat.zero_le _
      · exact advances_indentedBlock hn hp

theorem advances_ifStatement {p : Parser Statement} {header m n : Nat}
    (hn : m < n) (hp : Advances m p fun _ => 1) :
    Advances m (ifStatement p header n) fun _ => 0 :=
  ((advances_expression hn).mono (Nat.le_refl _) fun _ => Nat.zero_le _).bind_same fun _ =>
    (advances_body hn hp).bind_same fun _ =>
      ((advances_take? m _).mono (Nat.le_refl _) fun _ => Nat.zero_le _).bind_same fun
        | none => advances_pure rfl
        | some _ => (advances_body hn hp).bind_same fun _ => advances_pure rfl

theorem advances_parameters {function : String} {seen : List String} {m n : Nat} (hn : m < n) :
    Advances m (parameters function n seen) fun _ => 0 := by
  induction n generalizing m seen with
  | zero => omega
  | succ n ih =>
    refine (advances_expect m _ _).bind fun t _ => ?_
    split
    · exact advances_fail _ _ _
    · refine ((advances_accept _ _).mono (Nat.le_refl _) fun _ => Nat.zero_le _).bind_same fun b => ?_
      cases b
      · exact advances_pure rfl
      · exact (ih (by omega)).bind fun _ _ => advances_pure (by simp)

theorem advances_defStatement {p : Parser Statement} {header m n : Nat}
    (hn : m < n) (hp : Advances m p fun _ => 1) :
    Advances m (defStatement p header n) fun _ => 0 :=
  have weaken {α : Type} {q : Parser α} (h : Advances m q fun _ => 1) : Advances m q fun _ => 0 :=
    h.mono (Nat.le_refl _) fun _ => Nat.zero_le _
  (weaken (advances_expect m _ _)).bind_same fun _ =>
    (weaken (advances_expect m _ _)).bind_same fun _ =>
      (weaken (advances_untilParen (advances_parameters hn) _)).bind_same fun _ =>
        (advances_body hn hp).bind_same fun _ => advances_pure rfl

theorem advances_plainStatement {m n : Nat} (hn : m < n) :
    Advances m (plainStatement n) fun _ => 1 :=
  (advances_takeTarget m).bind fun
    | some _, hm => by
      simp only [Option.isSome_some, if_true] at hm ⊢
      exact (advances_expression (by omega)).bind fun _ _ => advances_pure (by simp)
    | none, _ => (advances_expressionHere hn).bind fun _ _ => advances_pure (by simp)

theorem advances_openStatement {p : Parser Statement} {m n : Nat} (hn : m < n)
    (hp : ∀ m' < m, Advances m' p fun _ => 1) : Advances m (openStatement p n) fun _ => 1 :=
  (advances_take? m _).bind fun
    | none, _ => advances_plainStatement hn
    | some t, hm => by
      simp only [Option.isSome_some, if_true] at hm ⊢
      have hlt : m - 1 < n := by omega
      have hp' := hp (m - 1) (by omega)
      split
      · exact advances_printStatement hlt
      · exact advances_ifStatement hlt hp'
      · exact advances_defStatement hlt hp'
      · exact advances_returnStatement hlt

theorem advances_endOfStatement (m : Nat) : Advances m endOfStatement fun _ => 0 :=
  (advances_read m _).bind_same fun b => by
    cases b
    · exact advances_unexpected _ _ _
    · exact advances_pure rfl

theorem advances_statement {m n : Nat} (hn : m < n) : Advances m (statement n) fun _ => 1 := by
  induction n generalizing m with
  | zero => omega
  | succ n ih =>
    exact (advances_openStatement hn fun m' h => ih (by omega)).bind fun _ _ =>
      (advances_endOfStatement _).bind_same fun _ => advances_pure rfl

end Parser

end IntScript.Grammar
