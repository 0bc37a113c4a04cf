import IntScript.Grammar.Program

/-!
# Reading with notes

The parsers of statements once more, noting where each statement begins and where an `if` takes its `else`.
Apart from the notes they read what the others read (`value_notedProgram`).
-/

namespace IntScript.Grammar

/-- A place in a list of tokens, given by the tokens from there on. -/
inductive Mark where
  /-- A statement begins. -/
  | statement (ahead : List Token)
  /-- An `if` takes its `else`. -/
  | elseBranch (ahead : List Token)

structure Noted (α : Type) where
  value : α
  marks : List Mark

namespace Parser

open IntScript.Action

def notedLines (statement : Parser (Noted Statement)) (column : Nat) :
    Nat → Parser (Noted (List Statement))
  | 0 => Action.stuck
  | n + 1 => do
    match ← Action.read (·.fit column) with
    | .behind => return ⟨[], []⟩
    | .deeper => failHere .unexpectedIndent
    | .within =>
      let s ← statement
      let ss ← notedLines statement column n
      return ⟨s.value :: ss.value, s.marks ++ ss.marks⟩

def notedBlock (statement : Parser (Noted Statement)) (construct : Construct) (header n : Nat) :
    Parser (Noted Statement) := do
  if ← Action.read fun c => c.atEnd || c.position.column ≤ header then
    failHere (.expectedIndentedBlock construct)
  else
    let ss ← notedLines statement (← Action.read (·.position.column)) n
    return ⟨.block ss.value, ss.marks⟩

def notedBody (statement : Parser (Noted Statement)) (construct : Construct) (header n : Nat) :
    Parser (Noted Statement) := do
  let _ ← takeOnLine? .colon
  if ← Action.read Cursor.endsStatement then notedBlock statement construct header n
  else statement

def notedIf (statement : Parser (Noted Statement)) (header n : Nat) : Parser (Noted Statement) := do
  let condition ← expression n
  let thenBranch ← notedBody statement .ifBranch header n
  let place ← Action.read (·.ahead)
  match ← takeElse? header with
  | none => return ⟨.ifElse condition thenBranch.value none, thenBranch.marks⟩
  | some t =>
    let elseBranch ← notedBody statement .elseBranch t.span.column n
    return ⟨.ifElse condition thenBranch.value elseBranch.value,
      thenBranch.marks ++ .elseBranch place :: elseBranch.marks⟩

def notedDef (statement : Parser (Noted Statement)) (header n : Nat) : Parser (Noted Statement) := do
  let name ← expect .identifier .functionName
  let _ ← expect .lparen .parenAfterName
  let names ← untilParen (parameters name.lexeme n []) .parenAfterParameters
  let body ← notedBody statement (.function name.lexeme) header n
  return ⟨.define name.lexeme names body.value, body.marks⟩

def notedOpen (statement : Parser (Noted Statement)) (n : Nat) : Parser (Noted Statement) := do
  match ← take? fun _ t => if beginsStatement t.kind then some t else none with
  | none => return ⟨← plainStatement n, []⟩
  | some t =>
    match t.kind with
    | .print => return ⟨← printStatement n, []⟩
    | .ifKeyword => notedIf statement t.span.column n
    | .defKeyword => notedDef statement t.span.column n
    | _ => return ⟨← returnStatement n, []⟩

def notedStatement : Nat → Parser (Noted Statement)
  | 0 => Action.stuck
  | n + 1 => do
    let place ← Action.read (·.ahead)
    let s ← notedOpen (notedStatement n) (n + 1)
    let _ ← endOfStatement
    return ⟨s.value, .statement place :: s.marks⟩

def notedProgram (n : Nat) : Parser (Noted Statement) := do
  let ss ← notedLines (notedStatement n) (← Action.read (·.position.column)) n
  if ← Action.read Cursor.atEnd then return ⟨.block ss.value, ss.marks⟩
  else unexpected .topLevelStatement

section Values

variable {α β : Type} {p : Parser (Noted Statement)}

theorem read_bind_eq {f : Cursor → α} {F : α → Parser β} {q : Parser β} (h : ∀ a, F a = q) :
    Action.read f >>= F = q := by
  funext c
  rw [bind_eq_ok (read_apply _ _), h]

theorem value_notedLines (column n : Nat) :
    Noted.value <$> notedLines p column n = linesAt (Noted.value <$> p) column n := by
  induction n with
  | zero => rfl
  | succ n ih =>
    simp only [notedLines, linesAt, map_bind, ← ih, bind_map_left]
    apply bind_congr
    intro fit
    cases fit with
    | within => simp only [map_bind, map_pure]
    | behind => rfl
    | deeper => rfl

theorem value_notedBlock (construct : Construct) (header n : Nat) :
    Noted.value <$> notedBlock p construct header n =
      indentedBlock (Noted.value <$> p) construct header n := by
  simp only [notedBlock, indentedBlock, ← value_notedLines, map_bind]
  apply bind_congr
  intro b
  cases b with
  | false => simp only [map_bind, map_pure, bind_map_left, Bool.false_eq_true, if_false]
  | true => rfl

theorem value_notedBody (construct : Construct) (header n : Nat) :
    Noted.value <$> notedBody p construct header n =
      body (Noted.value <$> p) construct header n := by
  simp only [notedBody, body, ← value_notedBlock, map_bind]
  refine bind_congr fun _ => bind_congr fun b => ?_
  cases b <;> rfl

theorem value_notedIf (header n : Nat) :
    Noted.value <$> notedIf p header n = ifStatement (Noted.value <$> p) header n := by
  simp only [notedIf, ifStatement, ← value_notedBody, map_bind, bind_map_left]
  refine bind_congr fun condition => bind_congr fun thenBranch => read_bind_eq fun place => ?_
  apply bind_congr
  intro o
  cases o with
  | none => rfl
  | some t => simp only [map_bind, map_pure]

theorem value_notedDef (header n : Nat) :
    Noted.value <$> notedDef p header n = defStatement (Noted.value <$> p) header n := by
  simp only [notedDef, defStatement, ← value_notedBody, map_bind, map_pure, bind_map_left]

theorem value_notedOpen (n : Nat) :
    Noted.value <$> notedOpen p n = openStatement (Noted.value <$> p) n := by
  simp only [notedOpen, openStatement, ← value_notedIf, ← value_notedDef, map_bind]
  apply bind_congr
  intro o
  cases o with
  | none => simp only [map_bind, map_pure, bind_pure]
  | some t =>
    dsimp only
    generalize t.kind = kind
    cases kind with
    | ifKeyword => rfl
    | defKeyword => rfl
    | _ => simp only [map_bind, map_pure, bind_pure]

theorem value_notedStatement (n : Nat) : Noted.value <$> notedStatement n = statement n := by
  induction n with
  | zero => rfl
  | succ n ih =>
    simp only [notedStatement, statement, ← ih, ← value_notedOpen, map_bind, map_pure, bind_map_left]
    exact read_bind_eq fun _ => rfl

theorem value_notedProgram (n : Nat) : Noted.value <$> notedProgram n = program n := by
  simp only [notedProgram, program, ← value_notedStatement, ← value_notedLines, map_bind,
    bind_map_left]
  refine bind_congr fun column => bind_congr fun ss => bind_congr fun b => ?_
  cases b <;> rfl

end Values

end Parser

end IntScript.Grammar
