import IntScript.Grammar.Program

/-!
# Reading by index

A reader has all tokens in one list, an end mark as the last of them, and the index of the next one. Every
look at a token goes through an index, and where the list has no token there is no answer. The index goes
up by one at a time and stands still at an end mark. The reader also remembers where the statement began
that it is reading, since only there an operand may begin a line. What reading does not need are the
indices of before. They are kept so that something can be said of all of them.
-/

namespace IntScript.Grammar

/-- Tokens, the index of the next one, that of the first one of the statement being read, and all indices
that the reader has had, up to the present one. -/
structure Reader where
  tokens : List Token
  current : Nat
  start : Nat
  path : List Nat

namespace Reader

/-- The end mark behind a token, or where there is none. The sum for its column is taken not to overflow. -/
def endMark : Option Token → Token
  | none => ⟨.eof, "", ⟨0, 0, 0, 0, 0⟩⟩
  | some t =>
    ⟨.eof, "", ⟨t.span.stop, t.span.stop, t.span.endLine, t.span.column + t.lexeme.length, t.span.endLine⟩⟩

def closed (ts : List Token) : List Token :=
  if ts.getLast?.any (·.kind = .eof) then ts else ts ++ [endMark ts.getLast?]

def ofTokens (ts : List Token) : Reader := ⟨closed ts, 0, 0, [0]⟩

def moveTo (s : Reader) (i : Nat) : Reader := { s with current := i, path := s.path ++ [i] }

end Reader

abbrev Reading := Action Reader SyntaxError

namespace Reading

variable {α : Type}

section Looks

def token (index : Reader → Nat) : Reading Token := fun s =>
  match s.tokens[index s]? with
  | none => none
  | some t => some (.ok t, s)

def peek : Reading Token := token (·.current)

def peekNext : Reading Token := token fun s => min (s.current + 1) (s.tokens.length - 1)

def previous : Reading Token := token (·.current - 1)

def check (kind : TokenKind) : Reading Bool := return (← peek).kind = kind

def atEnd : Reading Bool := check .eof

def column : Reading Nat := return (← peek).span.column

def startsLine : Reading Bool := do
  if ← Action.read fun s => decide (s.current = 0) then return true
  else return (← previous).span.endLine < (← peek).span.line

def endsStatement : Reading Bool := do
  if ← atEnd then return true else startsLine

def assignmentAhead : Reading Bool := do
  let next ← peekNext
  return next.kind = .assign && next.span.line = (← peek).span.endLine

def fit (column : Nat) : Reading Cursor.Fit := do
  if ← atEnd then return .behind
  else if ← startsLine then
    let t ← peek
    return if t.span.column < column then .behind
      else if column < t.span.column then .deeper
      else .within
  else return .within

end Looks

section Steps

def advance : Reading Token := do
  let t ← peek
  if ← atEnd then return t
  else
    let _ ← Action.modify fun s => s.moveTo (s.current + 1)
    return t

def found (t : Token) : Found :=
  if t.kind = .eof then .endOfFile else .token t.kind t.lexeme

def failHere (fault : Fault) : Reading α := do
  Action.fail ⟨fault, (← peek).position⟩

def unexpected (expected : Expectation) : Reading α := do
  let t ← peek
  Action.fail ⟨.unexpectedToken expected (found t), t.position⟩

def takeMap (f : Token → Option α) : Reading (Option α) := do
  match f (← peek) with
  | none => return none
  | some a =>
    let _ ← advance
    return some a

def takeKind (kind : TokenKind) : Reading (Option Token) :=
  takeMap fun t => if t.kind = kind then some t else none

def accept (kind : TokenKind) : Reading Bool := return (← takeKind kind).isSome

def takeOnLine? (kind : TokenKind) : Reading (Option Token) := do
  if ← startsLine then return none else takeKind kind

def expect (kind : TokenKind) (expected : Expectation) : Reading Token := do
  match ← takeOnLine? kind with
  | some t => return t
  | none => unexpected expected

def takeTarget : Reading (Option String) := do
  if ← check .identifier then
    if ← assignmentAhead then
      let name ← advance
      let _ ← advance
      return some name.lexeme
    else return none
  else return none

def takeOperator? (level : TokenKind → Option BinaryOperator) : Reading (Option BinaryOperator) := do
  if ← startsLine then return none else takeMap fun t => level t.kind

def straysFrom (column : Nat) : Reading Bool := do
  if ← startsLine then return (← Reading.column) ≠ column else return false

def takeElse? (column : Nat) : Reading (Option Token) := do
  if ← straysFrom column then return none else takeKind .elseKeyword

end Steps

section Expressions

def leavesLine : Reading Bool := do
  if ← Action.read fun s => decide (s.current = s.start) then return false else startsLine

def operandOnLine (operand : Reading α) : Reading α := do
  if ← leavesLine then unexpected .expression else operand

def commaSeparated (item : Reading α) : Nat → Reading (List α)
  | 0 => Action.stuck
  | n + 1 => do
    let a ← item
    if ← accept .comma then return a :: (← commaSeparated item n) else return [a]

def untilParen (items : Reading (List α)) (expected : Expectation) : Reading (List α) := do
  let taken ← (do if ← check .rparen then return [] else items)
  let _ ← expect .rparen expected
  return taken

def integerValue (t : Token) : Reading Expression :=
  match Word.ofDecimal? t.lexeme.toList with
  | some value => return .integer value
  | none => Action.fail ⟨.invalidIntegerLiteral t.lexeme, t.position⟩

def variableOrCall (nested : Reading Expression) (name : String) (n : Nat) : Reading Expression := do
  match ← takeOnLine? .lparen with
  | none => return .var name
  | some _ => return .call name (← untilParen (commaSeparated nested n) .parenAfterArguments)

def primary (nested : Reading Expression) (n : Nat) : Reading Expression := do
  match ← takeMap fun t => if beginsOperand t.kind then some t else none with
  | none => unexpected .expression
  | some t =>
    match t.kind with
    | .integer => integerValue t
    | .string => return .text t.lexeme
    | .identifier => variableOrCall nested t.lexeme n
    | _ =>
      let e ← nested
      let _ ← expect .rparen .parenAfterExpression
      return e

def signed (nested : Reading Expression) : Nat → Reading Expression
  | 0 => Action.stuck
  | n + 1 => do
    if ← accept .minus then return .negate (← operandOnLine (signed nested n))
    else primary nested (n + 1)

def chainFrom (level : TokenKind → Option BinaryOperator) (operand : Reading Expression) :
    Nat → Expression → Reading Expression
  | 0, _ => Action.stuck
  | n + 1, left => do
    match ← takeOperator? level with
    | none => return left
    | some op => chainFrom level operand n (.binary op left (← operand))

def chain (level : TokenKind → Option BinaryOperator) (operand : Reading Expression) (n : Nat) :
    Reading Expression := do
  chainFrom level operand n (← operand)

def comparison (operand : Reading Expression) (n : Nat) : Reading Expression :=
  chain comparisonOperator? (chain sumOperator? (chain productOperator? operand n) n) n

def bareExpression : Nat → Reading Expression
  | 0 => Action.stuck
  | n + 1 => do
    let nested := operandOnLine (bareExpression n)
    match ← takeTarget with
    | some name => return .assign name (← nested)
    | none => comparison (operandOnLine (signed nested (n + 1))) (n + 1)

def expression (n : Nat) : Reading Expression := operandOnLine (bareExpression n)

end Expressions

section Statements

def unlessEnd (items : Reading α) : Reading (Option α) := do
  if ← endsStatement then return none else return some (← items)

def printStatement (n : Nat) : Reading Statement := do
  return .print ((← unlessEnd (commaSeparated (expression n) n)).getD [])

def returnStatement (n : Nat) : Reading Statement := do
  return .giveBack (← unlessEnd (expression n))

def linesAt (statement : Reading Statement) (column : Nat) : Nat → Reading (List Statement)
  | 0 => Action.stuck
  | n + 1 => do
    match ← fit column with
    | .behind => return []
    | .deeper => failHere .unexpectedIndent
    | .within =>
      let s ← statement
      return s :: (← linesAt statement column n)

def lacksBlock (header : Nat) : Reading Bool := do
  if ← atEnd then return true else return (← column) ≤ header

def indentedBlock (statement : Reading Statement) (construct : Construct) (header n : Nat) :
    Reading Statement := do
  if ← lacksBlock header then failHere (.expectedIndentedBlock construct)
  else return .block (← linesAt statement (← column) n)

def body (statement : Reading Statement) (construct : Construct) (header n : Nat) :
    Reading Statement := do
  let _ ← takeOnLine? .colon
  if ← endsStatement then indentedBlock statement construct header n else statement

def ifStatement (statement : Reading Statement) (header n : Nat) : Reading Statement := do
  let condition ← expression n
  let thenBranch ← body statement .ifBranch header n
  match ← takeElse? header with
  | none => return .ifElse condition thenBranch none
  | some t => return .ifElse condition thenBranch (← body statement .elseBranch t.span.column n)

def parameters (function : String) : Nat → List String → Reading (List String)
  | 0, _ => Action.stuck
  | n + 1, seen => do
    let t ← expect .identifier .parameterName
    if seen.contains t.lexeme then Action.fail ⟨.duplicateParameter t.lexeme function, t.position⟩
    else if ← accept .comma then return t.lexeme :: (← parameters function n (t.lexeme :: seen))
    else return [t.lexeme]

def defStatement (statement : Reading Statement) (header n : Nat) : Reading Statement := do
  let name ← expect .identifier .functionName
  let _ ← expect .lparen .parenAfterName
  let names ← untilParen (parameters name.lexeme n []) .parenAfterParameters
  return .define name.lexeme names (← body statement (.function name.lexeme) header n)

def plainStatement (n : Nat) : Reading Statement := do
  match ← takeTarget with
  | some name => return .assign name (← expression n)
  | none => return .expression (← expression n)

def openStatement (statement : Reading Statement) (n : Nat) : Reading Statement := do
  match ← takeMap fun t => if beginsStatement t.kind then some t else none with
  | none => plainStatement n
  | some t =>
    match t.kind with
    | .print => printStatement n
    | .ifKeyword => ifStatement statement t.span.column n
    | .defKeyword => defStatement statement t.span.column n
    | _ => returnStatement n

def mayEnd : Reading Bool := do
  if ← endsStatement then return true else check .elseKeyword

def endOfStatement : Reading Unit := do
  if ← mayEnd then return () else unexpected .endOfLine

def statement : Nat → Reading Statement
  | 0 => Action.stuck
  | n + 1 => do
    let _ ← Action.modify fun s => { s with start := s.current }
    let s ← openStatement (statement n) (n + 1)
    let _ ← endOfStatement
    return s

end Statements

section Programs

def program (n : Nat) : Reading Statement := do
  let statements ← linesAt (statement n) (← column) n
  if ← atEnd then return .block statements else unexpected .topLevelStatement

def topLevelStatement (column n : Nat) : Reading Statement := do
  if ← straysFrom column then failHere .unexpectedIndent else statement n

def attempt (p : Reading α) : Reading (Except SyntaxError α) := fun s =>
  (p s).map fun (r, s') => (.ok r, s')

def skip : Nat → Reading Unit
  | 0 => Action.stuck
  | n + 1 => do
    if ← endsStatement then return ()
    else if beginsStatement (← peek).kind then return ()
    else
      let _ ← advance
      skip n

def synchronize (n : Nat) : Reading Unit := do
  let _ ← advance
  skip n

def resumes (column : Nat) : Reading Bool := do
  if ← atEnd then return true
  else if ← startsLine then return (← Reading.column) ≤ column
  else return false

def seekLine (column : Nat) : Nat → Reading Unit
  | 0 => Action.stuck
  | n + 1 => do
    if ← resumes column then return ()
    else
      let _ ← synchronize n
      seekLine column n

def resume (column n : Nat) : Reading Unit := do
  let _ ← synchronize n
  seekLine column n

def outcomes (column : Nat) : Nat → Reading (List (Except SyntaxError Statement))
  | 0 => Action.stuck
  | n + 1 => do
    if ← atEnd then return []
    else
      match ← attempt (topLevelStatement column (n + 1)) with
      | .ok s => return .ok s :: (← outcomes column n)
      | .error e =>
        let _ ← resume column (n + 1)
        return .error e :: (← outcomes column n)

def recovering (n : Nat) : Reading (Except (List SyntaxError) Statement) := do
  let found ← outcomes (← column) n
  return (Cursor.gather found).map .block

end Programs

end Reading

end IntScript.Grammar
