import IntScript.Token

/-!
What can be wrong with the form of a program, where, and how that is worded. Every error points at a token.
-/

namespace IntScript

/-- A line (from 1) and a column (in characters, from 0). -/
structure Position where
  line : Nat
  column : Nat
deriving DecidableEq

def Token.position (t : Token) : Position := ⟨t.span.line, t.span.column⟩

namespace Grammar

inductive Expectation where
  | topLevelStatement
  | endOfLine
  | functionName
  | parenAfterName
  | parameterName
  | parenAfterParameters
  | parenAfterExpression
  | parenAfterArguments
  | expression
deriving DecidableEq

def Expectation.describe : Expectation → String
  | topLevelStatement => "statement at the top-level indentation"
  | endOfLine => "end of line"
  | functionName => "function name"
  | parenAfterName => "'(' after function name"
  | parameterName => "parameter name"
  | parenAfterParameters => "')' after parameters"
  | parenAfterExpression => "')' after expression"
  | parenAfterArguments => "')' after arguments"
  | expression => "expression"

inductive Found where
  | endOfFile
  | token (kind : TokenKind) (lexeme : String)
deriving DecidableEq

def Found.describe : Found → String
  | endOfFile => TokenKind.eof.describe
  | token kind lexeme => kind.describe ++ " '" ++ lexeme ++ "'"

inductive Construct where
  | ifBranch
  | elseBranch
  | function (name : String)
deriving DecidableEq

def Construct.describe : Construct → String
  | ifBranch => "'if'"
  | elseBranch => "'else'"
  | function name => "function '" ++ name ++ "'"

inductive Fault where
  | unexpectedToken (expected : Expectation) (found : Found)
  | invalidIntegerLiteral (literal : String)
  | expectedIndentedBlock (construct : Construct)
  | unexpectedIndent
  | duplicateParameter (name function : String)
deriving DecidableEq

def Fault.describe : Fault → String
  | unexpectedToken expected found => "Expected " ++ expected.describe ++ ", found " ++ found.describe
  | invalidIntegerLiteral literal => "Invalid integer literal '" ++ literal ++ "'"
  | expectedIndentedBlock construct => "Expected an indented block after " ++ construct.describe
  | unexpectedIndent => "Unexpected indent"
  | duplicateParameter name function =>
    "Duplicate parameter '" ++ name ++ "' in function '" ++ function ++ "'"

end Grammar

structure SyntaxError where
  fault : Grammar.Fault
  position : Position
deriving DecidableEq

def SyntaxError.message (e : SyntaxError) : String :=
  e.fault.describe ++ s!" at line {e.position.line}, column {e.position.column}"

end IntScript
