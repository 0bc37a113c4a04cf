import IntScript.Word

/-!
Programs as trees: expressions, statements and functions.
-/

namespace IntScript

inductive BinaryOperator where
  | add | sub | mul | div
  | equal | notEqual | less | lessEqual | greater | greaterEqual
deriving DecidableEq

namespace BinaryOperator

def symbol : BinaryOperator → String
  | add => "+"
  | sub => "-"
  | mul => "*"
  | div => "/"
  | equal => "=="
  | notEqual => "!="
  | less => "<"
  | lessEqual => "<="
  | greater => ">"
  | greaterEqual => ">="

def all : List BinaryOperator :=
  [add, sub, mul, div, equal, notEqual, less, lessEqual, greater, greaterEqual]

theorem mem_all (op : BinaryOperator) : op ∈ all := by
  cases op <;> decide

def ofSymbol? (s : String) : Option BinaryOperator := all.find? (·.symbol = s)

end BinaryOperator

/-- Expressions. `assign` names a variable, gives it the value, and has that value. -/
inductive Expression where
  | integer (value : Word)
  | text (value : String)
  | var (name : String)
  | assign (name : String) (value : Expression)
  | negate (operand : Expression)
  | binary (op : BinaryOperator) (left right : Expression)
  | call (name : String) (args : List Expression)

/-- Statements. A block runs its statements in a scope of its own. -/
inductive Statement where
  | expression (e : Expression)
  | print (items : List Expression)
  | assign (name : String) (value : Expression)
  | ifElse (condition : Expression) (thenBranch : Statement) (elseBranch : Option Statement)
  | block (statements : List Statement)
  | define (name : String) (parameters : List String) (body : Statement)
  | giveBack (value : Option Expression)

structure Function where
  name : String
  parameters : List String
  body : Statement

end IntScript
