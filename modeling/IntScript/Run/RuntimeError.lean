/-!
What can go wrong while a program runs, and how that is worded.
-/

namespace IntScript

inductive RuntimeError where
  | undefinedVariable (name : String)
  | undefinedFunction (name : String)
  | arityMismatch (name : String) (expected found : Nat)
  | divisionByZero
  | arithmeticOverflow (operator : String)
  | returnOutsideFunction
  /-- The program's output was refused, with this explanation. -/
  | output (reason : String)
deriving DecidableEq

def RuntimeError.message : RuntimeError → String
  | undefinedVariable name => "Undefined variable '" ++ name ++ "'"
  | undefinedFunction name => "Undefined function '" ++ name ++ "'"
  | arityMismatch name expected found =>
    "Function '" ++ name ++ s!"' expected {expected} arguments, got {found}"
  | divisionByZero => "Division by zero"
  | arithmeticOverflow operator => "Integer overflow in '" ++ operator ++ "'"
  | returnOutsideFunction => "Return outside of function"
  | output reason => "Failed to write program output: " ++ reason

end IntScript
