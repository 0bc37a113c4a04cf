import IntScript.Run.RuntimeError
import IntScript.Tree
import Mathlib.Logic.Function.Basic

/-!
# Paraphrases

A paraphrase says the same with other names, one choice for variables and another for functions, and may
put the body of a function into a block of its own. Different names stay different; a variable and a
function may get the same name, or no longer have the same.
-/

namespace IntScript

structure Paraphrase where
  variableName : String → String
  functionName : String → String
  /-- What becomes of the body of a function. -/
  enclose : Statement → Statement
  variableName_injective : Function.Injective variableName
  functionName_injective : Function.Injective functionName
  enclose_cases : ∀ s, enclose s = s ∨ enclose s = .block [s]

namespace Paraphrase

/-- Other names for variables, which are parameters and targets of assignments too, and for functions. -/
def ofNames {r q : String → String} (hr : Function.Injective r) (hq : Function.Injective q) :
    Paraphrase :=
  ⟨r, q, id, hr, hq, fun _ => .inl rfl⟩

/-- The names stay, and the body of every function becomes a block. -/
def blockBodies : Paraphrase :=
  ⟨id, id, fun s => .block [s], Function.injective_id, Function.injective_id, fun _ => .inr rfl⟩

variable (P : Paraphrase)

mutual

def expression : Expression → Expression
  | .integer value => .integer value
  | .text value => .text value
  | .var name => .var (P.variableName name)
  | .assign name value => .assign (P.variableName name) (expression value)
  | .negate operand => .negate (expression operand)
  | .binary op left right => .binary op (expression left) (expression right)
  | .call name args => .call (P.functionName name) (expressions args)

def expressions : List Expression → List Expression
  | [] => []
  | e :: es => expression e :: expressions es

end

mutual

def statement : Statement → Statement
  | .expression e => .expression (P.expression e)
  | .print items => .print (P.expressions items)
  | .assign name value => .assign (P.variableName name) (P.expression value)
  | .ifElse condition thenBranch elseBranch =>
    .ifElse (P.expression condition) (statement thenBranch) (branch elseBranch)
  | .block ss => .block (statements ss)
  | .define name parameters body =>
    .define (P.functionName name) (parameters.map P.variableName) (P.enclose (statement body))
  | .giveBack value => .giveBack (value.map P.expression)

def branch : Option Statement → Option Statement
  | none => none
  | some s => some (statement s)

def statements : List Statement → List Statement
  | [] => []
  | s :: ss => statement s :: statements ss

end

def function (f : Function) : Function :=
  ⟨P.functionName f.name, f.parameters.map P.variableName, P.enclose (P.statement f.body)⟩

theorem name_function (f : Function) : (P.function f).name = P.functionName f.name := rfl

def error : RuntimeError → RuntimeError
  | .undefinedVariable name => .undefinedVariable (P.variableName name)
  | .undefinedFunction name => .undefinedFunction (P.functionName name)
  | .arityMismatch name expected found => .arityMismatch (P.functionName name) expected found
  | .divisionByZero => .divisionByZero
  | .arithmeticOverflow operator => .arithmeticOverflow operator
  | .returnOutsideFunction => .returnOutsideFunction
  | .output reason => .output reason

end Paraphrase

end IntScript
