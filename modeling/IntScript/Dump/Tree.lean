import IntScript.Dump.Layout
import IntScript.Text.Quoted
import IntScript.Tree

/-!
Dumps of programs, with every part of the tree on lines of its own.
-/

namespace IntScript

def BinaryOperator.name : BinaryOperator → String
  | add => "Add"
  | sub => "Sub"
  | mul => "Mul"
  | div => "Div"
  | equal => "Equal"
  | notEqual => "NotEqual"
  | less => "Less"
  | lessEqual => "LessEqual"
  | greater => "Greater"
  | greaterEqual => "GreaterEqual"

namespace Dump

def Shown.text (s : String) : Shown := .atom (Text.quoted s)

mutual

def ofExpression : Expression → Shown
  | .integer value => .tuple "Integer" [.atom (String.ofList value.decimal)]
  | .text value => .tuple "String" [.text value]
  | .var name => .tuple "Variable" [.text name]
  | .assign name value => .record "Assign" [("name", .text name), ("value", ofExpression value)]
  | .negate operand =>
    .record "Unary" [("op", .atom "Negate"), ("operand", ofExpression operand)]
  | .binary op left right =>
    .record "Binary" [("left", ofExpression left), ("op", .atom op.name),
      ("right", ofExpression right)]
  | .call name args => .record "Call" [("name", .text name), ("args", .list (ofExpressions args))]

def ofExpressions : List Expression → List Shown
  | [] => []
  | e :: es => ofExpression e :: ofExpressions es

end

def ofOption (x : Option Shown) : Shown :=
  match x with
  | none => .atom "None"
  | some x => .tuple "Some" [x]

mutual

def ofStatement : Statement → Shown
  | .expression e => .tuple "Expression" [ofExpression e]
  | .print items => .tuple "Print" [.list (ofExpressions items)]
  | .assign name value => .record "Assign" [("name", .text name), ("value", ofExpression value)]
  | .ifElse condition thenBranch elseBranch =>
    .record "If" [("condition", ofExpression condition), ("then_branch", ofStatement thenBranch),
      ("else_branch", ofBranch elseBranch)]
  | .block statements => .tuple "Block" [.list (ofStatements statements)]
  | .define name parameters body =>
    .tuple "FunctionDef" [.record "FunctionDecl" [("name", .text name),
      ("parameters", .list (parameters.map .text)), ("body", ofStatement body)]]
  | .giveBack value => .tuple "Return" [ofOption (value.map ofExpression)]

def ofBranch : Option Statement → Shown
  | none => .atom "None"
  | some s => .tuple "Some" [ofStatement s]

def ofStatements : List Statement → List Shown
  | [] => []
  | s :: ss => ofStatement s :: ofStatements ss

end

end Dump

def Statement.dump (s : Statement) : String := Dump.indented 0 (Dump.ofStatement s) ++ "\n"

end IntScript
