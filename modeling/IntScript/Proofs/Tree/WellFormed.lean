import IntScript.Token.Scan
import IntScript.Tree

/-!
# Well-formed programs

Trees of the form that a text can write. A block stands only where a body is asked for, has at least one
statement there, and is the root of a program; the parameters of a function differ. Which names and
literals may occur is a parameter, the vocabulary.
-/

namespace IntScript

/-- Digits may come first, then a letter or an underscore. -/
def Token.NameShape (word : List Char) : Prop :=
  ∃ digits first rest, word = digits ++ first :: rest ∧ (∀ d ∈ digits, d.isDigit = true) ∧
    beginsName first = true ∧ ∀ c ∈ rest, continuesName c = true

def Token.IsName (name : String) : Prop :=
  TokenKind.keyword? name = none ∧ NameShape name.toList

structure Vocabulary where
  name : String → Prop
  literal : Word → Prop

namespace Vocabulary

def any : Vocabulary := ⟨fun _ => True, fun _ => True⟩

/-- What texts can write: a literal has no sign. -/
def written : Vocabulary := ⟨Token.IsName, fun value => 0 ≤ value.toInt⟩

end Vocabulary

variable (V : Vocabulary)

inductive Expression.WellFormed : Expression → Prop where
  | integer {value : Word} (h : V.literal value) : WellFormed (.integer value)
  | text (value : String) : WellFormed (.text value)
  | var {name : String} (h : V.name name) : WellFormed (.var name)
  | assign {name : String} {value : Expression} (h : V.name name) (hvalue : WellFormed value) :
      WellFormed (.assign name value)
  | negate {operand : Expression} (h : WellFormed operand) : WellFormed (.negate operand)
  | binary (op : BinaryOperator) {left right : Expression} (hleft : WellFormed left)
      (hright : WellFormed right) : WellFormed (.binary op left right)
  | call {name : String} {args : List Expression} (h : V.name name)
      (hargs : ∀ e ∈ args, WellFormed e) : WellFormed (.call name args)

inductive Statement.Role where
  | line
  | body

open Statement (Role)

inductive Statement.WellFormed : Role → Statement → Prop where
  | expression {e : Expression} (h : e.WellFormed V) : WellFormed .line (.expression e)
  | print {items : List Expression} (h : ∀ e ∈ items, e.WellFormed V) :
      WellFormed .line (.print items)
  | assign {name : String} {value : Expression} (h : V.name name) (hvalue : value.WellFormed V) :
      WellFormed .line (.assign name value)
  | ifElse {condition : Expression} {thenBranch : Statement} {elseBranch : Option Statement}
      (h : condition.WellFormed V) (hthen : WellFormed .body thenBranch)
      (helse : ∀ s ∈ elseBranch, WellFormed .body s) :
      WellFormed .line (.ifElse condition thenBranch elseBranch)
  | define {name : String} {parameters : List String} {body : Statement} (h : V.name name)
      (hparameters : ∀ p ∈ parameters, V.name p) (hdistinct : parameters.Nodup)
      (hbody : WellFormed .body body) : WellFormed .line (.define name parameters body)
  | giveBack {value : Option Expression} (h : ∀ e ∈ value, e.WellFormed V) :
      WellFormed .line (.giveBack value)
  | inline {s : Statement} (h : WellFormed .line s) : WellFormed .body s
  | block {statements : List Statement} (hne : statements ≠ [])
      (h : ∀ s ∈ statements, WellFormed .line s) : WellFormed .body (.block statements)

def Statement.IsProgram (root : Statement) : Prop :=
  ∃ statements, root = .block statements ∧ ∀ s ∈ statements, s.WellFormed V .line

end IntScript
