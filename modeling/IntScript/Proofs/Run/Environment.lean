import IntScript.Run.Eval

/-!
# Evaluation in environments

A second account of what programs do, in which nothing is changed in place. An environment is a list of
layers of names, the innermost first. A name means what the first layer that binds it says; an assignment
or a definition gives a new first layer; a block or a call evaluates with one more layer, which is dropped
afterwards. `Evaluates` relates a part of a program, with the environment and the sink it starts with, to
its result and to the environment and the sink it ends with. It says nothing about parts that do not end.
-/

namespace IntScript

structure Layer where
  values : Bindings Word
  functions : Bindings Function

namespace Layer

def empty : Layer := ⟨[], []⟩

def assign (φ : Layer) (name : String) (value : Word) : Layer :=
  { φ with values := φ.values.insert name value }

def declare (φ : Layer) (f : Function) : Layer :=
  { φ with functions := φ.functions.insert f.name f }

def assignAll (φ : Layer) : List (String × Word) → Layer
  | [] => φ
  | (name, value) :: bindings => (φ.assign name value).assignAll bindings

end Layer

/-- Layers of names, the innermost first. -/
abbrev Environment := List Layer

namespace Environment

def value? (ρ : Environment) (name : String) : Option Word :=
  ρ.findSome? (·.values.find? name)

def function? (ρ : Environment) (name : String) : Option Function :=
  ρ.findSome? (·.functions.find? name)

end Environment

inductive Part : Type → Type 1 where
  | expression (e : Expression) : Part Word
  | expressions (es : List Expression) : Part (List Word)
  | item (e : Expression) : Part String
  | items (es : List Expression) : Part (List String)
  | statement (s : Statement) : Part Flow
  | statements (ss : List Statement) : Part Flow

variable {ω : Type} [Sink ω]

def Sink.print (out : ω) (shown : List String) : Except RuntimeError Flow × ω :=
  let (result, out) := Sink.write out (Run.spaced shown ++ "\n")
  ((result.mapError .output).map fun _ => .proceed, out)

inductive Evaluates : {α : Type} → Environment → ω → Part α → Except RuntimeError α →
    Environment → ω → Prop where
  | integer {ρ o w} : Evaluates ρ o (.expression (.integer w)) (.ok w) ρ o
  | text {ρ o s} : Evaluates ρ o (.expression (.text s)) (.ok 0) ρ o
  | var {ρ o x w} (hx : ρ.value? x = some w) : Evaluates ρ o (.expression (.var x)) (.ok w) ρ o
  | unbound {ρ o x} (hx : ρ.value? x = none) :
      Evaluates ρ o (.expression (.var x)) (.error (.undefinedVariable x)) ρ o
  | assign {ρ o x e w φ ρ' o'} (he : Evaluates ρ o (.expression e) (.ok w) (φ :: ρ') o') :
      Evaluates ρ o (.expression (.assign x e)) (.ok w) (φ.assign x w :: ρ') o'
  | assignFails {ρ o x e k ρ' o'} (he : Evaluates ρ o (.expression e) (.error k) ρ' o') :
      Evaluates ρ o (.expression (.assign x e)) (.error k) ρ' o'
  | negate {ρ o e r ρ' o'} (he : Evaluates ρ o (.expression e) r ρ' o') :
      Evaluates ρ o (.expression (.negate e)) (r.bind Word.negate) ρ' o'
  | binary {ρ o op left right a r ρ₁ o₁ ρ₂ o₂}
      (hleft : Evaluates ρ o (.expression left) (.ok a) ρ₁ o₁)
      (hright : Evaluates ρ₁ o₁ (.expression right) r ρ₂ o₂) :
      Evaluates ρ o (.expression (.binary op left right)) (r.bind (op.apply a)) ρ₂ o₂
  | binaryFails {ρ o op left right k ρ₁ o₁}
      (hleft : Evaluates ρ o (.expression left) (.error k) ρ₁ o₁) :
      Evaluates ρ o (.expression (.binary op left right)) (.error k) ρ₁ o₁
  | call {ρ o x args f ws r φ ρ₁ o₁ ρ₂ o₂}
      (hargs : Evaluates ρ o (.expressions args) (.ok ws) ρ₁ o₁)
      (hf : ρ₁.function? x = some f) (harity : ws.length = f.parameters.length)
      (hbody : Evaluates (Layer.empty.assignAll (f.parameters.zip ws) :: ρ₁) o₁ (.statement f.body)
        r (φ :: ρ₂) o₂) :
      Evaluates ρ o (.expression (.call x args)) (r.map Flow.value) ρ₂ o₂
  | callArity {ρ o x args f ws ρ₁ o₁} (hargs : Evaluates ρ o (.expressions args) (.ok ws) ρ₁ o₁)
      (hf : ρ₁.function? x = some f) (harity : ws.length ≠ f.parameters.length) :
      Evaluates ρ o (.expression (.call x args))
        (.error (.arityMismatch x f.parameters.length ws.length)) ρ₁ o₁
  | callUndefined {ρ o x args ws ρ₁ o₁}
      (hargs : Evaluates ρ o (.expressions args) (.ok ws) ρ₁ o₁) (hf : ρ₁.function? x = none) :
      Evaluates ρ o (.expression (.call x args)) (.error (.undefinedFunction x)) ρ₁ o₁
  | callFails {ρ o x args k ρ₁ o₁} (hargs : Evaluates ρ o (.expressions args) (.error k) ρ₁ o₁) :
      Evaluates ρ o (.expression (.call x args)) (.error k) ρ₁ o₁
  | noExpressions {ρ o} : Evaluates ρ o (.expressions []) (.ok []) ρ o
  | expressions {ρ o e es w r ρ₁ o₁ ρ₂ o₂} (he : Evaluates ρ o (.expression e) (.ok w) ρ₁ o₁)
      (hes : Evaluates ρ₁ o₁ (.expressions es) r ρ₂ o₂) :
      Evaluates ρ o (.expressions (e :: es)) (r.map (w :: ·)) ρ₂ o₂
  | expressionsFail {ρ o e es k ρ₁ o₁} (he : Evaluates ρ o (.expression e) (.error k) ρ₁ o₁) :
      Evaluates ρ o (.expressions (e :: es)) (.error k) ρ₁ o₁
  | shownText {ρ o s} : Evaluates ρ o (.item (.text s)) (.ok s) ρ o
  | shownValue {ρ o e r ρ' o'} (hne : ∀ s, e ≠ .text s)
      (he : Evaluates ρ o (.expression e) r ρ' o') :
      Evaluates ρ o (.item e) (r.map fun w => String.ofList w.decimal) ρ' o'
  | noItems {ρ o} : Evaluates ρ o (.items []) (.ok []) ρ o
  | items {ρ o e es s r ρ₁ o₁ ρ₂ o₂} (he : Evaluates ρ o (.item e) (.ok s) ρ₁ o₁)
      (hes : Evaluates ρ₁ o₁ (.items es) r ρ₂ o₂) :
      Evaluates ρ o (.items (e :: es)) (r.map (s :: ·)) ρ₂ o₂
  | itemsFail {ρ o e es k ρ₁ o₁} (he : Evaluates ρ o (.item e) (.error k) ρ₁ o₁) :
      Evaluates ρ o (.items (e :: es)) (.error k) ρ₁ o₁
  | run {ρ o e r ρ' o'} (he : Evaluates ρ o (.expression e) r ρ' o') :
      Evaluates ρ o (.statement (.expression e)) (r.map fun _ => .proceed) ρ' o'
  | print {ρ o es shown ρ' o'} (hes : Evaluates ρ o (.items es) (.ok shown) ρ' o') :
      Evaluates ρ o (.statement (.print es)) (Sink.print o' shown).1 ρ' (Sink.print o' shown).2
  | printFails {ρ o es k ρ' o'} (hes : Evaluates ρ o (.items es) (.error k) ρ' o') :
      Evaluates ρ o (.statement (.print es)) (.error k) ρ' o'
  | set {ρ o x e w φ ρ' o'} (he : Evaluates ρ o (.expression e) (.ok w) (φ :: ρ') o') :
      Evaluates ρ o (.statement (.assign x e)) (.ok .proceed) (φ.assign x w :: ρ') o'
  | setFails {ρ o x e k ρ' o'} (he : Evaluates ρ o (.expression e) (.error k) ρ' o') :
      Evaluates ρ o (.statement (.assign x e)) (.error k) ρ' o'
  | ifTrue {ρ o e s t w r ρ₁ o₁ ρ₂ o₂} (he : Evaluates ρ o (.expression e) (.ok w) ρ₁ o₁)
      (hw : w.toInt ≠ 0) (hs : Evaluates ρ₁ o₁ (.statement s) r ρ₂ o₂) :
      Evaluates ρ o (.statement (.ifElse e s t)) r ρ₂ o₂
  | ifFalse {ρ o e s t w r ρ₁ o₁ ρ₂ o₂} (he : Evaluates ρ o (.expression e) (.ok w) ρ₁ o₁)
      (hw : w.toInt = 0) (ht : Evaluates ρ₁ o₁ (.statement t) r ρ₂ o₂) :
      Evaluates ρ o (.statement (.ifElse e s (some t))) r ρ₂ o₂
  | ifSkipped {ρ o e s w ρ₁ o₁} (he : Evaluates ρ o (.expression e) (.ok w) ρ₁ o₁)
      (hw : w.toInt = 0) : Evaluates ρ o (.statement (.ifElse e s none)) (.ok .proceed) ρ₁ o₁
  | ifFails {ρ o e s t k ρ₁ o₁} (he : Evaluates ρ o (.expression e) (.error k) ρ₁ o₁) :
      Evaluates ρ o (.statement (.ifElse e s t)) (.error k) ρ₁ o₁
  | block {ρ o ss r φ ρ' o'} (hss : Evaluates (.empty :: ρ) o (.statements ss) r (φ :: ρ') o') :
      Evaluates ρ o (.statement (.block ss)) r ρ' o'
  | define {φ ρ o x parameters s} :
      Evaluates (φ :: ρ) o (.statement (.define x parameters s)) (.ok .proceed)
        (φ.declare ⟨x, parameters, s⟩ :: ρ) o
  | giveBackNothing {ρ o} :
      Evaluates ρ o (.statement (.giveBack none)) (.ok (.giveBack 0)) ρ o
  | giveBack {ρ o e r ρ' o'} (he : Evaluates ρ o (.expression e) r ρ' o') :
      Evaluates ρ o (.statement (.giveBack (some e))) (r.map .giveBack) ρ' o'
  | noStatements {ρ o} : Evaluates ρ o (.statements []) (.ok .proceed) ρ o
  | statements {ρ o s ss r ρ₁ o₁ ρ₂ o₂} (hs : Evaluates ρ o (.statement s) (.ok .proceed) ρ₁ o₁)
      (hss : Evaluates ρ₁ o₁ (.statements ss) r ρ₂ o₂) :
      Evaluates ρ o (.statements (s :: ss)) r ρ₂ o₂
  | statementsEnd {ρ o s ss r ρ₁ o₁} (hs : Evaluates ρ o (.statement s) r ρ₁ o₁)
      (hr : r ≠ .ok .proceed) : Evaluates ρ o (.statements (s :: ss)) r ρ₁ o₁

def Part.ofRoot : Statement → Part Flow
  | .block ss => .statements ss
  | s => .statement s

/-- How a program ends: a value may only be given back by a function. -/
def Flow.finish : Flow → Except RuntimeError Unit
  | proceed => .ok ()
  | giveBack _ => .error .returnOutsideFunction

/-- A program that starts with this sink ends with this result, global names and sink. -/
def Interprets (root : Statement) (out : ω) (r : Except RuntimeError Unit) (globals : Layer)
    (out' : ω) : Prop :=
  ∃ x, Evaluates [.empty] out (.ofRoot root) x [globals] out' ∧ r = x.bind Flow.finish

end IntScript
