import IntScript.Action
import IntScript.Run.Arithmetic
import IntScript.Run.Sink
import IntScript.Scope.Arena

/-!
How programs run. A program changes a machine, which is a sink for its output and the scopes of its names.
A block and a call run in a scope of their own, which is gone afterwards however they end. A function is
looked up from where it is called, and its body sees the names of its caller.

Programs need not stop, so running one takes a budget: how deep calls may nest. A run within its budget
does not depend on how large that is. Without enough of it there is no answer.
-/

namespace IntScript

structure Machine (ω : Type) where
  out : ω
  arena : Arena

def Machine.fresh {ω : Type} (out : ω) : Machine ω := ⟨out, .fresh⟩

abbrev Run (ω : Type) := Action (Machine ω) RuntimeError

/-- How a statement ends: the next one follows, or the function gives a value back. -/
inductive Flow where
  | proceed
  | giveBack (value : Word)
deriving DecidableEq

def Flow.value : Flow → Word
  | proceed => 0
  | giveBack value => value

namespace Run

variable {ω α : Type}

/-- Asks the scopes. A handle without a scope has no answer. -/
def consult (f : Arena → Except Arena.Fault α) : Run ω α := fun m =>
  match f m.arena with
  | .ok a => some (.ok a, m)
  | .error _ => none

def revise (f : Arena → Except Arena.Fault Arena) : Run ω Unit := fun m =>
  match f m.arena with
  | .ok arena => some (.ok (), { m with arena := arena })
  | .error _ => none

def define (h : Handle) (name : String) (value : Word) : Run ω Unit :=
  revise fun a => a.define h name value

def defineAll (h : Handle) : List (String × Word) → Run ω Unit
  | [] => return ()
  | (name, value) :: bindings => do
    let _ ← define h name value
    defineAll h bindings

/-- Runs a part in a new scope above the others, and removes that scope whatever happens. -/
def inScope (parent : Handle) (p : Handle → Run ω α) : Run ω α := fun m =>
  let (arena, h) := m.arena.push parent
  (p h).thenAlways (fun m => { m with arena := m.arena.pop h }) { m with arena := arena }

theorem inScope_apply (parent : Handle) (p : Handle → Run ω α) (m : Machine ω) :
    inScope parent p m =
      (p (m.arena.push parent).2 { m with arena := (m.arena.push parent).1 }).map fun x =>
        (x.1, { x.2 with arena := x.2.arena.pop (m.arena.push parent).2 }) := by
  unfold inScope Action.thenAlways
  dsimp only
  split
  next hp => rw [hp, Option.map_none]
  next hp => rw [hp, Option.map_some]

def write [Sink ω] (s : String) : Run ω Unit := fun m =>
  let (result, out) := Sink.write m.out s
  some (result.mapError .output, { m with out := out })

def spaced : List String → String
  | [] => ""
  | [s] => s
  | s :: t :: ts => s ++ " " ++ spaced (t :: ts)

/-- Calls a function with values: its body, as `body` runs it, in a scope that holds the parameters. -/
def call (body : Statement → Handle → Run ω Flow) (h : Handle) (name : String)
    (values : List Word) : Run ω Word := do
  match ← consult (·.getFunction h name) with
  | none => Action.fail (.undefinedFunction name)
  | some f =>
    if values.length ≠ f.parameters.length then
      Action.fail (.arityMismatch name f.parameters.length values.length)
    else
      let flow ← inScope h fun inner => do
        let _ ← defineAll inner (f.parameters.zip values)
        body f.body inner
      return flow.value

mutual

/-- The value of an expression in a scope. A text has no value of its own and counts as zero. -/
def expression (body : Statement → Handle → Run ω Flow) (h : Handle) : Expression → Run ω Word
  | .integer value => return value
  | .text _ => return 0
  | .var name => do
    match ← consult (·.get h name) with
    | some value => return value
    | none => Action.fail (.undefinedVariable name)
  | .assign name e => do
    let value ← expression body h e
    let _ ← define h name value
    return value
  | .negate e => do
    let value ← expression body h e
    Action.ofExcept value.negate
  | .binary op left right => do
    let a ← expression body h left
    let b ← expression body h right
    Action.ofExcept (op.apply a b)
  | .call name args => do
    let values ← expressions body h args
    call body h name values

def expressions (body : Statement → Handle → Run ω Flow) (h : Handle) :
    List Expression → Run ω (List Word)
  | [] => return []
  | e :: es => do
    let value ← expression body h e
    let values ← expressions body h es
    return value :: values

end

/-- What `print` shows of an item: a text as it is, a value in decimal. -/
def item (body : Statement → Handle → Run ω Flow) (h : Handle) : Expression → Run ω String
  | .text s => return s
  | e => do
    let value ← expression body h e
    return String.ofList value.decimal

def items (body : Statement → Handle → Run ω Flow) (h : Handle) :
    List Expression → Run ω (List String)
  | [] => return []
  | e :: es => do
    let shown ← item body h e
    let rest ← items body h es
    return shown :: rest

mutual

def statement [Sink ω] (body : Statement → Handle → Run ω Flow) (h : Handle) :
    Statement → Run ω Flow
  | .expression e => do
    let _ ← expression body h e
    return .proceed
  | .print es => do
    let shown ← items body h es
    let _ ← write (spaced shown ++ "\n")
    return .proceed
  | .assign name e => do
    let value ← expression body h e
    let _ ← define h name value
    return .proceed
  | .ifElse condition thenBranch elseBranch => do
    let value ← expression body h condition
    if value.toInt ≠ 0 then statement body h thenBranch else branch body h elseBranch
  | .block ss => inScope h fun inner => statements body inner ss
  | .define name parameters s => do
    let _ ← revise fun a => a.defineFunction h ⟨name, parameters, s⟩
    return .proceed
  | .giveBack none => return .giveBack 0
  | .giveBack (some e) => do
    let value ← expression body h e
    return .giveBack value

def branch [Sink ω] (body : Statement → Handle → Run ω Flow) (h : Handle) :
    Option Statement → Run ω Flow
  | none => return .proceed
  | some s => statement body h s

def statements [Sink ω] (body : Statement → Handle → Run ω Flow) (h : Handle) :
    List Statement → Run ω Flow
  | [] => return .proceed
  | s :: ss => do
    match ← statement body h s with
    | .proceed => statements body h ss
    | .giveBack value => return .giveBack value

end

/-- Runs the body of a function, with calls nested so deep at most, this one included. -/
def body [Sink ω] : Nat → Statement → Handle → Run ω Flow
  | 0 => fun _ _ => Action.stuck
  | n + 1 => fun s h => statement (body n) h s

def evaluate [Sink ω] (budget : Nat) (e : Expression) (h : Handle) : Run ω Word :=
  expression (body budget) h e

def execute [Sink ω] (budget : Nat) (s : Statement) (h : Handle) : Run ω Flow :=
  statement (body budget) h s

def executeBlock [Sink ω] (budget : Nat) (ss : List Statement) (parent : Handle) : Run ω Flow :=
  inScope parent fun inner => statements (body budget) inner ss

/-- Runs the root of a program in the global scope; the statements of a block share it. -/
def root [Sink ω] (budget : Nat) : Statement → Run ω Flow
  | .block ss => statements (body budget) .global ss
  | s => execute budget s .global

/-- Runs a program in a fresh global scope, whose names stay readable afterwards. -/
def program [Sink ω] (budget : Nat) (s : Statement) : Run ω Unit := do
  let _ ← Action.modify fun m => { m with arena := .fresh }
  match ← root budget s with
  | .proceed => return ()
  | .giveBack _ => Action.fail .returnOutsideFunction

end Run

end IntScript
