import IntScript.Scope.Bindings
import IntScript.Tree

/-!
The scopes of a running program, one above the other. A handle is an index into them. Scopes are pushed
when a block or a call begins and popped when it ends; the first one is the global scope. A lookup goes
from a scope to its parent and so on, and a definition changes only the scope it is made in.

Handles may be kept after their scope is gone. Such a handle refers to whichever scope is pushed at its
index later, and has no scope until then: using it is a fault, and so is a lookup that comes back to
where it has been.
-/

namespace IntScript

structure Handle where
  index : Nat
deriving DecidableEq

def Handle.global : Handle := ⟨0⟩

/-- Variables and functions, which do not share their names, and the scope to look in next. -/
structure Scope where
  values : Bindings Word
  functions : Bindings Function
  parent : Option Handle

def Scope.empty (parent : Option Handle) : Scope := ⟨[], [], parent⟩

/-- Scopes, the global one first. -/
structure Arena where
  scopes : Array Scope

namespace Arena

inductive Fault where
  /-- The handle has no scope. -/
  | dangling (h : Handle)
  /-- The parents lead in a circle. -/
  | circular (h : Handle)

variable {α : Type}

def fresh : Arena := ⟨#[.empty none]⟩

def depth (a : Arena) : Nat := a.scopes.size

def push (a : Arena) (parent : Handle) : Arena × Handle :=
  (⟨a.scopes.push (.empty (some parent))⟩, ⟨a.scopes.size⟩)

/-- Removes a scope and all above it. The global scope stays. -/
def pop (a : Arena) (h : Handle) : Arena := ⟨a.scopes.take (max h.index 1)⟩

def update (a : Arena) (h : Handle) (f : Scope → Scope) : Except Fault Arena :=
  if h.index < a.scopes.size then .ok ⟨a.scopes.modify h.index f⟩ else .error (.dangling h)

def define (a : Arena) (h : Handle) (name : String) (value : Word) : Except Fault Arena :=
  a.update h fun s => { s with values := s.values.insert name value }

def defineFunction (a : Arena) (h : Handle) (f : Function) : Except Fault Arena :=
  a.update h fun s => { s with functions := s.functions.insert f.name f }

/-- What the first scope that has it gives, on the way from a scope along at most so many parents. -/
def search (a : Arena) (pick : Scope → Option α) : Nat → Handle → Except Fault (Option α)
  | 0, h => .error (.circular h)
  | n + 1, h =>
    match a.scopes[h.index]? with
    | none => .error (.dangling h)
    | some s =>
      match pick s, s.parent with
      | some x, _ => .ok (some x)
      | none, none => .ok none
      | none, some p => a.search pick n p

def get (a : Arena) (h : Handle) (name : String) : Except Fault (Option Word) :=
  a.search (·.values.find? name) a.depth h

def getFunction (a : Arena) (h : Handle) (name : String) : Except Fault (Option Function) :=
  a.search (·.functions.find? name) a.depth h

end Arena

end IntScript
