import IntScript.Tree

/-!
# What stands in a tree

The expressions within an expression, the functions that an expression or a statement calls, those that a
statement defines, and the statements within it. What stands in the body of a function is the function's
own: the statement that defines it does not call what the body calls, and gives nothing back.
-/

namespace IntScript

namespace Expression

mutual

def parts : Expression → List Expression
  | e@(.integer _) => [e]
  | e@(.text _) => [e]
  | e@(.var _) => [e]
  | e@(.assign _ value) => e :: value.parts
  | e@(.negate operand) => e :: operand.parts
  | e@(.binary _ left right) => e :: (left.parts ++ right.parts)
  | e@(.call _ args) => e :: partsOf args

def partsOf : List Expression → List Expression
  | [] => []
  | e :: es => e.parts ++ partsOf es

end

theorem mem_partsOf {part : Expression} {es : List Expression} :
    part ∈ partsOf es ↔ ∃ e ∈ es, part ∈ e.parts := by
  induction es with
  | nil => simp [partsOf]
  | cons e es ih => simp [partsOf, ih]

def AssignFree (e : Expression) : Prop := ∀ name value, .assign name value ∉ e.parts

theorem not_assignFree_assign (name : String) (e : Expression) : ¬ (assign name e).AssignFree :=
  fun h => h name e (by simp [parts])

theorem assignFree_negate {e : Expression} : (negate e).AssignFree ↔ e.AssignFree := by
  simp [AssignFree, parts]

theorem assignFree_binary {op : BinaryOperator} {left right : Expression} :
    (binary op left right).AssignFree ↔ left.AssignFree ∧ right.AssignFree := by
  simp [AssignFree, parts, forall_and]

theorem assignFree_call {name : String} {args : List Expression} :
    (call name args).AssignFree ↔ ∀ e ∈ args, e.AssignFree := by
  simp only [AssignFree, parts, List.mem_cons, mem_partsOf, reduceCtorEq, false_or, not_exists,
    not_and]
  exact ⟨fun h e he x v => h x v e he, fun h x v e he => h e he x v⟩

def called? : Expression → Option String
  | .call name _ => some name
  | _ => none

def calls (e : Expression) : List String := e.parts.filterMap called?

theorem calls_binary (op : BinaryOperator) (left right : Expression) :
    (binary op left right).calls = left.calls ++ right.calls := List.filterMap_append

theorem mem_calls_call {name x : String} {args : List Expression} :
    x ∈ (call name args).calls ↔ x = name ∨ ∃ e ∈ args, x ∈ e.calls := by
  simp only [calls, parts, called?, List.filterMap_cons, List.mem_cons, List.mem_filterMap, mem_partsOf]
  constructor
  · rintro (rfl | ⟨part, ⟨e, he, hpart⟩, hx⟩)
    · exact .inl rfl
    · exact .inr ⟨e, he, part, hpart, hx⟩
  · rintro (rfl | ⟨e, he, part, hpart, hx⟩)
    · exact .inl rfl
    · exact .inr ⟨part, ⟨e, he, hpart⟩, hx⟩

end Expression

namespace Statement

mutual

/-- The names of the functions that the statement calls, outside the bodies of those it defines. -/
def calls : Statement → List String
  | .expression e => e.calls
  | .print es => es.flatMap Expression.calls
  | .assign _ e => e.calls
  | .ifElse condition thenBranch elseBranch =>
    condition.calls ++ (thenBranch.calls ++ branchCalls elseBranch)
  | .block ss => callsOf ss
  | .define _ _ _ => []
  | .giveBack value => value.toList.flatMap Expression.calls

def branchCalls : Option Statement → List String
  | none => []
  | some s => s.calls

def callsOf : List Statement → List String
  | [] => []
  | s :: ss => s.calls ++ callsOf ss

end

mutual

/-- The functions that the statement defines, and those that are defined in their bodies. -/
def definitions : Statement → List Function
  | .expression _ | .print _ | .assign _ _ | .giveBack _ => []
  | .ifElse _ thenBranch elseBranch => thenBranch.definitions ++ branchDefinitions elseBranch
  | .block ss => definitionsOf ss
  | .define name parameters body => ⟨name, parameters, body⟩ :: body.definitions

def branchDefinitions : Option Statement → List Function
  | none => []
  | some s => s.definitions

def definitionsOf : List Statement → List Function
  | [] => []
  | s :: ss => s.definitions ++ definitionsOf ss

end

mutual

/-- The statement, and every statement within it that is not in the body of a function. -/
def parts : Statement → List Statement
  | s@(.ifElse _ thenBranch elseBranch) => s :: (thenBranch.parts ++ branchParts elseBranch)
  | s@(.block ss) => s :: partsOf ss
  | s => [s]

def branchParts : Option Statement → List Statement
  | none => []
  | some s => s.parts

def partsOf : List Statement → List Statement
  | [] => []
  | s :: ss => s.parts ++ partsOf ss

end

mutual

/-- How many blocks stand in the statement, the bodies of functions included. -/
def blockCount : Statement → Nat
  | .expression _ | .print _ | .assign _ _ | .giveBack _ => 0
  | .ifElse _ thenBranch elseBranch => thenBranch.blockCount + branchBlockCount elseBranch
  | .block ss => 1 + blockCountOf ss
  | .define _ _ body => body.blockCount

def branchBlockCount : Option Statement → Nat
  | none => 0
  | some s => s.blockCount

def blockCountOf : List Statement → Nat
  | [] => 0
  | s :: ss => s.blockCount + blockCountOf ss

end

theorem mem_partsOf {part : Statement} {ss : List Statement} :
    part ∈ partsOf ss ↔ ∃ s ∈ ss, part ∈ s.parts := by
  induction ss with
  | nil => simp [partsOf]
  | cons s ss ih => simp [partsOf, ih]

/-- Somewhere in the statement, outside of functions, a value is given back. -/
def GivesBack (s : Statement) : Prop := ∃ value, .giveBack value ∈ s.parts

theorem givesBack_giveBack (value : Option Expression) : (giveBack value).GivesBack :=
  ⟨value, by simp [parts]⟩

theorem givesBack_ifElse {condition : Expression} {thenBranch : Statement}
    {elseBranch : Option Statement} : (ifElse condition thenBranch elseBranch).GivesBack ↔
      thenBranch.GivesBack ∨ ∃ s ∈ elseBranch, s.GivesBack := by
  cases elseBranch with
  | none => simp [GivesBack, parts, branchParts]
  | some s => simp [GivesBack, parts, branchParts, exists_or]

theorem givesBack_block {ss : List Statement} :
    (block ss).GivesBack ↔ ∃ s ∈ ss, s.GivesBack := by
  simp only [GivesBack, parts, List.mem_cons, reduceCtorEq, mem_partsOf, false_or]
  exact ⟨fun ⟨value, s, hs, hpart⟩ => ⟨s, hs, value, hpart⟩,
    fun ⟨s, hs, value, hpart⟩ => ⟨value, s, hs, hpart⟩⟩

variable (rank : String → Nat)

/-- Every function that is defined in the statement calls only functions of smaller rank. -/
def Ranked (s : Statement) : Prop :=
  ∀ f ∈ s.definitions, ∀ name ∈ f.body.calls, rank name < rank f.name

instance (s : Statement) : Decidable (s.Ranked rank) :=
  inferInstanceAs (Decidable (∀ f ∈ s.definitions, ∀ name ∈ f.body.calls, rank name < rank f.name))

structure Within (n : Nat) (s : Statement) : Prop where
  calls : ∀ name ∈ s.calls, rank name < n
  ranked : s.Ranked rank

variable {rank} {n k : Nat}

theorem Within.mono {s : Statement} (hs : s.Within rank n) (hnk : n ≤ k) : s.Within rank k :=
  ⟨fun name hname => Nat.lt_of_lt_of_le (hs.calls name hname) hnk, hs.ranked⟩

theorem Within.ifElse {condition : Expression} {thenBranch : Statement}
    {elseBranch : Option Statement} (h : (ifElse condition thenBranch elseBranch).Within rank n) :
    (∀ name ∈ condition.calls, rank name < n) ∧ thenBranch.Within rank n ∧
      ∀ s ∈ elseBranch, s.Within rank n := by
  obtain ⟨hcalls, hranked⟩ := h
  rw [Statement.calls, List.forall_mem_append, List.forall_mem_append] at hcalls
  rw [Ranked, definitions, List.forall_mem_append] at hranked
  obtain ⟨hcondition, hthen, helse⟩ := hcalls
  refine ⟨hcondition, ⟨hthen, hranked.1⟩, ?_⟩
  rintro s ⟨⟩
  exact ⟨helse, hranked.2⟩

theorem Within.block {ss : List Statement} (h : (block ss).Within rank n) :
    ∀ s ∈ ss, s.Within rank n := by
  obtain ⟨hcalls, hranked⟩ := h
  rw [Statement.calls] at hcalls
  rw [Ranked, definitions] at hranked
  induction ss with
  | nil => exact nofun
  | cons s ss ih =>
    rw [callsOf, List.forall_mem_append] at hcalls
    rw [definitionsOf, List.forall_mem_append] at hranked
    exact List.forall_mem_cons.2 ⟨⟨hcalls.1, hranked.1⟩, ih hcalls.2 hranked.2⟩

theorem Ranked.define {name : String} {parameters : List String} {body : Statement}
    (h : (define name parameters body).Ranked rank) : body.Within rank (rank name) := by
  rw [Ranked, definitions, List.forall_mem_cons] at h
  exact ⟨h.1, h.2⟩

end Statement

end IntScript
