import IntScript.Run.Eval

/-!
# Relations that runs respect

A program is run in steps of few kinds: a name is looked up or defined, a text is written, a part has a
scope of its own, a part goes on with what another has given. A relation between parts that all of them
respect holds between any part of a program and the same part, run in another scope or into another sink.
-/

namespace IntScript.Run

/-- A relation between parts, each to be run in a scope, that the steps of a run respect. -/
structure Congruence (ω₁ ω₂ : Type) [Sink ω₁] [Sink ω₂] where
  Rel : Handle → Handle → {α : Type} → Run ω₁ α → Run ω₂ α → Prop
  stuck : ∀ {h k : Handle} {α : Type},
    Rel h k (Action.stuck : Run ω₁ α) Action.stuck
  ofExcept : ∀ {h k : Handle} {α : Type} (x : Except RuntimeError α),
    Rel h k (Action.ofExcept x) (Action.ofExcept x)
  bind : ∀ {h k : Handle} {α β : Type} {p : Run ω₁ α} {q : Run ω₂ α} {f : α → Run ω₁ β}
    {g : α → Run ω₂ β}, Rel h k p q → (∀ a, Rel h k (f a) (g a)) → Rel h k (p >>= f) (q >>= g)
  get : ∀ {h k : Handle} (name : String),
    Rel h k (consult (·.get h name)) (consult (·.get k name))
  getFunction : ∀ {h k : Handle} (name : String),
    Rel h k (consult (·.getFunction h name)) (consult (·.getFunction k name))
  define : ∀ {h k : Handle} (name : String) (value : Word),
    Rel h k (define h name value) (define k name value)
  defineFunction : ∀ {h k : Handle} (f : Function),
    Rel h k (revise fun a => a.defineFunction h f) (revise fun a => a.defineFunction k f)
  inScope : ∀ {h k : Handle} {α : Type} {p : Handle → Run ω₁ α} {q : Handle → Run ω₂ α},
    (∀ inner inner', Rel inner inner' (p inner) (q inner')) → Rel h k (inScope h p) (inScope k q)
  write : ∀ {h k : Handle} (s : String), Rel h k (write s) (write s)

namespace Congruence

variable {ω₁ ω₂ : Type} [Sink ω₁] [Sink ω₂] (c : Congruence ω₁ ω₂) {h k : Handle}

theorem rel_pure {α : Type} (a : α) : c.Rel h k (pure a) (pure a) :=
  c.ofExcept (.ok a)

theorem rel_fail {α : Type} (e : RuntimeError) :
    c.Rel h k (Action.fail e : Run ω₁ α) (Action.fail e) :=
  c.ofExcept (.error e)

theorem rel_defineAll (bindings : List (String × Word)) :
    c.Rel h k (defineAll h bindings) (defineAll k bindings) := by
  induction bindings with
  | nil => exact c.rel_pure ()
  | cons binding bindings ih => exact c.bind (c.define _ _) fun _ => ih

variable {body₁ : Statement → Handle → Run ω₁ Flow} {body₂ : Statement → Handle → Run ω₂ Flow}

theorem rel_call (hbody : ∀ s h k, c.Rel h k (body₁ s h) (body₂ s k)) (name : String)
    (values : List Word) : c.Rel h k (call body₁ h name values) (call body₂ k name values) := by
  refine c.bind (c.getFunction name) fun o => ?_
  cases o with
  | none => exact c.rel_fail _
  | some f =>
    dsimp only
    split
    · exact c.rel_fail _
    · refine c.bind (c.inScope fun inner inner' => ?_) fun flow => c.rel_pure _
      exact c.bind (c.rel_defineAll _) fun _ => hbody f.body inner inner'

mutual

theorem rel_expression (hbody : ∀ s h k, c.Rel h k (body₁ s h) (body₂ s k)) (h k : Handle) :
    ∀ e, c.Rel h k (expression body₁ h e) (expression body₂ k e)
  | .integer value => c.rel_pure value
  | .text _ => c.rel_pure 0
  | .var name => by
    refine c.bind (c.get name) fun o => ?_
    cases o with
    | none => exact c.rel_fail _
    | some value => exact c.rel_pure value
  | .assign name e =>
    c.bind (rel_expression hbody h k e) fun value =>
      c.bind (c.define name value) fun _ => c.rel_pure value
  | .negate e => c.bind (rel_expression hbody h k e) fun _ => c.ofExcept _
  | .binary op left right =>
    c.bind (rel_expression hbody h k left) fun _ =>
      c.bind (rel_expression hbody h k right) fun _ => c.ofExcept _
  | .call name args =>
    c.bind (rel_expressions hbody h k args) fun values => c.rel_call hbody name values

theorem rel_expressions (hbody : ∀ s h k, c.Rel h k (body₁ s h) (body₂ s k)) (h k : Handle) :
    ∀ es, c.Rel h k (expressions body₁ h es) (expressions body₂ k es)
  | [] => c.rel_pure []
  | e :: es =>
    c.bind (rel_expression hbody h k e) fun _ =>
      c.bind (rel_expressions hbody h k es) fun _ => c.rel_pure _

end

theorem rel_item (hbody : ∀ s h k, c.Rel h k (body₁ s h) (body₂ s k)) (e : Expression) :
    c.Rel h k (item body₁ h e) (item body₂ k e) := by
  unfold item
  split
  · exact c.rel_pure _
  · exact c.bind (c.rel_expression hbody h k _) fun _ => c.rel_pure _

theorem rel_items (hbody : ∀ s h k, c.Rel h k (body₁ s h) (body₂ s k)) (es : List Expression) :
    c.Rel h k (items body₁ h es) (items body₂ k es) := by
  induction es with
  | nil => exact c.rel_pure []
  | cons e es ih => exact c.bind (c.rel_item hbody e) fun _ => c.bind ih fun _ => c.rel_pure _

mutual

theorem rel_statement (hbody : ∀ s h k, c.Rel h k (body₁ s h) (body₂ s k)) (h k : Handle) :
    ∀ s, c.Rel h k (statement body₁ h s) (statement body₂ k s)
  | .expression e => c.bind (c.rel_expression hbody h k e) fun _ => c.rel_pure _
  | .print es =>
    c.bind (c.rel_items hbody es) fun _ => c.bind (c.write _) fun _ => c.rel_pure _
  | .assign name e =>
    c.bind (c.rel_expression hbody h k e) fun value =>
      c.bind (c.define name value) fun _ => c.rel_pure _
  | .ifElse condition thenBranch elseBranch => by
    refine c.bind (c.rel_expression hbody h k condition) fun value => ?_
    by_cases hvalue : value.toInt ≠ 0
    · rw [if_pos hvalue, if_pos hvalue]
      exact rel_statement hbody h k thenBranch
    · rw [if_neg hvalue, if_neg hvalue]
      exact rel_branch hbody h k elseBranch
  | .block ss => c.inScope fun inner inner' => rel_statements hbody inner inner' ss
  | .define name parameters s => c.bind (c.defineFunction _) fun _ => c.rel_pure _
  | .giveBack none => c.rel_pure _
  | .giveBack (some e) => c.bind (c.rel_expression hbody h k e) fun _ => c.rel_pure _

theorem rel_branch (hbody : ∀ s h k, c.Rel h k (body₁ s h) (body₂ s k)) (h k : Handle) :
    ∀ o, c.Rel h k (branch body₁ h o) (branch body₂ k o)
  | none => c.rel_pure _
  | some s => rel_statement hbody h k s

theorem rel_statements (hbody : ∀ s h k, c.Rel h k (body₁ s h) (body₂ s k)) (h k : Handle) :
    ∀ ss, c.Rel h k (statements body₁ h ss) (statements body₂ k ss)
  | [] => c.rel_pure _
  | s :: ss => by
    refine c.bind (rel_statement hbody h k s) fun flow => ?_
    cases flow with
    | proceed => exact rel_statements hbody h k ss
    | giveBack value => exact c.rel_pure _

end

theorem rel_body (budget : Nat) (s : Statement) (h k : Handle) :
    c.Rel h k (body budget s h) (body budget s k) := by
  induction budget generalizing s h k with
  | zero => exact c.stuck
  | succ budget ih => exact c.rel_statement ih h k s

theorem rel_execute (budget : Nat) (s : Statement) (h k : Handle) :
    c.Rel h k (execute budget s h) (execute budget s k) :=
  c.rel_statement (c.rel_body budget) h k s

theorem rel_evaluate (budget : Nat) (e : Expression) (h k : Handle) :
    c.Rel h k (evaluate budget e h) (evaluate budget e k) :=
  c.rel_expression (c.rel_body budget) h k e

end Congruence

end IntScript.Run
