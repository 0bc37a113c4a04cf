import IntScript.Proofs.Run.Session
import IntScript.Proofs.Scope.Paraphrased

/-!
# Runs of paraphrases

A program and its paraphrase run side by side. Where their scopes match, each part and its paraphrase end
in the same way, with the error in the words of the paraphrase, write the same and leave scopes that
match. A body that was put into a block defines its names one scope further in; this makes no difference
to what it can see, and after the call both scopes are gone.
-/

namespace IntScript.Paraphrase

open IntScript.Action IntScript.Run Arena

variable {ω α β : Type} {P : Paraphrase} {h k : Handle}

structure Level (P : Paraphrase) (h k : Handle) (m n : Machine ω) : Prop where
  out : n.out = m.out
  scopes : P.Matches m.arena h n.arena k

structure SameEnd (P : Paraphrase) (post : Machine ω → Machine ω → Prop)
    (x y : Except RuntimeError α × Machine ω) : Prop where
  result : y.1 = x.1.mapError P.error
  machines : post x.2 y.2

def Conveys (P : Paraphrase) (h k : Handle) (post : Machine ω → Machine ω → Prop)
    (p q : Run ω α) : Prop :=
  ∀ m n, P.Level h k m n → Option.Rel (P.SameEnd post) (p m) (q n)

def Renders (P : Paraphrase) (h k : Handle) (p q : Run ω α) : Prop :=
  P.Conveys h k (P.Level h k) p q

/-- The second part has the end and the output of a paraphrase; its scope may not show the same. -/
def Echoes (P : Paraphrase) (h k : Handle) (p q : Run ω α) : Prop :=
  P.Conveys h k (fun m n => n.out = m.out) p q

theorem renders_ofExcept {x y : Except RuntimeError α} (hxy : y = x.mapError P.error) :
    P.Renders h k (Action.ofExcept x : Run ω α) (Action.ofExcept y) := by
  intro m n hmn
  exact .some ⟨hxy, hmn⟩

theorem renders_pure (a : α) : P.Renders h k (pure a : Run ω α) (pure a) :=
  renders_ofExcept (x := .ok a) rfl

theorem renders_fail {e e' : RuntimeError} (he : e' = P.error e) :
    P.Renders h k (Action.fail e : Run ω α) (Action.fail e') :=
  renders_ofExcept (x := .error e) (congrArg Except.error he)

theorem conveys_bind {post : Machine ω → Machine ω → Prop} {p q : Run ω α} {f g : α → Run ω β}
    (hpost : ∀ m n, P.Level h k m n → post m n) (hpq : P.Renders h k p q)
    (hfg : ∀ a, P.Conveys h k post (f a) (g a)) : P.Conveys h k post (p >>= f) (q >>= g) := by
  intro m n hmn
  have hfirst := hpq m n hmn
  rw [bind_apply, bind_apply]
  generalize p m = x, q n = y at hfirst ⊢
  cases hfirst with
  | none => exact .none
  | @some x y hxy =>
    obtain ⟨r, m'⟩ := x
    obtain ⟨r', n'⟩ := y
    obtain ⟨rfl, hend⟩ := hxy
    cases r with
    | error e => exact .some ⟨rfl, hpost _ _ hend⟩
    | ok a => exact hfg a m' n' hend

theorem renders_bind {p q : Run ω α} {f g : α → Run ω β} (hpq : P.Renders h k p q)
    (hfg : ∀ a, P.Renders h k (f a) (g a)) : P.Renders h k (p >>= f) (q >>= g) :=
  conveys_bind (fun _ _ hend => hend) hpq hfg

theorem echoes_bind {p q : Run ω α} {f g : α → Run ω β} (hpq : P.Renders h k p q)
    (hfg : ∀ a, P.Echoes h k (f a) (g a)) : P.Echoes h k (p >>= f) (q >>= g) :=
  conveys_bind (fun _ _ hend => hend.out) hpq hfg

theorem Renders.echoes {p q : Run ω α} (hpq : P.Renders h k p q) : P.Echoes h k p q := by
  intro m n hmn
  have hends := hpq m n hmn
  generalize p m = x, q n = y at hends ⊢
  cases hends with
  | none => exact .none
  | some hxy => exact .some ⟨hxy.result, hxy.machines.out⟩

theorem renders_get (name : String) :
    P.Renders h k (consult (·.get h name) : Run ω (Option Word))
      (consult (·.get k (P.variableName name))) := by
  intro m n hmn
  rw [consult, consult, hmn.scopes.values]
  split
  · exact .some ⟨rfl, hmn⟩
  · exact .none

theorem renders_getFunction_bind {name : String} {f g : Option Function → Run ω α}
    (hfg : ∀ o, P.Renders h k (f o) (g (o.map P.function))) :
    P.Renders h k (consult (·.getFunction h name) >>= f)
      (consult (·.getFunction k (P.functionName name)) >>= g) := by
  intro m n hmn
  have hfound := hmn.scopes.functions name
  rw [bind_apply, bind_apply, consult, consult, hfound]
  cases m.arena.getFunction h name with
  | error e => exact .none
  | ok o => exact hfg o m n hmn

theorem renders_revise {f g : Arena → Except Fault Arena}
    (hfg : ∀ a b, P.Matches a h b k → ∃ a' b', f a = .ok a' ∧ g b = .ok b' ∧ P.Matches a' h b' k) :
    P.Renders h k (revise f : Run ω Unit) (revise g) := by
  intro m n hmn
  obtain ⟨a', b', ha, hb, hscopes⟩ := hfg _ _ hmn.scopes
  rw [revise, revise, ha, hb]
  exact .some ⟨rfl, hmn.out, hscopes⟩

theorem renders_define (name : String) (value : Word) :
    P.Renders h k (define h name value : Run ω Unit) (define k (P.variableName name) value) :=
  renders_revise fun _ _ hscopes => hscopes.define name value

theorem renders_defineFunction (f : Function) :
    P.Renders h k (revise fun a => a.defineFunction h f : Run ω Unit)
      (revise fun b => b.defineFunction k (P.function f)) :=
  renders_revise fun _ _ hscopes => hscopes.defineFunction f

theorem renders_defineAll (bindings : List (String × Word)) :
    P.Renders h k (defineAll h bindings : Run ω Unit)
      (defineAll k (bindings.map (Prod.map P.variableName id))) := by
  induction bindings with
  | nil => exact renders_pure ()
  | cons binding bindings ih => exact renders_bind (renders_define _ _) fun _ => ih

theorem renders_inScope {p q : Handle → Run ω α} (hpq : ∀ h k, P.Echoes h k (p h) (q k))
    (hp : ∀ h, Keeps h (p h)) (hq : ∀ k, Keeps k (q k)) :
    P.Renders h k (inScope h p) (inScope k q) := by
  -- The new scopes are gone afterwards, so only the end and the output have to agree.
  intro m n hmn
  have hinner := hpq _ _ { m with arena := (m.arena.push h).1 }
    { n with arena := (n.arena.push k).1 } ⟨hmn.out, hmn.scopes.push⟩
  rw [inScope_restored hp hmn.scopes.left.live, inScope_restored hq hmn.scopes.right.live]
  generalize p _ _ = x, q _ _ = y at hinner ⊢
  cases hinner with
  | none => exact .none
  | some hxy => exact .some ⟨hxy.result, hxy.machines, hmn.scopes⟩

theorem mapError_output (x : Except String Unit) :
    (x.mapError RuntimeError.output).mapError P.error = x.mapError RuntimeError.output := by
  cases x with
  | ok _ => rfl
  | error reason => rfl

theorem checked_mapError (operator : String) (i : Int) :
    (Word.checked operator i).mapError P.error = Word.checked operator i := by
  rw [Word.checked]
  split
  · rfl
  · rfl

theorem apply_mapError (op : BinaryOperator) (left right : Word) :
    (op.apply left right).mapError P.error = op.apply left right := by
  cases op with
  | add => exact checked_mapError _ _
  | sub => exact checked_mapError _ _
  | mul => exact checked_mapError _ _
  | div =>
    rw [BinaryOperator.apply, Word.floorDiv_eq]
    split
    · rfl
    · exact checked_mapError _ _
  | equal => rfl
  | notEqual => rfl
  | less => rfl
  | lessEqual => rfl
  | greater => rfl
  | greaterEqual => rfl

variable [Sink ω]

theorem renders_write (s : String) : P.Renders h k (write s : Run ω Unit) (write s) := by
  intro m n hmn
  rw [write, write, hmn.out]
  exact .some ⟨(mapError_output _).symm, rfl, hmn.scopes⟩

theorem body_block (n : Nat) (s : Statement) (h : Handle) :
    (body n (.block [s]) h : Run ω Flow) = inScope h fun inner => body n s inner := by
  cases n with
  | zero => rfl
  | succ n =>
    have hstatements : ∀ inner,
        (Run.statements (body n) inner [s] : Run ω Flow) = Run.statement (body n) inner s := by
      intro inner
      calc (Run.statements (body n) inner [s] : Run ω Flow)
          = Run.statement (body n) inner s >>= pure :=
            bind_congr fun flow => by cases flow <;> rfl
        _ = Run.statement (body n) inner s := bind_pure _
    exact congrArg (inScope h) (funext hstatements)

def RendersBodies (ω : Type) [Sink ω] (P : Paraphrase) (n : Nat) : Prop :=
  ∀ s h k, P.Renders h k (body n s h : Run ω Flow) (body n (P.statement s) k)

variable {n : Nat}

theorem echoes_enclose (hbody : RendersBodies ω P n) (s : Statement) (h k : Handle) :
    P.Echoes h k (body n s h : Run ω Flow) (body n (P.enclose (P.statement s)) k) := by
  rcases P.enclose_cases (P.statement s) with heq | heq
  · rw [heq]
    exact (hbody s h k).echoes
  · rw [heq, body_block]
    intro m n₁ hmn
    have hinner := hbody s h (n₁.arena.push k).2 m { n₁ with arena := (n₁.arena.push k).1 }
      ⟨hmn.out, hmn.scopes.push_right⟩
    rw [inScope_apply]
    generalize (body n s h : Run ω Flow) m = x,
      (body n (P.statement s) (n₁.arena.push k).2 : Run ω Flow) _ = y at hinner ⊢
    cases hinner with
    | none => exact .none
    | some hxy => exact .some ⟨hxy.result, hxy.machines.out⟩

theorem renders_call (hbody : RendersBodies ω P n) (name : String) (values : List Word) :
    P.Renders h k (call (body n) h name values : Run ω Word)
      (call (body n) k (P.functionName name) values) := by
  refine renders_getFunction_bind fun o => ?_
  cases o with
  | none => exact renders_fail rfl
  | some f =>
    have hlength : (P.function f).parameters.length = f.parameters.length := List.length_map _
    have hzip : (P.function f).parameters.zip values =
        (f.parameters.zip values).map (Prod.map P.variableName id) := List.zip_map_left
    dsimp only [Option.map_some]
    rw [hlength, hzip]
    split
    · exact renders_fail rfl
    · refine renders_bind (renders_inScope (fun inner inner' => ?_) ?_ ?_) fun flow => renders_pure _
      · exact echoes_bind (renders_defineAll _) fun _ => echoes_enclose hbody f.body inner inner'
      · exact fun inner => keeps_bind (keeps_defineAll _) fun _ => keeps_body n _ inner
      · exact fun inner => keeps_bind (keeps_defineAll _) fun _ => keeps_body n _ inner

mutual

theorem renders_expression (hbody : RendersBodies ω P n) (h k : Handle) :
    ∀ e, P.Renders h k (Run.expression (body n) h e : Run ω Word)
      (Run.expression (body n) k (P.expression e))
  | .integer value => renders_pure value
  | .text _ => renders_pure 0
  | .var name => by
    refine renders_bind (renders_get name) fun o => ?_
    cases o with
    | none => exact renders_fail rfl
    | some value => exact renders_pure value
  | .assign name e =>
    renders_bind (renders_expression hbody h k e) fun value =>
      renders_bind (renders_define name value) fun _ => renders_pure value
  | .negate e =>
    renders_bind (renders_expression hbody h k e) fun w =>
      renders_ofExcept (checked_mapError _ _).symm
  | .binary op left right =>
    renders_bind (renders_expression hbody h k left) fun a =>
      renders_bind (renders_expression hbody h k right) fun b =>
        renders_ofExcept (apply_mapError op a b).symm
  | .call name args =>
    renders_bind (renders_expressions hbody h k args) fun values => renders_call hbody name values

theorem renders_expressions (hbody : RendersBodies ω P n) (h k : Handle) :
    ∀ es, P.Renders h k (Run.expressions (body n) h es : Run ω (List Word))
      (Run.expressions (body n) k (P.expressions es))
  | [] => renders_pure []
  | e :: es =>
    renders_bind (renders_expression hbody h k e) fun _ =>
      renders_bind (renders_expressions hbody h k es) fun _ => renders_pure _

end

theorem renders_item (hbody : RendersBodies ω P n) (e : Expression) :
    P.Renders h k (item (body n) h e : Run ω String) (item (body n) k (P.expression e)) := by
  have hvalue : P.Renders h k
      (Run.expression (body n) h e >>= fun w => pure (String.ofList w.decimal) : Run ω String)
      (Run.expression (body n) k (P.expression e) >>= fun w => pure (String.ofList w.decimal)) :=
    renders_bind (renders_expression hbody h k e) fun _ => renders_pure _
  cases e with
  | text s => exact renders_pure s
  | integer value => exact hvalue
  | var name => exact hvalue
  | assign name e => exact hvalue
  | negate e => exact hvalue
  | binary op left right => exact hvalue
  | call name args => exact hvalue

theorem renders_items (hbody : RendersBodies ω P n) (es : List Expression) :
    P.Renders h k (items (body n) h es : Run ω (List String))
      (items (body n) k (P.expressions es)) := by
  induction es with
  | nil => exact renders_pure []
  | cons e es ih =>
    exact renders_bind (renders_item hbody e) fun _ => renders_bind ih fun _ => renders_pure _

mutual

theorem renders_statement (hbody : RendersBodies ω P n) (h k : Handle) :
    ∀ s, P.Renders h k (Run.statement (body n) h s : Run ω Flow)
      (Run.statement (body n) k (P.statement s))
  | .expression e => renders_bind (renders_expression hbody h k e) fun _ => renders_pure _
  | .print es =>
    renders_bind (renders_items hbody es) fun _ =>
      renders_bind (renders_write _) fun _ => renders_pure _
  | .assign name e =>
    renders_bind (renders_expression hbody h k e) fun value =>
      renders_bind (renders_define name value) fun _ => renders_pure _
  | .ifElse condition thenBranch elseBranch => by
    refine renders_bind (renders_expression hbody h k condition) fun value => ?_
    by_cases hvalue : value.toInt ≠ 0
    · rw [if_pos hvalue, if_pos hvalue]
      exact renders_statement hbody h k thenBranch
    · rw [if_neg hvalue, if_neg hvalue]
      exact renders_branch hbody h k elseBranch
  | .block ss =>
    renders_inScope (fun inner inner' => (renders_statements hbody inner inner' ss).echoes)
      (fun inner => keeps_statements (keeps_body n) inner ss)
      fun inner => keeps_statements (keeps_body n) inner (P.statements ss)
  | .define name parameters s =>
    renders_bind (renders_defineFunction ⟨name, parameters, s⟩) fun _ => renders_pure _
  | .giveBack none => renders_pure _
  | .giveBack (some e) =>
    renders_bind (renders_expression hbody h k e) fun _ => renders_pure _

theorem renders_branch (hbody : RendersBodies ω P n) (h k : Handle) :
    ∀ o, P.Renders h k (Run.branch (body n) h o : Run ω Flow) (Run.branch (body n) k (P.branch o))
  | none => renders_pure _
  | some s => renders_statement hbody h k s

theorem renders_statements (hbody : RendersBodies ω P n) (h k : Handle) :
    ∀ ss, P.Renders h k (Run.statements (body n) h ss : Run ω Flow)
      (Run.statements (body n) k (P.statements ss))
  | [] => renders_pure _
  | s :: ss => by
    refine renders_bind (renders_statement hbody h k s) fun flow => ?_
    cases flow with
    | proceed => exact renders_statements hbody h k ss
    | giveBack value => exact renders_pure _

end

theorem rendersBodies (ω : Type) [Sink ω] (P : Paraphrase) (n : Nat) : RendersBodies ω P n := by
  induction n with
  | zero => exact fun s h k m n hmn => .none
  | succ n ih => exact fun s h k => renders_statement ih h k s

theorem renders_root (n : Nat) (s : Statement) :
    P.Renders .global .global (root n s : Run ω Flow) (root n (P.statement s)) := by
  cases s with
  | block ss => exact renders_statements (rendersBodies ω P n) .global .global ss
  | _ => exact renders_statement (rendersBodies ω P n) .global .global _

theorem program_sameEnd (P : Paraphrase) (n : Nat) (s : Statement) (m : Machine ω) :
    Option.Rel (P.SameEnd (P.Level .global .global)) (program n s m)
      (program n (P.statement s) m) := by
  have hlevel : P.Level .global .global (.fresh m.out) (.fresh m.out) := ⟨rfl, matches_fresh⟩
  refine renders_bind (renders_root n s) (fun flow => ?_) _ _ hlevel
  cases flow with
  | proceed => exact renders_pure ()
  | giveBack value => exact renders_fail rfl

/-- With every budget, a program and its paraphrase both have an answer or both have none, and the
answers are the same but for the words of the paraphrase. -/
theorem program_paraphrased (P : Paraphrase) (n : Nat) (s : Statement) (m : Machine ω) :
    (program n (P.statement s) m).isSome = (program n s m).isSome ∧
    ∀ x m₁, program n s m = some (x, m₁) →
      ∃ m₂, program n (P.statement s) m = some (x.mapError P.error, m₂) ∧
        P.Level .global .global m₁ m₂ := by
  have hends := program_sameEnd P n s m
  generalize program n s m = x, program n (P.statement s) m = y at hends ⊢
  cases hends with
  | none => exact ⟨rfl, nofun⟩
  | @some x y hxy =>
    refine ⟨rfl, ?_⟩
    rintro _ _ ⟨⟩
    exact ⟨y.2, congrArg (fun r => some (r, y.2)) hxy.result, hxy.machines⟩

end IntScript.Paraphrase
