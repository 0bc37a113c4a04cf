import IntScript.Proofs.Action.Triple
import IntScript.Proofs.Run.Congruence
import IntScript.Proofs.Scope.Frame
import Mathlib.Logic.Relation

/-!
# Runs keep to their scope

Whatever a run does in a scope, and however it ends, every other scope is as it was and the scope itself
has lost nothing. A call and a block leave the scopes exactly as they found them. So between the calls of
a session only the global scope is there.
-/

namespace IntScript.Run

open IntScript.Action Arena

variable {ω α β : Type} {h : Handle}

/-- The part changes no scope but the one of the handle, which has to be there. -/
def Keeps (h : Handle) (p : Run ω α) : Prop :=
  ∀ m : Machine ω, h.index < m.arena.depth → ∀ r m', p m = some (r, m') →
    Frame h m.arena m'.arena

def Restores (h : Handle) (p : Run ω α) : Prop :=
  ∀ m : Machine ω, h.index < m.arena.depth → ∀ r m', p m = some (r, m') → m'.arena = m.arena

theorem Restores.keeps {p : Run ω α} (hp : Restores h p) : Keeps h p := by
  intro m hlive r m' hrun
  rw [hp m hlive r m' hrun]
  exact .refl h m.arena

theorem restores_stuck : Restores h (Action.stuck : Run ω α) := by
  intro m _ r m' hrun
  cases hrun

theorem restores_pure (a : α) : Restores h (pure a : Run ω α) := by
  intro m _ r m' hrun
  cases hrun
  rfl

theorem restores_fail (e : RuntimeError) : Restores h (Action.fail e : Run ω α) := by
  intro m _ r m' hrun
  cases hrun
  rfl

theorem restores_ofExcept (x : Except RuntimeError α) :
    Restores h (Action.ofExcept x : Run ω α) := by
  intro m _ r m' hrun
  cases hrun
  rfl

theorem restores_consult (f : Arena → Except Fault α) : Restores h (consult f : Run ω α) := by
  intro m _ r m' hrun
  rw [consult] at hrun
  cases hf : f m.arena with
  | ok a =>
    rw [hf] at hrun
    cases hrun
    rfl
  | error e =>
    rw [hf] at hrun
    cases hrun

theorem restores_write [Sink ω] (s : String) : Restores h (write s : Run ω Unit) := by
  intro m _ r m' hrun
  cases hrun
  rfl

theorem keeps_revise {f : Arena → Except Fault Arena}
    (hf : ∀ a b, f a = .ok b → Frame h a b) : Keeps h (revise f : Run ω Unit) := by
  intro m _ r m' hrun
  rw [revise] at hrun
  cases ha : f m.arena with
  | ok b =>
    rw [ha] at hrun
    cases hrun
    exact hf _ _ ha
  | error e =>
    rw [ha] at hrun
    cases hrun

theorem keeps_bind {p : Run ω α} {f : α → Run ω β} (hp : Keeps h p) (hf : ∀ a, Keeps h (f a)) :
    Keeps h (p >>= f) := by
  intro m hlive r m' hrun
  rcases bind_eq_some_iff.1 hrun with ⟨e, he, -⟩ | ⟨a, m₁, ha, hrest⟩
  · exact hp m hlive _ m' he
  · have hfirst := hp m hlive _ m₁ ha
    have hlive₁ : h.index < m₁.arena.depth := by
      rw [hfirst.depth_eq]
      exact hlive
    exact hfirst.trans (hf a m₁ hlive₁ r m' hrest)

theorem restores_bind {p : Run ω α} {f : α → Run ω β} (hp : Restores h p)
    (hf : ∀ a, Restores h (f a)) : Restores h (p >>= f) := by
  intro m hlive r m' hrun
  rcases bind_eq_some_iff.1 hrun with ⟨e, he, -⟩ | ⟨a, m₁, ha, hrest⟩
  · exact hp m hlive _ m' he
  · have hfirst := hp m hlive _ m₁ ha
    rw [← hfirst]
    apply hf a m₁ _ r m' hrest
    rw [hfirst]
    exact hlive

theorem keeps_define (name : String) (value : Word) : Keeps h (define h name value : Run ω Unit) :=
  keeps_revise fun _ _ => frame_define

theorem keeps_defineAll (bindings : List (String × Word)) :
    Keeps h (defineAll h bindings : Run ω Unit) := by
  induction bindings with
  | nil => exact (restores_pure ()).keeps
  | cons binding bindings ih => exact keeps_bind (keeps_define _ _) fun _ => ih

theorem inScope_restored {p : Handle → Run ω α} (hp : ∀ inner, Keeps inner (p inner)) {m : Machine ω}
    (hlive : h.index < m.arena.depth) :
    inScope h p m = (p (m.arena.push h).2 { m with arena := (m.arena.push h).1 }).map fun x =>
      (x.1, { x.2 with arena := m.arena }) := by
  rw [inScope_apply]
  refine Option.map_congr fun x hinner => ?_
  have hpushed : (m.arena.push h).2.index < (m.arena.push h).1.depth := by
    simp [push, depth]
  have hframe := hp _ _ hpushed x.1 x.2 hinner
  rw [pop_eq_of_frame (by omega) hframe]

theorem restores_inScope {p : Handle → Run ω α} (hp : ∀ inner, Keeps inner (p inner)) :
    Restores h (inScope h p) := by
  intro m hlive r m' hrun
  rw [inScope_restored hp hlive] at hrun
  obtain ⟨x, -, hx⟩ := Option.map_eq_some_iff.1 hrun
  cases hx
  rfl

section Parts

variable {body : Statement → Handle → Run ω Flow}

theorem restores_call (hbody : ∀ s inner, Keeps inner (body s inner)) (name : String)
    (values : List Word) : Restores h (call body h name values) := by
  refine restores_bind (restores_consult _) fun o => ?_
  cases o with
  | none => exact restores_fail _
  | some f =>
    dsimp only
    split
    · exact restores_fail _
    · refine restores_bind (restores_inScope fun inner => ?_) fun flow => restores_pure _
      exact keeps_bind (keeps_defineAll _) fun _ => hbody f.body inner

variable [Sink ω]

def keepsCongruence : Congruence ω ω where
  Rel h _ _ p _ := Keeps h p
  stuck := restores_stuck.keeps
  ofExcept x := (restores_ofExcept x).keeps
  bind := keeps_bind
  get _ := (restores_consult _).keeps
  getFunction _ := (restores_consult _).keeps
  define := keeps_define
  defineFunction _ := keeps_revise fun _ _ => frame_defineFunction
  inScope hp := (restores_inScope fun inner => hp inner inner).keeps
  write s := (restores_write s).keeps

theorem keeps_expression (hbody : ∀ s inner, Keeps inner (body s inner)) (h : Handle)
    (e : Expression) : Keeps h (expression body h e) := by
  have hrel : keepsCongruence.Rel h h (expression body h e) (expression body h e) :=
    keepsCongruence.rel_expression (fun s h _ => hbody s h) h h e
  exact hrel

theorem keeps_statement (hbody : ∀ s inner, Keeps inner (body s inner)) (h : Handle)
    (s : Statement) : Keeps h (statement body h s) := by
  have hrel : keepsCongruence.Rel h h (statement body h s) (statement body h s) :=
    keepsCongruence.rel_statement (fun s h _ => hbody s h) h h s
  exact hrel

theorem keeps_statements (hbody : ∀ s inner, Keeps inner (body s inner)) (h : Handle)
    (ss : List Statement) : Keeps h (statements body h ss) := by
  have hrel : keepsCongruence.Rel h h (statements body h ss) (statements body h ss) :=
    keepsCongruence.rel_statements (fun s h _ => hbody s h) h h ss
  exact hrel

end Parts

end IntScript.Run
