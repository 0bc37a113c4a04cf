import IntScript.Proofs.Action.Order
import IntScript.Proofs.Run.Congruence

/-!
# Budgets

A run that is within its budget is the same with every larger one. All steps of a run are monotone, so a
part is below itself with a larger budget for its calls.
-/

namespace IntScript.Run

open IntScript.Action

variable {ω α : Type}

theorem inScope_le (h : Handle) {p q : Handle → Run ω α} (hpq : ∀ inner, p inner ≤ q inner) :
    inScope h p ≤ inScope h q := by
  intro m x hx
  rw [inScope_apply] at hx ⊢
  obtain ⟨y, hinner, rfl⟩ := Option.map_eq_some_iff.1 hx
  rw [apply_of_le (hpq _) hinner, Option.map_some]

variable [Sink ω]

def atMost : Congruence ω ω where
  Rel h k _ p q := h = k → p ≤ q
  stuck := fun _ => le_rfl
  ofExcept _ := fun _ => le_rfl
  bind hp hf := fun heq => bind_le_bind (hp heq) fun a => hf a heq
  get _ := by
    rintro rfl
    exact le_rfl
  getFunction _ := by
    rintro rfl
    exact le_rfl
  define _ _ := by
    rintro rfl
    exact le_rfl
  defineFunction _ := by
    rintro rfl
    exact le_rfl
  inScope hp := by
    rintro rfl
    exact inScope_le _ fun inner => hp inner inner rfl
  write _ := fun _ => le_rfl

variable {n k : Nat}

theorem atMost_body (hnk : n ≤ k) (s : Statement) (h h' : Handle) :
    atMost.Rel h h' (body n s h : Run ω Flow) (body k s h') := by
  induction n generalizing k s h h' with
  | zero => exact fun _ => stuck_le _
  | succ n ih =>
    obtain ⟨k, rfl⟩ : ∃ j, k = j + 1 := ⟨k - 1, by omega⟩
    exact atMost.rel_statement (fun s h h' => ih (by omega) s h h') h h' s

theorem evaluate_le (hnk : n ≤ k) (e : Expression) (h : Handle) :
    (evaluate n e h : Run ω Word) ≤ evaluate k e h :=
  atMost.rel_expression (atMost_body hnk) h h e rfl

theorem root_le (hnk : n ≤ k) (s : Statement) : (root n s : Run ω Flow) ≤ root k s := by
  unfold root
  split
  · exact atMost.rel_statements (atMost_body hnk) .global .global _ rfl
  · exact atMost.rel_statement (atMost_body hnk) .global .global _ rfl

theorem program_le (hnk : n ≤ k) (s : Statement) : (program n s : Run ω Unit) ≤ program k s :=
  bind_le_bind_right _ fun _ => bind_le_bind (root_le hnk s) fun _ => le_rfl

end IntScript.Run
