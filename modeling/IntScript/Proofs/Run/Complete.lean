import IntScript.Proofs.Action.Settles
import IntScript.Proofs.Run.Sound

/-!
# The rules are followed by runs

Whatever can be derived for a part of a program is what every run of it gives that is granted enough
calls. So the rules leave no choice: a part has one outcome at most.
-/

namespace IntScript

open IntScript.Action Environment

variable {ω α β : Type} [Sink ω]

/-- Runs in the innermost layer of the first environment, if they are granted enough calls, have this
answer and leave the second environment, in which only that layer may have changed. -/
def Answers (p : Nat → Handle → Run ω α) (ρ₀ : Environment) (o : ω) (r : Except RuntimeError α)
    (ρ₁ : Environment) (o' : ω) : Prop :=
  ∀ φ ρ, ρ₀ = φ :: ρ → ∃ φ', ρ₁ = φ' :: ρ ∧
    Settles (p · ⟨ρ.length⟩) ⟨o, arena (φ :: ρ)⟩ r ⟨o', arena (φ' :: ρ)⟩

namespace Answers

variable {p : Nat → Handle → Run ω α} {f : Nat → Handle → α → Run ω β} {ρ₀ ρ₁ ρ₂ : Environment}
  {o o₁ o' : ω}

omit [Sink ω] in
theorem stays {r : Except RuntimeError α} (h : ∀ φ ρ n, ρ₀ = φ :: ρ →
    p n ⟨ρ.length⟩ ⟨o, arena (φ :: ρ)⟩ = some (r, ⟨o', arena (φ :: ρ)⟩)) :
    Answers p ρ₀ o r ρ₀ o' := by
  intro φ ρ hρ
  exact ⟨φ, hρ, Settles.of_forall fun n => h φ ρ n hρ⟩

omit [Sink ω] in
theorem changes {r : Except RuntimeError α} {φ φ' : Layer} {ρ : Environment}
    (h : ∀ n, p n ⟨ρ.length⟩ ⟨o, arena (φ :: ρ)⟩ = some (r, ⟨o', arena (φ' :: ρ)⟩)) :
    Answers p (φ :: ρ) o r (φ' :: ρ) o' := by
  intro ψ ρ' hρ
  cases hρ
  exact ⟨φ', rfl, Settles.of_forall h⟩

omit [Sink ω] in
theorem fails {k : RuntimeError} (hp : Answers p ρ₀ o (.error k) ρ₁ o') :
    Answers (fun n h => p n h >>= f n h) ρ₀ o (.error k) ρ₁ o' := by
  intro φ ρ hρ
  obtain ⟨φ', hρ', hsettles⟩ := hp φ ρ hρ
  exact ⟨φ', hρ', hsettles.bind_error⟩

omit [Sink ω] in
theorem goesOn {a : α} {r : Except RuntimeError β} (hp : Answers p ρ₀ o (.ok a) ρ₁ o₁)
    (hf : Answers (fun n h => f n h a) ρ₁ o₁ r ρ₂ o') :
    Answers (fun n h => p n h >>= f n h) ρ₀ o r ρ₂ o' := by
  intro φ ρ hρ
  obtain ⟨φ₁, hρ₁, hfirst⟩ := hp φ ρ hρ
  obtain ⟨φ₂, hρ₂, hrest⟩ := hf φ₁ ρ hρ₁
  exact ⟨φ₂, hρ₂, hfirst.bind hrest⟩

omit [Sink ω] in
theorem finishes {r : Except RuntimeError α} {g : α → Except RuntimeError β}
    (hp : Answers p ρ₀ o r ρ₁ o') (hf : ∀ n h a m, f n h a m = some (g a, m)) :
    Answers (fun n h => p n h >>= f n h) ρ₀ o (r.bind g) ρ₁ o' := by
  cases r with
  | error k => exact hp.fails
  | ok a => exact hp.goesOn (stays fun _ _ n _ => hf n _ a _)

omit [Sink ω] in
theorem maps {r : Except RuntimeError α} {g : α → β} (hp : Answers p ρ₀ o r ρ₁ o')
    (hf : ∀ n h a m, f n h a m = some (.ok (g a), m)) :
    Answers (fun n h => p n h >>= f n h) ρ₀ o (r.map g) ρ₁ o' := by
  have hmap : r.map g = r.bind fun a => .ok (g a) := by
    cases r with
    | error k => rfl
    | ok a => rfl
  rw [hmap]
  exact hp.finishes hf

theorem body {s : Statement} {r : Except RuntimeError Flow}
    (hs : Answers (fun n h => (Part.statement s).run n h) ρ₀ o r ρ₁ o') :
    Answers (fun n h => Run.body n s h) ρ₀ o r ρ₁ o' := by
  -- A body is run with one nested call less than the call of it.
  intro φ ρ hρ
  obtain ⟨φ', hρ', hsettles⟩ := hs φ ρ hρ
  exact ⟨φ', hρ', Settles.of_succ (p := (Run.body · s ⟨ρ.length⟩)) hsettles⟩

theorem call {x : String} {f : Function} {ws : List Word} {r : Except RuntimeError Flow} {ψ : Layer}
    (hf : ρ₁.function? x = some f) (harity : ws.length = f.parameters.length)
    (hbody : Answers (fun n h => (Part.statement f.body).run n h)
      (Layer.empty.assignAll (f.parameters.zip ws) :: ρ₁) o₁ r (ψ :: ρ₂) o') :
    Answers (fun n h => Run.call (Run.body n) h x ws) ρ₁ o₁ (r.map Flow.value) ρ₂ o' := by
  rintro φ ρ rfl
  obtain ⟨ψ', hρ, hsettles⟩ := hbody.body _ _ rfl
  cases hρ
  refine ⟨φ, rfl, ?_⟩
  filter_upwards [hsettles] with n hrun
  rw [Run.call, bind_eq_ok (Run.getFunction_layers x), hf]
  dsimp only
  rw [if_neg (by simpa using harity)]
  have hinner : Run.inScope ⟨ρ.length⟩ (fun inner => do
      let _ ← Run.defineAll inner (f.parameters.zip ws)
      Run.body n f.body inner) ⟨o₁, arena (φ :: ρ)⟩ = some (r, ⟨o', arena (φ :: ρ)⟩) := by
    apply Run.inScope_layers (ψ := ψ)
    rw [bind_eq_ok (Run.defineAll_layers _ _)]
    exact hrun
  cases r with
  | ok flow =>
    rw [bind_eq_ok hinner]
    rfl
  | error e =>
    rw [bind_eq_error hinner]
    rfl

end Answers

theorem answers_of_evaluates {p : Part α} {r : Except RuntimeError α} {ρ₀ ρ₁ : Environment}
    {o o' : ω} (h : Evaluates ρ₀ o p r ρ₁ o') : Answers (fun n h => p.run n h) ρ₀ o r ρ₁ o' := by
  induction h with
  | integer => exact .stays fun _ _ _ _ => rfl
  | text => exact .stays fun _ _ _ _ => rfl
  | var hx =>
    apply Answers.stays
    rintro φ ρ n rfl
    simp only [Part.run, Run.expression]
    rw [bind_eq_ok (Run.get_layers _), hx]
    rfl
  | unbound hx =>
    apply Answers.stays
    rintro φ ρ n rfl
    simp only [Part.run, Run.expression]
    rw [bind_eq_ok (Run.get_layers _), hx]
    rfl
  | assign _ ih =>
    apply ih.goesOn
    apply Answers.changes
    intro n
    rw [bind_eq_ok (Run.define_layers _ _)]
    rfl
  | assignFails _ ih => exact ih.fails
  | negate _ ih => exact ih.finishes fun _ _ _ _ => rfl
  | binary _ _ ihhead ihtail => exact ihhead.goesOn (ihtail.finishes fun _ _ _ _ => rfl)
  | binaryFails _ ih => exact ih.fails
  | call _ hf harity _ ihargs ihbody => exact ihargs.goesOn (ihbody.call hf harity)
  | callArity _ hf harity ih =>
    apply ih.goesOn
    apply Answers.stays
    rintro φ ρ n rfl
    rw [Run.call, bind_eq_ok (Run.getFunction_layers _), hf]
    dsimp only
    rw [if_pos harity]
    rfl
  | callUndefined _ hf ih =>
    apply ih.goesOn
    apply Answers.stays
    rintro φ ρ n rfl
    rw [Run.call, bind_eq_ok (Run.getFunction_layers _), hf]
    rfl
  | callFails _ ih => exact ih.fails
  | noExpressions => exact .stays fun _ _ _ _ => rfl
  | expressions _ _ ihhead ihtail => exact ihhead.goesOn (ihtail.maps fun _ _ _ _ => rfl)
  | expressionsFail _ ih => exact ih.fails
  | shownText => exact .stays fun _ _ _ _ => rfl
  | @shownValue _ _ e _ _ _ hne _ ih =>
    have hitem : (fun n h => (Part.item e).run n h : Nat → Handle → Run ω String) =
        fun n h => (Part.expression e).run n h >>= fun w => pure (String.ofList w.decimal) := by
      funext n h
      exact Run.item.eq_2 _ _ _ hne
    rw [hitem]
    exact ih.maps fun _ _ _ _ => rfl
  | noItems => exact .stays fun _ _ _ _ => rfl
  | items _ _ ihhead ihtail => exact ihhead.goesOn (ihtail.maps fun _ _ _ _ => rfl)
  | itemsFail _ ih => exact ih.fails
  | run _ ih => exact ih.maps fun _ _ _ _ => rfl
  | print _ ih => exact ih.goesOn (.stays fun _ _ _ _ => Run.write_print _ _)
  | printFails _ ih => exact ih.fails
  | set _ ih =>
    apply ih.goesOn
    apply Answers.changes
    intro n
    rw [bind_eq_ok (Run.define_layers _ _)]
    rfl
  | setFails _ ih => exact ih.fails
  | ifTrue _ hw _ ihcond ihbranch =>
    apply ihcond.goesOn
    simp only [hw, if_true, ne_eq, not_false_eq_true]
    exact ihbranch
  | ifFalse _ hw _ ihcond ihbranch =>
    apply ihcond.goesOn
    simp only [hw]
    exact ihbranch
  | ifSkipped _ hw ih =>
    apply ih.goesOn
    simp only [hw]
    exact .stays fun _ _ _ _ => rfl
  | ifFails _ ih => exact ih.fails
  | block _ ih =>
    rintro φ ρ rfl
    obtain ⟨ψ, hρ, hss⟩ := ih _ _ rfl
    cases hρ
    refine ⟨φ, rfl, ?_⟩
    filter_upwards [hss] with n hn
    exact Run.inScope_layers (p := fun inner => Run.statements (Run.body n) inner _) hn
  | define =>
    apply Answers.changes
    intro n
    simp only [Part.run, Run.statement]
    rw [bind_eq_ok (Run.defineFunction_layers _)]
    rfl
  | giveBackNothing => exact .stays fun _ _ _ _ => rfl
  | giveBack _ ih => exact ih.maps fun _ _ _ _ => rfl
  | noStatements => exact .stays fun _ _ _ _ => rfl
  | statements _ _ ihhead ihtail => exact ihhead.goesOn ihtail
  | @statementsEnd _ _ _ _ r _ _ _ hr ih =>
    cases r with
    | error k => exact ih.fails
    | ok flow =>
      apply ih.goesOn
      cases flow with
      | proceed => exact absurd rfl hr
      | giveBack w => exact .stays fun _ _ _ _ => rfl

end IntScript
