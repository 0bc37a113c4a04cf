import IntScript.Action

/-!
# What computations establish

A triple speaks of the answers that a computation gives: from a state that meets the precondition, a
value and the state left behind meet the postcondition, and an error and its state meet the condition
on errors. A computation without an answer meets every triple.
-/

namespace IntScript.Action

variable {σ ε α β : Type}

def Triple (pre : σ → Prop) (p : Action σ ε α) (post : α → σ → Prop) (err : ε → σ → Prop) : Prop :=
  ∀ s, pre s → ∀ r s', p s = some (r, s') →
    match r with
    | .ok a => post a s'
    | .error e => err e s'

theorem bind_eq_some_iff {p : Action σ ε α} {f : α → Action σ ε β} {s s' : σ} {r : Except ε β} :
    (p >>= f) s = some (r, s') ↔
      (∃ e, p s = some (.error e, s') ∧ r = .error e) ∨
        ∃ a s₁, p s = some (.ok a, s₁) ∧ f a s₁ = some (r, s') := by
  rw [bind_apply]
  cases hp : p s with
  | none => simp
  | some q =>
    obtain ⟨r₁, s₁⟩ := q
    cases r₁ with
    | error e =>
      constructor
      · intro h
        cases h
        exact .inl ⟨e, rfl, rfl⟩
      · rintro (⟨e', he, rfl⟩ | ⟨a, s₁, ha, -⟩)
        · cases he
          rfl
        · cases ha
    | ok a =>
      constructor
      · intro h
        exact .inr ⟨a, s₁, rfl, h⟩
      · rintro (⟨e', he, -⟩ | ⟨a', s₂, ha, h⟩)
        · cases he
        · cases ha
          exact h

namespace Triple

variable {pre pre' : σ → Prop} {post post' : α → σ → Prop} {err err' : ε → σ → Prop}
  {p : Action σ ε α}

theorem ok (h : Triple pre p post err) {s s' : σ} {a : α} (hs : pre s)
    (hp : p s = some (.ok a, s')) : post a s' :=
  h s hs _ _ hp

theorem error (h : Triple pre p post err) {s s' : σ} {e : ε} (hs : pre s)
    (hp : p s = some (.error e, s')) : err e s' :=
  h s hs _ _ hp

theorem conseq (h : Triple pre p post err) (hpre : ∀ s, pre' s → pre s)
    (hpost : ∀ a s, post a s → post' a s) (herr : ∀ e s, err e s → err' e s) :
    Triple pre' p post' err' := by
  intro s hs r s' hp
  have hr := h s (hpre s hs) r s' hp
  cases r with
  | ok a => exact hpost a s' hr
  | error e => exact herr e s' hr

theorem pure {a : α} (h : ∀ s, pre s → post a s) :
    Triple pre (Pure.pure a : Action σ ε α) post err := by
  intro s hs r s' hp
  cases hp
  exact h s hs

theorem stuck : Triple pre (stuck : Action σ ε α) post err := by
  intro s hs r s' hp
  cases hp

theorem fail {e : ε} (h : ∀ s, pre s → err e s) :
    Triple pre (fail e : Action σ ε α) post err := by
  intro s hs r s' hp
  cases hp
  exact h s hs

theorem read {f : σ → α} (h : ∀ s, pre s → post (f s) s) :
    Triple pre (read f : Action σ ε α) post err := by
  intro s hs r s' hp
  cases hp
  exact h s hs

theorem bind {mid : β → σ → Prop} {q : Action σ ε β} {f : β → Action σ ε α}
    (hq : Triple pre q mid err) (hf : ∀ b, Triple (mid b) (f b) post err) :
    Triple pre (q >>= f) post err := by
  intro s hs r s' h
  rcases bind_eq_some_iff.1 h with ⟨e, he, rfl⟩ | ⟨b, s₁, hb, hr⟩
  · exact hq.error hs he
  · exact hf b s₁ (hq.ok hs hb) r s' hr

end Triple

end IntScript.Action
