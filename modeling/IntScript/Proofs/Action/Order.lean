import IntScript.Action
import Mathlib.Order.Basic

/-!
# The order of answers

One computation is below another if the other gives the same answer wherever the first has one. A
computation that is granted more steps is above the one with fewer, and where the lower one answers,
the two agree.
-/

namespace IntScript.Action

variable {σ ε α β : Type}

instance : Preorder (Action σ ε α) where
  le p q := ∀ s x, p s = some x → q s = some x
  le_refl _ _ _ h := h
  le_trans _ _ _ hpq hqr s x h := hqr s x (hpq s x h)

theorem apply_of_le {p q : Action σ ε α} (h : p ≤ q) {s : σ} {x : Except ε α × σ}
    (hp : p s = some x) : q s = some x :=
  h s x hp

theorem eq_of_le {p q : Action σ ε α} (h : p ≤ q) {s : σ} (hp : (p s).isSome = true) :
    p s = q s := by
  obtain ⟨x, hx⟩ := Option.isSome_iff_exists.1 hp
  rw [hx, apply_of_le h hx]

theorem stuck_le (p : Action σ ε α) : stuck ≤ p := by
  intro s x h
  cases h

theorem bind_le_bind {p q : Action σ ε α} {f g : α → Action σ ε β} (h : p ≤ q)
    (hfg : ∀ a, f a ≤ g a) : p >>= f ≤ q >>= g := by
  intro s x hx
  rw [bind_apply] at hx ⊢
  cases hp : p s with
  | none =>
    rw [hp] at hx
    cases hx
  | some y =>
    rw [hp] at hx
    rw [apply_of_le h hp]
    obtain ⟨r, s₁⟩ := y
    cases r with
    | error e => exact hx
    | ok a => exact apply_of_le (hfg a) hx

theorem bind_le_bind_right (p : Action σ ε α) {f g : α → Action σ ε β} (hfg : ∀ a, f a ≤ g a) :
    p >>= f ≤ p >>= g :=
  bind_le_bind le_rfl hfg

end IntScript.Action
