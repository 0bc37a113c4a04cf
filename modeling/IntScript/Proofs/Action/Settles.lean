import IntScript.Proofs.Action.Order
import Mathlib.Order.Filter.AtTopBot.Basic

/-!
# Computations with a bound

A family of computations, one for each bound, settles on an answer if all of them with a large enough
bound give it. Families that grow with the bound settle on whatever one of them answers.
-/

namespace IntScript.Action

open Filter

variable {σ ε α β : Type}

def Settles (p : Nat → Action σ ε α) (s : σ) (r : Except ε α) (s' : σ) : Prop :=
  ∀ᶠ n in atTop, p n s = some (r, s')

namespace Settles

variable {p q : Nat → Action σ ε α} {f : Nat → α → Action σ ε β} {s s₁ s' : σ}

theorem of_forall {r : Except ε α} (h : ∀ n, p n s = some (r, s')) : Settles p s r s' :=
  Eventually.of_forall h

theorem congr {r : Except ε α} (h : Settles p s r s') (hpq : ∀ n, q n s₁ = p n s) :
    Settles q s₁ r s' := by
  filter_upwards [h] with n hn
  rw [hpq n, hn]

theorem mono {r : Except ε α} (h : Settles p s r s') (hpq : ∀ n, p n ≤ q n) :
    Settles q s r s' := by
  filter_upwards [h] with n hn
  exact apply_of_le (hpq n) hn

theorem succ {r : Except ε α} (h : Settles p s r s') : Settles (fun n => p (n + 1)) s r s' := by
  obtain ⟨k, hk⟩ := eventually_atTop.1 h
  apply eventually_atTop.2
  exact ⟨k, fun n hn => hk (n + 1) (by omega)⟩

theorem of_succ {r : Except ε α} (h : Settles (fun n => p (n + 1)) s r s') : Settles p s r s' := by
  obtain ⟨k, hk⟩ := eventually_atTop.1 h
  apply eventually_atTop.2
  refine ⟨k + 1, fun n hn => ?_⟩
  obtain ⟨m, rfl⟩ : ∃ m, n = m + 1 := ⟨n - 1, by omega⟩
  exact hk m (by omega)

theorem of_le {r : Except ε α} {n : Nat} (hle : ∀ {m n}, m ≤ n → p m ≤ p n)
    (h : p n s = some (r, s')) : Settles p s r s' := by
  filter_upwards [eventually_ge_atTop n] with m hm
  exact apply_of_le (hle hm) h

theorem pure (a : α) : Settles (fun _ => (Pure.pure a : Action σ ε α)) s (.ok a) s :=
  of_forall fun _ => rfl

theorem unique {r r' : Except ε α} {s₂ : σ} (h : Settles p s r s₁) (h' : Settles p s r' s₂) :
    r = r' ∧ s₁ = s₂ := by
  obtain ⟨n, hn, hn'⟩ := (h.and h').exists
  rw [hn] at hn'
  cases hn'
  exact ⟨rfl, rfl⟩

theorem bind {a : α} {r : Except ε β} (hp : Settles p s (.ok a) s₁)
    (hf : Settles (fun n => f n a) s₁ r s') : Settles (fun n => p n >>= f n) s r s' := by
  filter_upwards [hp, hf] with n hn hrest
  rw [bind_eq_ok hn]
  exact hrest

theorem bind_error {e : ε} (hp : Settles p s (.error e) s') :
    Settles (fun n => p n >>= f n) s (.error e) s' := by
  filter_upwards [hp] with n hn
  exact bind_eq_error hn

end Settles

end IntScript.Action
