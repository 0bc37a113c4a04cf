import IntScript.Proofs.Scope.View

/-!
# What lookups find

A lookup from a usable handle comes to an end, and what it finds is in one of the scopes. So functions of
one kind, each kept under its own name, are found only under their names.
-/

namespace IntScript.Arena

variable {α : Type} {a b : Arena} {h : Handle} {P : Function → Prop}

theorem Descends.exists_search (ha : a.Descends) (pick : Scope → Option α) {n : Nat}
    (hn : h.index < n) (hlive : h.index < a.depth) :
    ∃ o, a.search pick n h = .ok o ∧
      ∀ x ∈ o, ∃ (i : Nat) (s : Scope), a.scopes[i]? = some s ∧ pick s = some x := by
  induction n generalizing h with
  | zero => omega
  | succ n ih =>
    have hs : a.scopes[h.index]? = some a.scopes[h.index] := Array.getElem?_eq_getElem hlive
    rw [search, hs]
    dsimp only
    cases hpick : pick a.scopes[h.index] with
    | some x =>
      refine ⟨some x, rfl, ?_⟩
      rintro _ ⟨⟩
      exact ⟨h.index, _, hs, hpick⟩
    | none =>
      cases hparent : a.scopes[h.index].parent with
      | none => exact ⟨none, rfl, fun x hx => by cases hx⟩
      | some p =>
        have hlt : p.index < h.index := ha h.index _ p hs hparent
        exact ih (by omega) (by omega)

def Registers (P : Function → Prop) (a : Arena) : Prop :=
  ∀ (i : Nat) (s : Scope) (name : String) (f : Function), a.scopes[i]? = some s →
    s.functions.find? name = some f → f.name = name ∧ P f

theorem registers_fresh : fresh.Registers P := by
  intro i s name f hs hf
  cases i with
  | zero =>
    cases hs
    cases hf
  | succ i => simp [fresh] at hs

theorem Registers.push (ha : a.Registers P) : (a.push h).1.Registers P := by
  intro i s name f hs hf
  simp only [Arena.push, Array.getElem?_push] at hs
  split at hs
  next =>
    cases hs
    cases hf
  next => exact ha i s name f hs hf

theorem Registers.define (ha : a.Registers P) {name : String} {value : Word}
    (hd : a.define h name value = .ok b) : b.Registers P := by
  intro i t other f ht hf
  rw [getElem?_update hd] at ht
  split at ht
  next =>
    obtain ⟨s, hs, rfl⟩ := Option.map_eq_some_iff.1 ht
    exact ha i s other f hs hf
  next => exact ha i t other f ht hf

theorem Registers.defineFunction (ha : a.Registers P) {f : Function} (hf : P f)
    (hd : a.defineFunction h f = .ok b) : b.Registers P := by
  intro i t other g ht hg
  rw [getElem?_update hd] at ht
  split at ht
  next =>
    obtain ⟨s, hs, rfl⟩ := Option.map_eq_some_iff.1 ht
    rw [Bindings.find?_insert] at hg
    split at hg
    next heq =>
      cases hg
      exact ⟨heq.symm, hf⟩
    next => exact ha i s other g hs hg
  next => exact ha i t other g ht hg

theorem Usable.exists_get (ha : a.Usable h) (name : String) : ∃ o, a.get h name = .ok o := by
  obtain ⟨o, ho, -⟩ := ha.descends.exists_search (·.values.find? name) ha.live ha.live
  exact ⟨o, ho⟩

theorem Usable.exists_getFunction (ha : a.Usable h) (hreg : a.Registers P) (name : String) :
    ∃ o, a.getFunction h name = .ok o ∧ ∀ f ∈ o, f.name = name ∧ P f := by
  obtain ⟨o, ho, hfound⟩ := ha.descends.exists_search (·.functions.find? name) ha.live ha.live
  refine ⟨o, ho, fun f hf => ?_⟩
  obtain ⟨i, s, hs, hname⟩ := hfound f hf
  exact hreg i s name f hs hname

end IntScript.Arena
