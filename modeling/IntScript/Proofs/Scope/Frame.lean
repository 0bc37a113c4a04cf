import IntScript.Scope.Arena

/-!
# What a change of the scopes leaves as it was

A frame says that work in one scope has touched no other: their number is the same, the other scopes are
the same, and the scope itself has kept its parent and every name it had. Pushing a scope, working in it
and popping it again gives back the arena as it was.
-/

namespace IntScript

structure Scope.Grows (s t : Scope) : Prop where
  parent : t.parent = s.parent
  values : ∀ name, (s.values.find? name).isSome = true → (t.values.find? name).isSome = true
  functions : ∀ name,
    (s.functions.find? name).isSome = true → (t.functions.find? name).isSome = true

theorem Scope.Grows.refl (s : Scope) : s.Grows s :=
  ⟨rfl, fun _ h => h, fun _ h => h⟩

theorem Scope.Grows.trans {s t u : Scope} (hst : s.Grows t) (htu : t.Grows u) : s.Grows u :=
  ⟨htu.parent.trans hst.parent, fun x h => htu.values x (hst.values x h),
    fun x h => htu.functions x (hst.functions x h)⟩

theorem Bindings.isSome_find?_insert {α : Type} (b : Bindings α) (key : String) (value : α)
    {name : String} (h : (b.find? name).isSome = true) :
    ((b.insert key value).find? name).isSome = true := by
  rw [find?_insert]
  by_cases heq : name = key
  · simp [heq]
  · rw [if_neg heq]
    exact h

namespace Arena

/-- The first scope has no parent, and every other one has a parent below it. -/
def WellFormed (a : Arena) : Prop :=
  ∀ (i : Nat) (s : Scope), a.scopes[i]? = some s →
    match s.parent with
    | none => i = 0
    | some p => p.index < i

structure Frame (h : Handle) (a b : Arena) : Prop where
  depth_eq : b.depth = a.depth
  others : ∀ i, i ≠ h.index → b.scopes[i]? = a.scopes[i]?
  own : ∀ s : Scope, a.scopes[h.index]? = some s → ∃ t, b.scopes[h.index]? = some t ∧ s.Grows t

variable {h : Handle} {a b c : Arena}

theorem Frame.refl (h : Handle) (a : Arena) : Frame h a a :=
  ⟨rfl, fun _ _ => rfl, fun s hs => ⟨s, hs, .refl s⟩⟩

theorem Frame.trans (hab : Frame h a b) (hbc : Frame h b c) : Frame h a c := by
  refine ⟨hbc.depth_eq.trans hab.depth_eq, fun i hi => (hbc.others i hi).trans (hab.others i hi), ?_⟩
  intro s hs
  obtain ⟨t, ht, hst⟩ := hab.own s hs
  obtain ⟨u, hu, htu⟩ := hbc.own t ht
  exact ⟨u, hu, hst.trans htu⟩

theorem Frame.exists_parent_eq (hab : Frame h a b) {i : Nat} {t : Scope}
    (ht : b.scopes[i]? = some t) : ∃ s, a.scopes[i]? = some s ∧ t.parent = s.parent := by
  by_cases hi : i = h.index
  · subst hi
    have hlt : h.index < a.scopes.size := by
      have hsize : h.index < b.scopes.size := (Array.getElem?_eq_some_iff.1 ht).1
      have hdepth : b.scopes.size = a.scopes.size := hab.depth_eq
      omega
    have hs := Array.getElem?_eq_getElem hlt
    obtain ⟨t', ht', hgrows⟩ := hab.own _ hs
    rw [ht] at ht'
    cases ht'
    exact ⟨_, hs, hgrows.parent⟩
  · rw [hab.others i hi] at ht
    exact ⟨t, ht, rfl⟩

theorem Frame.wellFormed (hab : Frame h a b) (ha : a.WellFormed) : b.WellFormed := by
  intro i t ht
  obtain ⟨s, hs, hparent⟩ := hab.exists_parent_eq ht
  rw [hparent]
  exact ha i s hs

theorem frame_update {f : Scope → Scope} (hf : ∀ s : Scope, s.Grows (f s)) (hu : a.update h f = .ok b) :
    Frame h a b := by
  rw [update] at hu
  split at hu
  next hlt =>
    cases hu
    refine ⟨Array.size_modify, fun i hi => ?_, fun s hs => ⟨f s, ?_, hf s⟩⟩
    · rw [Array.getElem?_modify, if_neg (Ne.symm hi)]
    · rw [Array.getElem?_modify, if_pos rfl, hs]
      rfl
  next => cases hu

theorem frame_define {name : String} {value : Word} (hd : a.define h name value = .ok b) :
    Frame h a b := by
  apply frame_update _ hd
  intro s
  exact ⟨rfl, fun _ hx => Bindings.isSome_find?_insert s.values name value hx, fun _ hx => hx⟩

theorem frame_defineFunction {f : Function} (hd : a.defineFunction h f = .ok b) : Frame h a b := by
  apply frame_update _ hd
  intro s
  exact ⟨rfl, fun _ hx => hx, fun _ hx => Bindings.isSome_find?_insert s.functions f.name f hx⟩

theorem pop_eq_of_frame {parent : Handle} (hpos : 0 < a.depth)
    (hf : Frame (a.push parent).2 (a.push parent).1 b) : b.pop (a.push parent).2 = a := by
  have hindex : (a.push parent).2.index = a.scopes.size := rfl
  have hsize : b.scopes.size = a.scopes.size + 1 := by
    have hdepth := hf.depth_eq
    simpa [depth, push] using hdepth
  have hmax : max a.scopes.size 1 = a.scopes.size := by
    have hpos : 0 < a.scopes.size := hpos
    omega
  have hscopes : b.scopes.take a.scopes.size = a.scopes := by
    apply Array.ext_getElem?
    intro i
    rw [Array.take_eq_extract, Array.getElem?_extract]
    by_cases hi : i < a.scopes.size
    · have hother := hf.others i (by omega)
      rw [if_pos (by omega), Nat.zero_add, hother]
      simp only [push]
      rw [Array.getElem?_push, if_neg (by omega)]
    · rw [if_neg (by omega), Array.getElem?_eq_none (by omega)]
  rw [pop, hindex, hmax, hscopes]

theorem wellFormed_fresh : fresh.WellFormed := by
  intro i s hs
  cases i with
  | zero =>
    cases hs
    rfl
  | succ i => simp [fresh] at hs

end Arena

end IntScript
