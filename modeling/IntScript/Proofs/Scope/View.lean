import IntScript.Proofs.Scope.Frame

/-!
# What a scope shows

From a scope one sees its own names and those of the scopes it descends from. Two scopes, of two arenas,
that show the same still do so when both are given the same name, and so do new scopes above them. The
arenas may hold what they show in different scopes, and may hold anything besides.
-/

namespace IntScript.Arena

variable {α : Type} {a b : Arena} {h k : Handle} {pick : Scope → Option α}

def Descends (a : Arena) : Prop :=
  ∀ (i : Nat) (s : Scope) (p : Handle), a.scopes[i]? = some s → s.parent = some p → p.index < i

theorem WellFormed.descends (ha : a.WellFormed) : a.Descends := by
  intro i s p hs hp
  have hscope := ha i s hs
  rw [hp] at hscope
  exact hscope

theorem Descends.frame (ha : a.Descends) (hab : Frame h a b) : b.Descends := by
  intro i t p ht hp
  obtain ⟨s, hs, hparent⟩ := hab.exists_parent_eq ht
  exact ha i s p hs (hparent.symm.trans hp)

theorem Descends.push (ha : a.Descends) (hlive : h.index < a.depth) : (a.push h).1.Descends := by
  intro i s p hs hp
  simp only [Arena.push, Array.getElem?_push] at hs
  split at hs
  next hi =>
    cases hs
    cases hp
    rw [hi]
    exact hlive
  next => exact ha i s p hs hp

theorem search_succ_eq {s t : Scope} {n : Nat} (hs : a.scopes[h.index]? = some s)
    (ht : b.scopes[h.index]? = some t) (hpick : pick t = pick s) (hparent : t.parent = s.parent)
    (hrest : ∀ p, s.parent = some p → b.search pick n p = a.search pick n p) :
    b.search pick (n + 1) h = a.search pick (n + 1) h := by
  rw [search, search, hs, ht]
  dsimp only
  rw [hpick, hparent]
  cases pick s with
  | some x => rfl
  | none =>
    cases hp : s.parent with
    | none => rfl
    | some p => exact hrest p hp

theorem search_congr (ha : a.Descends) {h : Handle} (n : Nat)
    (hsame : ∀ i ≤ h.index, b.scopes[i]? = a.scopes[i]?) :
    b.search pick n h = a.search pick n h := by
  induction n generalizing h with
  | zero => rfl
  | succ n ih =>
    cases hs : a.scopes[h.index]? with
    | none => rw [search, search, hsame h.index (Nat.le_refl _), hs]
    | some s =>
      refine search_succ_eq hs ((hsame _ (Nat.le_refl _)).trans hs) rfl rfl fun p hp => ih ?_
      have hlt := ha h.index s p hs hp
      exact fun i hi => hsame i (by omega)

theorem search_push (ha : a.Descends) (hlive : h.index < a.depth)
    (hpick : pick (.empty (some h)) = none) :
    (a.push h).1.search pick (a.push h).1.depth (a.push h).2 = a.search pick a.depth h := by
  have hdepth : (a.push h).1.depth = a.depth + 1 := by simp [push, depth]
  have hnew : (a.push h).1.scopes[(a.push h).2.index]? = some (.empty (some h)) := by simp [push]
  rw [hdepth, search, hnew]
  dsimp only
  rw [hpick]
  exact search_congr ha a.depth fun i hi => by
    have hlt : i < a.scopes.size := Nat.lt_of_le_of_lt hi hlive
    simp only [push]
    rw [Array.getElem?_push, if_neg (by omega)]

section Update

variable {f : Scope → Scope}

theorem getElem?_update (hu : a.update h f = .ok b) (i : Nat) :
    b.scopes[i]? = if h.index = i then a.scopes[i]?.map f else a.scopes[i]? := by
  rw [update] at hu
  split at hu
  next =>
    cases hu
    rw [Array.getElem?_modify]
  next => cases hu

theorem search_update_of_eq (ha : a.Descends) (hu : a.update h f = .ok b)
    (hparent : ∀ s, (f s).parent = s.parent) (hpick : ∀ s, pick (f s) = pick s) (n : Nat) :
    b.search pick n h = a.search pick n h := by
  cases n with
  | zero => rfl
  | succ n =>
    have hown := getElem?_update hu h.index
    rw [if_pos rfl] at hown
    cases hs : a.scopes[h.index]? with
    | none => rw [search, search, hown, hs, Option.map_none]
    | some s =>
      rw [hs, Option.map_some] at hown
      refine search_succ_eq hs hown (hpick s) (hparent s) fun p hp => search_congr ha n ?_
      have hlt := ha h.index s p hs hp
      intro i hi
      rw [getElem?_update hu, if_neg (by omega)]

theorem search_update_of_some {x : α} (hlive : h.index < a.depth) (hu : a.update h f = .ok b)
    (hpick : ∀ s, pick (f s) = some x) : b.search pick a.depth h = .ok (some x) := by
  obtain ⟨n, hn⟩ : ∃ n, a.depth = n + 1 := ⟨a.depth - 1, by omega⟩
  rw [hn, search, getElem?_update hu, if_pos rfl, Array.getElem?_eq_getElem hlive]
  simp only [Option.map_some, hpick]

end Update

theorem get_define (ha : a.Descends) (hlive : h.index < a.depth) {name : String} {value : Word}
    (hd : a.define h name value = .ok b) (other : String) :
    b.get h other = if other = name then .ok (some value) else a.get h other := by
  rw [get, get, (frame_define hd).depth_eq]
  by_cases heq : other = name
  · rw [if_pos heq]
    exact search_update_of_some hlive hd fun s => by rw [Bindings.find?_insert, if_pos heq]
  · rw [if_neg heq]
    exact search_update_of_eq ha hd (fun _ => rfl)
      (fun s => by rw [Bindings.find?_insert, if_neg heq]) _

theorem getFunction_define (ha : a.Descends) {name : String} {value : Word}
    (hd : a.define h name value = .ok b) (other : String) :
    b.getFunction h other = a.getFunction h other := by
  rw [getFunction, getFunction, (frame_define hd).depth_eq]
  exact search_update_of_eq ha hd (fun _ => rfl) (fun _ => rfl) _

theorem getFunction_defineFunction (ha : a.Descends) (hlive : h.index < a.depth) {f : Function}
    (hd : a.defineFunction h f = .ok b) (other : String) :
    b.getFunction h other = if other = f.name then .ok (some f) else a.getFunction h other := by
  rw [getFunction, getFunction, (frame_defineFunction hd).depth_eq]
  by_cases heq : other = f.name
  · rw [if_pos heq]
    exact search_update_of_some hlive hd fun s => by rw [Bindings.find?_insert, if_pos heq]
  · rw [if_neg heq]
    exact search_update_of_eq ha hd (fun _ => rfl)
      (fun s => by rw [Bindings.find?_insert, if_neg heq]) _

theorem get_defineFunction (ha : a.Descends) {f : Function}
    (hd : a.defineFunction h f = .ok b) (other : String) : b.get h other = a.get h other := by
  rw [get, get, (frame_defineFunction hd).depth_eq]
  exact search_update_of_eq ha hd (fun _ => rfl) (fun _ => rfl) _

/-- Lookups from the handle come to an end: it has a scope, and every parent stands before its scopes. -/
structure Usable (a : Arena) (h : Handle) : Prop where
  descends : a.Descends
  live : h.index < a.depth

theorem usable_singleton {s : Scope} (hs : s.parent = none) : Usable ⟨#[s]⟩ .global := by
  refine ⟨?_, Nat.zero_lt_one⟩
  rintro (_ | i) t p ht hp
  · obtain rfl : s = t := Option.some.inj ht
    rw [hs] at hp
    cases hp
  · simp at ht

theorem Usable.frame (ha : a.Usable h) (hab : Frame h a b) : b.Usable h :=
  ⟨ha.descends.frame hab, by rw [hab.depth_eq]; exact ha.live⟩

theorem Usable.push (ha : a.Usable h) : (a.push h).1.Usable (a.push h).2 :=
  ⟨ha.descends.push ha.live, by simp [Arena.push, depth]⟩

theorem Usable.get_push (ha : a.Usable h) (name : String) :
    (a.push h).1.get (a.push h).2 name = a.get h name :=
  search_push ha.descends ha.live rfl

theorem Usable.getFunction_push (ha : a.Usable h) (name : String) :
    (a.push h).1.getFunction (a.push h).2 name = a.getFunction h name :=
  search_push ha.descends ha.live rfl

/-- Every name means the same from one scope as it does from the other. -/
structure SameView (a : Arena) (h : Handle) (b : Arena) (k : Handle) : Prop where
  left : a.Usable h
  right : b.Usable k
  values : ∀ name, a.get h name = b.get k name
  functions : ∀ name, a.getFunction h name = b.getFunction k name

namespace SameView

theorem define (hv : SameView a h b k) (name : String) (value : Word) :
    ∃ a' b', a.define h name value = .ok a' ∧ b.define k name value = .ok b' ∧
      SameView a' h b' k := by
  obtain ⟨a', ha⟩ : ∃ a', a.define h name value = .ok a' := ⟨_, if_pos hv.left.live⟩
  obtain ⟨b', hb⟩ : ∃ b', b.define k name value = .ok b' := ⟨_, if_pos hv.right.live⟩
  refine ⟨a', b', ha, hb, hv.left.frame (frame_define ha), hv.right.frame (frame_define hb), ?_, ?_⟩
  · intro other
    rw [get_define hv.left.descends hv.left.live ha, get_define hv.right.descends hv.right.live hb,
      hv.values]
  · intro other
    rw [getFunction_define hv.left.descends ha, getFunction_define hv.right.descends hb,
      hv.functions]

theorem defineFunction (hv : SameView a h b k) (f : Function) :
    ∃ a' b', a.defineFunction h f = .ok a' ∧ b.defineFunction k f = .ok b' ∧
      SameView a' h b' k := by
  obtain ⟨a', ha⟩ : ∃ a', a.defineFunction h f = .ok a' := ⟨_, if_pos hv.left.live⟩
  obtain ⟨b', hb⟩ : ∃ b', b.defineFunction k f = .ok b' := ⟨_, if_pos hv.right.live⟩
  refine ⟨a', b', ha, hb, hv.left.frame (frame_defineFunction ha),
    hv.right.frame (frame_defineFunction hb), ?_, ?_⟩
  · intro other
    rw [get_defineFunction hv.left.descends ha, get_defineFunction hv.right.descends hb, hv.values]
  · intro other
    rw [getFunction_defineFunction hv.left.descends hv.left.live ha,
      getFunction_defineFunction hv.right.descends hv.right.live hb, hv.functions]

theorem push (hv : SameView a h b k) :
    SameView (a.push h).1 (a.push h).2 (b.push k).1 (b.push k).2 where
  left := hv.left.push
  right := hv.right.push
  values name := by rw [hv.left.get_push, hv.right.get_push, hv.values]
  functions name := by rw [hv.left.getFunction_push, hv.right.getFunction_push, hv.functions]

end SameView

theorem Usable.sameView_push (ha : a.Usable h) : SameView (a.push h).1 (a.push h).2 a h :=
  ⟨ha.push, ha, ha.get_push, ha.getFunction_push⟩

end IntScript.Arena
