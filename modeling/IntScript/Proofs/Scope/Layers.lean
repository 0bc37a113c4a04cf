import IntScript.Proofs.Run.Environment

/-!
# Environments as arenas

An environment is stored in an arena with its outermost layer first, each scope the parent of the next.
Work in the last scope is work in the innermost layer: a lookup visits all scopes from the last to the
first, a definition changes the last one, and pushing and popping adds a layer and drops it.
-/

namespace IntScript.Environment

def top? : Environment → Option Handle
  | [] => none
  | _ :: ρ => some ⟨ρ.length⟩

def scopes : Environment → List Scope
  | [] => []
  | φ :: ρ => scopes ρ ++ [⟨φ.values, φ.functions, top? ρ⟩]

def arena (ρ : Environment) : Arena := ⟨ρ.scopes.toArray⟩

variable {α : Type} {φ ψ : Layer} {ρ : Environment}

@[simp] theorem length_scopes (ρ : Environment) : ρ.scopes.length = ρ.length := by
  induction ρ with
  | nil => rfl
  | cons φ ρ ih => simp [scopes, ih]

@[simp] theorem depth_arena (ρ : Environment) : ρ.arena.depth = ρ.length := by
  simp [arena, Arena.depth]

theorem push_arena :
    (arena (φ :: ρ)).push ⟨ρ.length⟩ = (arena (.empty :: φ :: ρ), ⟨(φ :: ρ).length⟩) := by
  have hscopes : scopes (.empty :: φ :: ρ) = scopes (φ :: ρ) ++ [.empty (some ⟨ρ.length⟩)] := rfl
  simp [Arena.push, arena, hscopes]

theorem pop_arena : (arena (ψ :: φ :: ρ)).pop ⟨(φ :: ρ).length⟩ = arena (φ :: ρ) := by
  have hmax : max (φ :: ρ).length 1 = (scopes (φ :: ρ)).length := by simp
  have hscopes : scopes (ψ :: φ :: ρ) =
      scopes (φ :: ρ) ++ [⟨ψ.values, ψ.functions, some ⟨ρ.length⟩⟩] := rfl
  rw [Arena.pop, hmax, arena, arena, hscopes, Array.take_eq_extract, List.extract_toArray]
  simp

theorem update_arena {f : Scope → Scope} {φ' : Layer}
    (hf : f ⟨φ.values, φ.functions, top? ρ⟩ = ⟨φ'.values, φ'.functions, top? ρ⟩) :
    (arena (φ :: ρ)).update ⟨ρ.length⟩ f = .ok (arena (φ' :: ρ)) := by
  have hlt : ρ.length < (arena (φ :: ρ)).scopes.size := by simp [arena]
  have hmodify : (arena (φ :: ρ)).scopes.modify ρ.length f = (arena (φ' :: ρ)).scopes := by
    apply Array.ext_getElem?
    intro i
    rw [Array.getElem?_modify]
    simp only [arena, scopes, List.getElem?_toArray]
    by_cases hi : i < ρ.length
    · rw [if_neg (by omega), List.getElem?_append_left (by simpa using hi),
        List.getElem?_append_left (by simpa using hi)]
    · rw [List.getElem?_append_right (by simpa using hi),
        List.getElem?_append_right (by simpa using hi), length_scopes]
      by_cases heq : ρ.length = i
      · subst heq
        simp [hf]
      · have hgt : ρ.length < i := by omega
        rw [if_neg heq, List.getElem?_eq_none (by simp; omega), List.getElem?_eq_none (by simp; omega)]
  rw [Arena.update, if_pos hlt, hmodify]

theorem define_arena (name : String) (value : Word) :
    (arena (φ :: ρ)).define ⟨ρ.length⟩ name value = .ok (arena (φ.assign name value :: ρ)) :=
  update_arena rfl

theorem defineFunction_arena (f : Function) :
    (arena (φ :: ρ)).defineFunction ⟨ρ.length⟩ f = .ok (arena (φ.declare f :: ρ)) :=
  update_arena rfl

theorem search_scopes (pick : Scope → Option α) (φ : Layer) (ρ : Environment) (behind : List Scope)
    {n : Nat} (hn : ρ.length < n) :
    Arena.search ⟨(scopes (φ :: ρ) ++ behind).toArray⟩ pick n ⟨ρ.length⟩ =
      .ok ((scopes (φ :: ρ)).reverse.findSome? pick) := by
  induction ρ generalizing φ behind n with
  | nil =>
    obtain ⟨n, rfl⟩ : ∃ k, n = k + 1 := ⟨n - 1, by omega⟩
    cases hpick : pick ⟨φ.values, φ.functions, none⟩ with
    | some x => simp [Arena.search, scopes, top?, hpick]
    | none => simp [Arena.search, scopes, top?, hpick]
  | cons χ ρ ih =>
    obtain ⟨n, rfl⟩ : ∃ k, n = k + 1 := ⟨n - 1, by omega⟩
    have hlast : (scopes (φ :: χ :: ρ) ++ behind)[(χ :: ρ).length]? =
        some ⟨φ.values, φ.functions, some ⟨ρ.length⟩⟩ := by
      simp [scopes, top?]
    have hscopes : scopes (φ :: χ :: ρ) =
        scopes (χ :: ρ) ++ [⟨φ.values, φ.functions, some ⟨ρ.length⟩⟩] := rfl
    rw [Arena.search, List.getElem?_toArray, hlast]
    dsimp only
    cases hpick : pick ⟨φ.values, φ.functions, some ⟨ρ.length⟩⟩ with
    | some x =>
      rw [hscopes, List.reverse_append]
      simp [hpick]
    | none =>
      have hrest := ih χ (⟨φ.values, φ.functions, some ⟨ρ.length⟩⟩ :: behind)
        (n := n) (by simp only [List.length_cons] at hn; omega)
      rw [hscopes, List.append_assoc, List.singleton_append]
      dsimp only
      rw [hrest, List.reverse_append]
      simp [hpick]

end IntScript.Environment

namespace IntScript

/-- A lookup from the scope visits all scopes of the arena, from the last to the first. -/
def Arena.LooksBack (a : Arena) (h : Handle) : Prop :=
  ∀ {α : Type} (pick : Scope → Option α),
    a.search pick a.depth h = .ok (a.scopes.toList.reverse.findSome? pick)

namespace Environment

variable {φ : Layer} {ρ : Environment}

theorem looksBack_arena (φ : Layer) (ρ : Environment) :
    (arena (φ :: ρ)).LooksBack ⟨ρ.length⟩ := by
  intro α pick
  have hsearch := search_scopes pick φ ρ [] (n := (φ :: ρ).length) (by simp)
  rw [List.append_nil] at hsearch
  rw [depth_arena]
  exact hsearch

theorem findSome?_scopes {α : Type} {pick : Scope → Option α} {f : Layer → Option α}
    (hpick : ∀ φ parent, pick ⟨φ.values, φ.functions, parent⟩ = f φ) (ρ : Environment) :
    ρ.scopes.reverse.findSome? pick = ρ.findSome? f := by
  induction ρ with
  | nil => rfl
  | cons φ ρ ih =>
    rw [scopes, List.reverse_append, List.reverse_singleton, List.singleton_append]
    rw [List.findSome?_cons, List.findSome?_cons, hpick, ih]

theorem get_arena (name : String) :
    (arena (φ :: ρ)).get ⟨ρ.length⟩ name = .ok (value? (φ :: ρ) name) := by
  have hlook := looksBack_arena φ ρ (·.values.find? name)
  rw [Arena.get, hlook]
  exact congrArg Except.ok (findSome?_scopes (fun _ _ => rfl) (φ :: ρ))

theorem getFunction_arena (name : String) :
    (arena (φ :: ρ)).getFunction ⟨ρ.length⟩ name = .ok (function? (φ :: ρ) name) := by
  have hlook := looksBack_arena φ ρ (·.functions.find? name)
  rw [Arena.getFunction, hlook]
  exact congrArg Except.ok (findSome?_scopes (fun _ _ => rfl) (φ :: ρ))

theorem arena_injective {φ φ' : Layer} (h : arena (φ :: ρ) = arena (φ' :: ρ)) : φ = φ' := by
  have hscopes : (arena (φ :: ρ)).scopes.toList = (arena (φ' :: ρ)).scopes.toList := by rw [h]
  simp only [arena, scopes, List.append_cancel_left_eq, List.cons.injEq, Scope.mk.injEq] at hscopes
  obtain ⟨⟨hvalues, hfunctions, -⟩, -⟩ := hscopes
  cases φ
  cases φ'
  simp_all

end Environment

end IntScript
