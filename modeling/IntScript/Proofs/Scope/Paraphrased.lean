import IntScript.Proofs.Scope.View
import IntScript.Proofs.Tree.Paraphrase

/-!
# Scopes that show a paraphrase

Two scopes match if the second shows under the new names what the first shows under the old ones, with
every function paraphrased. They may do so with other scopes behind them, and they still match when both
are given a name and its paraphrase.
-/

namespace IntScript.Paraphrase

open Arena

variable {P : Paraphrase} {a b : Arena} {h k : Handle}

structure Matches (P : Paraphrase) (a : Arena) (h : Handle) (b : Arena) (k : Handle) : Prop where
  left : a.Usable h
  right : b.Usable k
  values : ∀ name, b.get k (P.variableName name) = a.get h name
  functions : ∀ name,
    b.getFunction k (P.functionName name) = (a.getFunction h name).map (Option.map P.function)

namespace Matches

theorem define (hm : P.Matches a h b k) (name : String) (value : Word) :
    ∃ a' b', a.define h name value = .ok a' ∧ b.define k (P.variableName name) value = .ok b' ∧
      P.Matches a' h b' k := by
  obtain ⟨a', ha⟩ : ∃ a', a.define h name value = .ok a' := ⟨_, if_pos hm.left.live⟩
  obtain ⟨b', hb⟩ : ∃ b', b.define k (P.variableName name) value = .ok b' :=
    ⟨_, if_pos hm.right.live⟩
  refine ⟨a', b', ha, hb, hm.left.frame (frame_define ha), hm.right.frame (frame_define hb), ?_, ?_⟩
  · intro other
    rw [get_define hm.left.descends hm.left.live ha, get_define hm.right.descends hm.right.live hb,
      hm.values]
    simp only [P.variableName_injective.eq_iff]
  · intro other
    rw [getFunction_define hm.left.descends ha, getFunction_define hm.right.descends hb,
      hm.functions]

theorem defineFunction (hm : P.Matches a h b k) (f : Function) :
    ∃ a' b', a.defineFunction h f = .ok a' ∧ b.defineFunction k (P.function f) = .ok b' ∧
      P.Matches a' h b' k := by
  obtain ⟨a', ha⟩ : ∃ a', a.defineFunction h f = .ok a' := ⟨_, if_pos hm.left.live⟩
  obtain ⟨b', hb⟩ : ∃ b', b.defineFunction k (P.function f) = .ok b' :=
    ⟨_, if_pos hm.right.live⟩
  refine ⟨a', b', ha, hb, hm.left.frame (frame_defineFunction ha),
    hm.right.frame (frame_defineFunction hb), ?_, ?_⟩
  · intro other
    rw [get_defineFunction hm.left.descends ha, get_defineFunction hm.right.descends hb, hm.values]
  · intro other
    rw [getFunction_defineFunction hm.left.descends hm.left.live ha,
      getFunction_defineFunction hm.right.descends hm.right.live hb, hm.functions, name_function]
    by_cases hother : other = f.name
    · rw [if_pos hother, if_pos (congrArg P.functionName hother)]
      rfl
    · rw [if_neg hother, if_neg fun heq => hother (P.functionName_injective heq)]

theorem push (hm : P.Matches a h b k) :
    P.Matches (a.push h).1 (a.push h).2 (b.push k).1 (b.push k).2 where
  left := hm.left.push
  right := hm.right.push
  values name := by rw [hm.left.get_push, hm.right.get_push, hm.values]
  functions name := by rw [hm.left.getFunction_push, hm.right.getFunction_push, hm.functions]

theorem push_right (hm : P.Matches a h b k) : P.Matches a h (b.push k).1 (b.push k).2 where
  left := hm.left
  right := hm.right.push
  values name := by rw [hm.right.get_push, hm.values]
  functions name := by rw [hm.right.getFunction_push, hm.functions]

end Matches

theorem matches_fresh : P.Matches .fresh .global .fresh .global where
  left := usable_singleton rfl
  right := usable_singleton rfl
  values _ := rfl
  functions _ := rfl

end IntScript.Paraphrase
