import IntScript.Grammar.SyntaxError
import IntScript.Proofs.Token.Joined

/-!
# Tokens stand one after the other

A position is before another one if it is further up, or further left on the same line. Each token of a text
is before all that follow it, the end mark included, so no two of them stand in one position.
-/

namespace IntScript

def Position.Before (p q : Position) : Prop := p.line < q.line ∨ p.line = q.line ∧ p.column < q.column

def Place.position (p : Place) : Position := ⟨p.line, p.column⟩

namespace Position.Before

variable {p q r : Position}

theorem trans (h : p.Before q) (h' : q.Before r) : p.Before r := by
  unfold Before at *
  omega

theorem ne (h : p.Before q) : p ≠ q := by
  rintro rfl
  unfold Before at h
  omega

end Position.Before

variable {p q : Place} {cs : List Char} {ts : List Token} {last : Token}

theorem Place.before_step (p : Place) (c : Char) : p.position.Before (p.step c).position := by
  unfold step
  split
  · exact .inl (Nat.lt_succ_self p.line)
  · exact .inr ⟨rfl, Nat.lt_succ_self p.column⟩

theorem Place.before_past (p : Place) (h : cs ≠ []) : p.position.Before (p.past cs).position := by
  induction cs generalizing p with
  | nil => exact absurd rfl h
  | cons c cs ih =>
    rw [past_cons]
    have hstep := p.before_step c
    by_cases hcs : cs = []
    · rw [hcs]
      exact hstep
    · exact hstep.trans (ih (p.step c) hcs)

namespace Token

theorem Segmented.before (h : Segmented p cs ts (.ok last)) :
    (ts ++ [last]).Pairwise (fun t u => t.position.Before u.position) ∧
      ∀ t ∈ ts ++ [last], p.position = t.position ∨ p.position.Before t.position := by
  generalize hlast : (Except.ok last : Except LexError Token) = result at h
  have hpast (p : Place) (cs : List Char) :
      p.position = (p.past cs).position ∨ p.position.Before (p.past cs).position := by
    by_cases hcs : cs = []
    · exact .inl (by rw [hcs]; rfl)
    · exact .inr (p.before_past hcs)
  induction h with
  | @finished p cs hgap =>
    cases hlast
    refine ⟨List.pairwise_singleton _ _, fun t ht => ?_⟩
    obtain rfl := List.mem_singleton.1 ht
    exact hpast p cs
  | unclosed => cases hlast
  | @token p q cs skipped text piece ts result hcs hgap hq hpiece _ ih =>
    subst hcs hq
    obtain ⟨hrest, hbehind⟩ := ih hlast
    have htoken : (ofPiece piece (p.past skipped) ((p.past skipped).past piece.taken)).position =
        (p.past skipped).position := rfl
    obtain ⟨c, rest, -, hread⟩ := hpiece.reads
    have hends := (p.past skipped).before_past (readPiece_taken_ne_nil hread)
    have hlater : ∀ t ∈ ts ++ [last], (p.past skipped).position.Before t.position := by
      intro t ht
      obtain heq | hbefore := hbehind t ht
      · exact heq ▸ hends
      · exact hends.trans hbefore
    refine ⟨List.pairwise_cons.2 ⟨hlater, hrest⟩, fun t ht => ?_⟩
    rcases List.mem_cons.1 ht with rfl | ht
    · exact hpast p skipped
    · obtain heq | hbefore := hpast p skipped
      · exact .inr (heq ▸ hlater t ht)
      · exact .inr (hbefore.trans (hlater t ht))

theorem before_of_tokenize {source : String} (h : tokenize source = .ok ts) :
    ts.Pairwise fun t u => t.position.Before u.position := by
  obtain ⟨ts, q, rfl, hsegments⟩ := exists_segmented_of_tokenize h
  exact hsegments.before.1

end Token

end IntScript
