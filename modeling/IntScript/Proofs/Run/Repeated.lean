import IntScript.Proofs.Run.Budget
import IntScript.Proofs.Run.Visible
import IntScript.Proofs.Tree.Parts

/-!
# Expressions that can be repeated

A call leaves the scopes as its arguments left them, whatever the body of the function does. So an
expression in which nothing is assigned to leaves the scopes as they were, and evaluating it once more
has the same end and writes the same text again.
-/

namespace IntScript.Run

open IntScript.Action Arena

variable {ω : Type} {h : Handle}

section Parts

variable {body : Statement → Handle → Run ω Flow}

mutual

theorem restores_expression (hbody : ∀ s inner, Keeps inner (body s inner)) (h : Handle) :
    ∀ e : Expression, e.AssignFree → Restores h (expression body h e)
  | .integer value, _ => restores_pure value
  | .text _, _ => restores_pure 0
  | .var name, _ => by
    refine restores_bind (restores_consult _) fun o => ?_
    cases o with
    | none => exact restores_fail _
    | some value => exact restores_pure value
  | .assign name e, he => absurd he (Expression.not_assignFree_assign name e)
  | .negate e, he =>
    restores_bind (restores_expression hbody h e (Expression.assignFree_negate.1 he)) fun _ =>
      restores_ofExcept _
  | .binary op left right, he => by
    obtain ⟨hleft, hright⟩ := Expression.assignFree_binary.1 he
    refine restores_bind (restores_expression hbody h left hleft) fun _ => ?_
    exact restores_bind (restores_expression hbody h right hright) fun _ => restores_ofExcept _
  | .call name args, he =>
    restores_bind (restores_expressions hbody h args (Expression.assignFree_call.1 he)) fun values =>
      restores_call hbody name values

theorem restores_expressions (hbody : ∀ s inner, Keeps inner (body s inner)) (h : Handle) :
    ∀ es : List Expression, (∀ e ∈ es, e.AssignFree) → Restores h (expressions body h es)
  | [], _ => restores_pure []
  | e :: es, hes => by
    refine restores_bind (restores_expression hbody h e (hes e List.mem_cons_self)) fun _ => ?_
    exact restores_bind (restores_expressions hbody h es fun e he => hes e (List.mem_cons_of_mem _ he))
      fun _ => restores_pure _

end

theorem keeps_expressions [Sink ω] (hbody : ∀ s inner, Keeps inner (body s inner)) (h : Handle)
    (es : List Expression) : Keeps h (expressions body h es) := by
  have hrel : keepsCongruence.Rel h h (expressions body h es) (expressions body h es) :=
    keepsCongruence.rel_expressions (fun s h _ => hbody s h) h h es
  exact hrel

end Parts

variable [Sink ω] {budget : Nat} {m m' : Machine ω} {r : Except RuntimeError Word}

theorem arena_evaluate {e : Expression} (he : e.AssignFree) (hlive : h.index < m.arena.depth)
    (hrun : evaluate budget e h m = some (r, m')) : m'.arena = m.arena :=
  restores_expression (keeps_body budget) h e he m hlive r m' hrun

theorem arena_call {name : String} {args : List Expression} (hlive : h.index < m.arena.depth)
    (hrun : evaluate budget (.call name args) h m = some (r, m')) :
    ∃ r₁ m₁, expressions (body budget) h args m = some (r₁, m₁) ∧ m'.arena = m₁.arena := by
  -- The arguments may assign. What the call does after them is undone.
  simp only [evaluate, expression] at hrun
  rcases bind_eq_some_iff.1 hrun with ⟨e, he, -⟩ | ⟨values, m₁, hargs, hcall⟩
  · exact ⟨_, m', he, rfl⟩
  · have hframe := keeps_expressions (keeps_body budget) h args m hlive _ _ hargs
    have hlive₁ : h.index < m₁.arena.depth := by
      rw [hframe.depth_eq]
      exact hlive
    exact ⟨_, m₁, hargs, restores_call (keeps_body budget) name values m₁ hlive₁ r m' hcall⟩

theorem evaluate_again {e : Expression} (he : e.AssignFree) {a : Arena} (ha : a.Usable h)
    {t : Transcript} {m' : Machine Transcript} (hrun : evaluate budget e h ⟨t, a⟩ = some (r, m')) :
    ∃ s, m'.out.text = t.text ++ s ∧
      evaluate budget e h m' = some (r, ⟨⟨m'.out.text ++ s⟩, a⟩) := by
  obtain ⟨u, a'⟩ := m'
  obtain rfl : a' = a := arena_evaluate he ha.live hrun
  have hview : SameView a' h a' h := ⟨ha, ha, fun _ => rfl, fun _ => rfl⟩
  have hagain := (sameRuns_of_alike (lockstep_appended t u) budget
    ⟨⟨"", by simp, by simp⟩, hview⟩ (m := ⟨t, a'⟩) (n := ⟨u, a'⟩)).2 e
  rw [hrun] at hagain
  generalize hsecond : (evaluate budget e h : Run Transcript Word) ⟨u, a'⟩ = second at hagain
  cases hagain with
  | @some _ y hxy =>
    obtain ⟨r', v, b⟩ := y
    obtain ⟨rfl, ⟨s, hfirst, hthen⟩, -⟩ := hxy
    obtain rfl : b = a' := arena_evaluate he ha.live hsecond
    obtain ⟨text⟩ := v
    obtain rfl : text = u.text ++ s := hthen
    exact ⟨s, hfirst, rfl⟩

/-- An expression in which nothing is assigned to leaves the scopes as they were, with a value or with
an error. So evaluating it again, with no smaller budget, has the same end and appends the same text. A
call of any function leaves the scopes as the arguments left them. -/
theorem evaluate_repeats {a : Arena} (ha : a.Usable h) :
    (∀ e : Expression, e.AssignFree →
      (∀ (out : ω) r m', evaluate budget e h ⟨out, a⟩ = some (r, m') → m'.arena = a) ∧
      ∀ (t : Transcript) r m', evaluate budget e h ⟨t, a⟩ = some (r, m') →
        ∃ s, m'.out.text = t.text ++ s ∧
          ∀ n ≥ budget, evaluate n e h m' = some (r, ⟨⟨m'.out.text ++ s⟩, a⟩)) ∧
    ∀ name args (out : ω) r m', evaluate budget (.call name args) h ⟨out, a⟩ = some (r, m') →
      ∃ r₁ m₁, expressions (body budget) h args ⟨out, a⟩ = some (r₁, m₁) ∧ m'.arena = m₁.arena := by
  refine ⟨fun e he => ⟨?_, ?_⟩, ?_⟩
  · intro out r m' hrun
    exact arena_evaluate he ha.live hrun
  · intro t r m' hrun
    obtain ⟨s, htext, hagain⟩ := evaluate_again he ha hrun
    exact ⟨s, htext, fun n hn => apply_of_le (evaluate_le hn e h) hagain⟩
  · intro name args out r m' hrun
    exact arena_call ha.live hrun

def tally : Function := ⟨"tally", ["x"], .block
  [.assign "total" (.binary .add (.var "total") (.var "x")),
    .define "tally" [] (.giveBack none),
    .print [.text "so far", .var "total"],
    .giveBack (some (.var "total"))]⟩

def tallied : Arena := ⟨#[⟨[("total", 10)], [("tally", tally)], none⟩]⟩

def tallies : Expression :=
  .binary .add (.call "tally" [.integer 1]) (.call "tally" [.integer 2])

theorem evaluate_repeats_tallies :
    evaluate 1 tallies .global ⟨Transcript.empty, tallied⟩ =
      some (.ok 23, ⟨⟨"so far 11\nso far 12\n"⟩, tallied⟩) ∧
    evaluate 1 tallies .global ⟨(⟨"so far 11\nso far 12\n"⟩ : Transcript), tallied⟩ =
      some (.ok 23, ⟨⟨"so far 11\nso far 12\nso far 11\nso far 12\n"⟩, tallied⟩) := by
  have hfirst : ∃ m : Machine Transcript,
      evaluate 1 tallies .global ⟨Transcript.empty, tallied⟩ = some (.ok 23, m) ∧
        m.out = ⟨"so far 11\nso far 12\n"⟩ := by
    refine ⟨_, rfl, ?_⟩
    cbv
  obtain ⟨⟨t, b⟩, hrun, rfl⟩ := hfirst
  have husable : tallied.Usable .global := usable_singleton rfl
  have hfree : tallies.AssignFree := by
    simp [Expression.AssignFree, tallies, Expression.parts, Expression.partsOf]
  obtain ⟨hkeeps, hrepeats⟩ := (evaluate_repeats (ω := Transcript) husable).1 tallies hfree
  obtain rfl : b = tallied := hkeeps _ _ _ hrun
  obtain ⟨s, htext, hagain⟩ := hrepeats _ _ _ hrun
  have hs : s = "so far 11\nso far 12\n" := by
    rw [Transcript.empty, String.empty_append] at htext
    exact htext.symm
  rw [hs] at hagain
  exact ⟨hrun, hagain 1 (Nat.le_refl 1)⟩

end IntScript.Run
