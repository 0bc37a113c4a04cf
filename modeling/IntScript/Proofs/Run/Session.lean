import IntScript.Proofs.Run.Frame
import Mathlib

/-!
# Sessions

A session makes calls on one machine, each with a budget of its own: it interprets programs, which begin
with fresh scopes, and runs statements, blocks and expressions in the global scope. Every call leaves the
global scope alone in the arena, even one that ends in an error.
-/

namespace IntScript

open IntScript.Action Arena

variable {ω : Type} [Sink ω]

namespace Session

inductive Step : Machine ω → Machine ω → Prop where
  | interpret {m m' : Machine ω} {budget : Nat} {root : Statement} {r : Except RuntimeError Unit}
      (h : Run.program budget root m = some (r, m')) : Step m m'
  | execute {m m' : Machine ω} {budget : Nat} {s : Statement} {r : Except RuntimeError Flow}
      (h : Run.execute budget s .global m = some (r, m')) : Step m m'
  | executeBlock {m m' : Machine ω} {budget : Nat} {ss : List Statement}
      {r : Except RuntimeError Flow} (h : Run.executeBlock budget ss .global m = some (r, m')) :
      Step m m'
  | evaluate {m m' : Machine ω} {budget : Nat} {e : Expression} {r : Except RuntimeError Word}
      (h : Run.evaluate budget e .global m = some (r, m')) : Step m m'

/-- The machine can be met between the calls of a session that began with this sink. -/
def Reaches (out : ω) (m : Machine ω) : Prop := Relation.ReflTransGen Step (.fresh out) m

end Session

namespace Run

theorem keeps_body (budget : Nat) (s : Statement) (h : Handle) :
    Keeps h (body budget s h : Run ω Flow) :=
  keepsCongruence.rel_body budget s h h

theorem keeps_root (budget : Nat) (s : Statement) :
    Keeps .global (root budget s : Run ω Flow) := by
  unfold root
  split
  · exact keeps_statements (keeps_body budget) _ _
  · exact keeps_statement (keeps_body budget) _ _

theorem frame_program {budget : Nat} {s : Statement} {m m' : Machine ω}
    {r : Except RuntimeError Unit} (hrun : program budget s m = some (r, m')) :
    Frame .global .fresh m'.arena := by
  have hlive : Handle.global.index < Arena.fresh.depth := by decide
  rw [program, bind_eq_ok (modify_apply _ _)] at hrun
  rcases bind_eq_some_iff.1 hrun with ⟨e, he, -⟩ | ⟨flow, m₁, hroot, hend⟩
  · exact keeps_root budget s _ hlive _ _ he
  · have hframe := keeps_root budget s _ hlive _ _ hroot
    cases flow with
    | proceed =>
      cases hend
      exact hframe
    | giveBack value =>
      cases hend
      exact hframe

end Run

namespace Session

def Quiet (m : Machine ω) : Prop := m.arena.WellFormed ∧ m.arena.depth = 1

omit [Sink ω] in
theorem quiet_of_frame {a : Arena} {m : Machine ω} (ha : a.WellFormed) (hdepth : a.depth = 1)
    (hframe : Frame .global a m.arena) : Quiet m := by
  constructor
  · exact hframe.wellFormed ha
  · rw [hframe.depth_eq, hdepth]

theorem quiet_of_step {m m' : Machine ω} (hstep : Step m m') (hm : Quiet m) : Quiet m' := by
  obtain ⟨hwell, hdepth⟩ := hm
  have hlive : Handle.global.index < m.arena.depth := by
    rw [hdepth]
    exact Nat.zero_lt_one
  cases hstep with
  | interpret hrun => exact quiet_of_frame wellFormed_fresh rfl (Run.frame_program hrun)
  | execute hrun =>
    have hframe := Run.keeps_statement (Run.keeps_body _) _ _ m hlive _ _ hrun
    exact quiet_of_frame hwell hdepth hframe
  | executeBlock hrun =>
    have hframe := Run.keeps_statement (Run.keeps_body _) _ (.block _) m hlive _ _ hrun
    exact quiet_of_frame hwell hdepth hframe
  | evaluate hrun =>
    have hframe := Run.keeps_expression (Run.keeps_body _) _ _ m hlive _ _ hrun
    exact quiet_of_frame hwell hdepth hframe

theorem quiet_of_reaches {out : ω} {m : Machine ω} (h : Reaches out m) : Quiet m := by
  induction h with
  | refl => exact ⟨wellFormed_fresh, rfl⟩
  | tail _ hstep ih => exact quiet_of_step hstep ih

end Session

namespace Run

/-- Every part of a run keeps to the scope it runs in, however it ends, a block changes no scope at all,
and between the calls of a session only the global scope is there. -/
theorem runs_keep_to_their_scope :
    (∀ (budget : Nat) (h : Handle) (m : Machine ω), h.index < m.arena.depth →
      (∀ s r m', execute budget s h m = some (r, m') → Frame h m.arena m'.arena) ∧
      (∀ ss r m', statements (body budget) h ss m = some (r, m') → Frame h m.arena m'.arena) ∧
      (∀ e r m', evaluate budget e h m = some (r, m') → Frame h m.arena m'.arena) ∧
      (∀ ss r m', executeBlock budget ss h m = some (r, m') → m'.arena = m.arena)) ∧
    ∀ (out : ω) (m : Machine ω), Session.Reaches out m →
      m.arena.WellFormed ∧ m.arena.depth = 1 := by
  constructor
  · intro budget h m hlive
    refine ⟨?_, ?_, ?_, ?_⟩
    · intro s r m' hrun
      exact keeps_statement (keeps_body budget) h s m hlive r m' hrun
    · intro ss r m' hrun
      exact keeps_statements (keeps_body budget) h ss m hlive r m' hrun
    · intro e r m' hrun
      exact keeps_expression (keeps_body budget) h e m hlive r m' hrun
    · intro ss r m' hrun
      have hrestores := restores_inScope (h := h) fun inner =>
        keeps_statements (keeps_body (ω := ω) budget) inner ss
      exact hrestores m hlive r m' hrun
  · exact fun out m hreaches => Session.quiet_of_reaches hreaches

def failingCall : List Statement :=
  [.define "f" ["a"] (.block [.assign "b" (.var "a"),
    .giveBack (some (.binary .div (.var "b") (.integer 0)))]),
    .assign "x" (.call "f" [.integer 1])]

theorem runs_keep_to_their_scope_failingCall :
    ∃ m', executeBlock 1 failingCall .global (.fresh Transcript.empty) =
        some (.error .divisionByZero, m') ∧
      m'.arena = .fresh := by
  have hrun : executeBlock 1 failingCall .global (.fresh Transcript.empty) =
      some (.error .divisionByZero, .fresh Transcript.empty) := by cbv
  refine ⟨_, hrun, ?_⟩
  exact ((runs_keep_to_their_scope.1 1 .global (.fresh Transcript.empty) (by decide)).2.2.2)
    failingCall _ _ hrun

end Run

end IntScript
