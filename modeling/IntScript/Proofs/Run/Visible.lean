import IntScript.Proofs.Run.Session
import IntScript.Proofs.Scope.View
import Mathlib

/-!
# Runs observe the visible bindings only

What a run does in a scope depends on what names mean there, and on nothing else of the arena: not on
which scopes the names are bound in, nor on how many there are or on what other scopes hold. From two
scopes that show the same, the same part of a program ends the same way and writes the same, and the
two scopes show the same again. So a block does what its statements do without it.
-/

namespace IntScript.Run

open IntScript.Action Arena

variable {ω ω₁ ω₂ α β : Type} {h k : Handle}

structure Alike (R : ω₁ → ω₂ → Prop) (h k : Handle) (m : Machine ω₁) (n : Machine ω₂) : Prop where
  out : R m.out n.out
  view : SameView m.arena h n.arena k

structure SameEnd (R : ω₁ → ω₂ → Prop) (h k : Handle) (x : Except RuntimeError α × Machine ω₁)
    (y : Except RuntimeError α × Machine ω₂) : Prop where
  result : x.1 = y.1
  alike : Alike R h k x.2 y.2

variable {R : ω₁ → ω₂ → Prop}

/-- On machines that are alike, the second part does in its scope what the first does in its own. -/
def Mimics (R : ω₁ → ω₂ → Prop) (h k : Handle) (p : Run ω₁ α) (q : Run ω₂ α) : Prop :=
  ∀ m n, Alike R h k m n → Option.Rel (SameEnd R h k) (p m) (q n)

theorem mimics_ofExcept (x : Except RuntimeError α) :
    Mimics R h k (Action.ofExcept x) (Action.ofExcept x) := by
  intro m n hmn
  exact .some ⟨rfl, hmn⟩

theorem mimics_consult {f g : Arena → Except Fault α}
    (hfg : ∀ a b, SameView a h b k → f a = g b) : Mimics R h k (consult f) (consult g) := by
  intro m n hmn
  rw [consult, consult, hfg _ _ hmn.view]
  split
  · exact .some ⟨rfl, hmn⟩
  · exact .none

theorem mimics_revise {f g : Arena → Except Fault Arena}
    (hfg : ∀ a b, SameView a h b k → ∃ a' b', f a = .ok a' ∧ g b = .ok b' ∧ SameView a' h b' k) :
    Mimics R h k (revise f) (revise g) := by
  intro m n hmn
  obtain ⟨a', b', ha, hb, hview⟩ := hfg _ _ hmn.view
  rw [revise, revise, ha, hb]
  exact .some ⟨rfl, hmn.out, hview⟩

theorem mimics_bind {p : Run ω₁ α} {q : Run ω₂ α} {f : α → Run ω₁ β} {g : α → Run ω₂ β}
    (hpq : Mimics R h k p q) (hfg : ∀ a, Mimics R h k (f a) (g a)) :
    Mimics R h k (p >>= f) (q >>= g) := by
  intro m n hmn
  have hfirst := hpq m n hmn
  rw [bind_apply, bind_apply]
  generalize p m = x, q n = y at hfirst ⊢
  cases hfirst with
  | none => exact .none
  | @some x y hxy =>
    obtain ⟨r, m'⟩ := x
    obtain ⟨r', n'⟩ := y
    obtain ⟨rfl, hend⟩ := hxy
    cases r with
    | error e => exact .some ⟨rfl, hend⟩
    | ok a => exact hfg a m' n' hend

theorem mimics_inScope {p : Handle → Run ω₁ α} {q : Handle → Run ω₂ α}
    (hpq : ∀ h k, Mimics R h k (p h) (q k)) (hp : ∀ h, Keeps h (p h)) (hq : ∀ k, Keeps k (q k)) :
    Mimics R h k (inScope h p) (inScope k q) := by
  -- In their new scopes the parts find what they would find outside, and what they do there is undone.
  intro m n hmn
  have hinner := hpq _ _ { m with arena := (m.arena.push h).1 }
    { n with arena := (n.arena.push k).1 } ⟨hmn.out, hmn.view.push⟩
  rw [inScope_restored hp hmn.view.left.live, inScope_restored hq hmn.view.right.live]
  generalize p _ _ = x, q _ _ = y at hinner ⊢
  cases hinner with
  | none => exact .none
  | some hxy => exact .some ⟨hxy.result, hxy.alike.out, hmn.view⟩

variable [Sink ω₁] [Sink ω₂] [Sink ω]

/-- Sinks in the relation take or refuse a text alike, and stay in the relation. -/
def Lockstep (R : ω₁ → ω₂ → Prop) : Prop :=
  ∀ x y s, R x y → (Sink.write x s).1 = (Sink.write y s).1 ∧ R (Sink.write x s).2 (Sink.write y s).2

theorem mimics_write (hR : Lockstep R) (s : String) : Mimics R h k (write s) (write s) := by
  intro m n hmn
  obtain ⟨hanswer, hstays⟩ := hR m.out n.out s hmn.out
  exact .some ⟨congrArg (Except.mapError _) hanswer, hstays, hmn.view⟩

structure Tracks (R : ω₁ → ω₂ → Prop) (h k : Handle) (p : Run ω₁ α) (q : Run ω₂ α) : Prop where
  mimics : Mimics R h k p q
  left : Keeps h p
  right : Keeps k q

def tracksCongruence (hR : Lockstep R) : Congruence ω₁ ω₂ where
  Rel h k _ p q := Tracks R h k p q
  stuck := ⟨fun _ _ _ => .none, restores_stuck.keeps, restores_stuck.keeps⟩
  ofExcept x := ⟨mimics_ofExcept x, (restores_ofExcept x).keeps, (restores_ofExcept x).keeps⟩
  bind hp hf := ⟨mimics_bind hp.mimics fun a => (hf a).mimics,
    keeps_bind hp.left fun a => (hf a).left, keeps_bind hp.right fun a => (hf a).right⟩
  get name := ⟨mimics_consult fun _ _ hview => hview.values name,
    (restores_consult _).keeps, (restores_consult _).keeps⟩
  getFunction name := ⟨mimics_consult fun _ _ hview => hview.functions name,
    (restores_consult _).keeps, (restores_consult _).keeps⟩
  define name value := ⟨mimics_revise fun _ _ hview => hview.define name value,
    keeps_define _ _, keeps_define _ _⟩
  defineFunction f := ⟨mimics_revise fun _ _ hview => hview.defineFunction f,
    keeps_revise fun _ _ => frame_defineFunction, keeps_revise fun _ _ => frame_defineFunction⟩
  inScope hp :=
    have hleft := fun h => (hp h h).left
    have hright := fun k => (hp k k).right
    ⟨mimics_inScope (fun h k => (hp h k).mimics) hleft hright,
      (restores_inScope hleft).keeps, (restores_inScope hright).keeps⟩
  write s := ⟨mimics_write hR s, (restores_write s).keeps, (restores_write s).keeps⟩

/-- Every statement and every expression ends the same way in the two scopes. -/
def SameRuns (R : ω₁ → ω₂ → Prop) (budget : Nat) (h k : Handle) (m : Machine ω₁)
    (n : Machine ω₂) : Prop :=
  (∀ s, Option.Rel (SameEnd R h k) (execute budget s h m) (execute budget s k n)) ∧
    ∀ e, Option.Rel (SameEnd R h k) (evaluate budget e h m) (evaluate budget e k n)

theorem sameRuns_of_alike (hR : Lockstep R) (budget : Nat) {m : Machine ω₁} {n : Machine ω₂}
    (hmn : Alike R h k m n) : SameRuns R budget h k m n := by
  constructor
  · intro s
    exact ((tracksCongruence hR).rel_execute budget s h k).mimics m n hmn
  · intro e
    exact ((tracksCongruence hR).rel_evaluate budget e h k).mimics m n hmn

theorem lockstep_eq : Lockstep (Eq : ω → ω → Prop) := by
  rintro x _ s rfl
  exact ⟨rfl, rfl⟩

def Appended (t u t' u' : Transcript) : Prop :=
  ∃ s, t'.text = t.text ++ s ∧ u'.text = u.text ++ s

theorem lockstep_appended (t u : Transcript) : Lockstep (Appended t u) := by
  rintro x y s ⟨added, hx, hy⟩
  refine ⟨rfl, added ++ s, ?_, ?_⟩
  · rw [← String.append_assoc, ← hx]
    rfl
  · rw [← String.append_assoc, ← hy]
    rfl

theorem block_rel_statements (budget : Nat) {m : Machine ω} (hm : m.arena.Usable h)
    (ss : List Statement) :
    Option.Rel (fun x y => x.1 = y.1 ∧ x.2.out = y.2.out)
      (execute budget (.block ss) h m) (statements (body budget) h ss m) := by
  let c : Congruence ω ω := tracksCongruence lockstep_eq
  have hinner := (c.rel_statements (c.rel_body budget) (m.arena.push h).2 h ss).mimics
    { m with arena := (m.arena.push h).1 } m ⟨rfl, hm.sameView_push⟩
  rw [execute, statement, inScope_apply]
  generalize (statements (body budget) (m.arena.push h).2 ss : Run ω Flow) _ = x,
    (statements (body budget) h ss : Run ω Flow) m = y at hinner ⊢
  cases hinner with
  | none => exact .none
  | some hxy => exact .some ⟨hxy.result, hxy.alike.out⟩

/-- From scopes that show the same, and into sinks that answer alike, runs end the same way, and the
scopes show the same again. Transcripts are continued by the same text, whatever they hold. A block
gives and writes what its statements do without it. -/
theorem runs_observe_visible_bindings (budget : Nat) {a b : Arena} (hview : SameView a h b k) :
    (∀ R : ω₁ → ω₂ → Prop, Lockstep R → ∀ x y, R x y → SameRuns R budget h k ⟨x, a⟩ ⟨y, b⟩) ∧
    (∀ t u : Transcript, SameRuns (Appended t u) budget h k ⟨t, a⟩ ⟨u, b⟩) ∧
    ∀ (out : ω₁) (ss : List Statement),
      Option.Rel (fun x y => x.1 = y.1 ∧ x.2.out = y.2.out)
        (execute budget (.block ss) h ⟨out, a⟩) (statements (body budget) h ss ⟨out, a⟩) := by
  refine ⟨?_, ?_, ?_⟩
  · intro R hR x y hxy
    exact sameRuns_of_alike hR budget ⟨hxy, hview⟩
  · intro t u
    exact sameRuns_of_alike (lockstep_appended t u) budget ⟨⟨"", by simp, by simp⟩, hview⟩
  · intro out ss
    exact block_rel_statements budget hview.left ss

def sum : Function := ⟨"sum", [], .print [.binary .add (.var "x") (.var "y")]⟩

def spread : Arena :=
  ⟨#[⟨[("x", 1)], [("sum", sum)], none⟩, ⟨[("y", 2)], [], some ⟨0⟩⟩, ⟨[("x", 9)], [], some ⟨1⟩⟩]⟩

def together : Arena := ⟨#[⟨[("y", 2), ("x", 1)], [("sum", sum)], none⟩]⟩

theorem sameView_spread_together : SameView spread ⟨1⟩ together .global := by
  refine ⟨⟨?_, by decide⟩, ⟨?_, by decide⟩, ?_, ?_⟩
  · rintro (_ | _ | _ | i) s p hs hp
    · cases hs
      cases hp
    · cases hs
      cases hp
      decide
    · cases hs
      cases hp
      decide
    · simp [spread] at hs
  · rintro (_ | i) s p hs hp
    · cases hs
      cases hp
    · simp [together] at hs
  · intro name
    by_cases hy : name = "y"
    · subst hy
      rfl
    by_cases hx : name = "x"
    · subst hx
      rfl
    simp [Arena.get, search, depth, spread, together, Handle.global, Bindings.find?_cons_ne, hx, hy]
  · intro name
    by_cases hsum : name = "sum"
    · subst hsum
      rfl
    simp [getFunction, search, depth, spread, together, Handle.global, Bindings.find?_cons_ne, hsum]

theorem runs_observe_visible_bindings_spread : ∃ m : Machine Transcript,
    execute 1 (.expression (.call "sum" [])) .global ⟨⟨"b"⟩, together⟩ = some (.ok .proceed, m) ∧
      m.out.text = "b3\n" := by
  have hspread : ∃ m : Machine Transcript,
      execute 1 (.expression (.call "sum" [])) ⟨1⟩ ⟨⟨"a"⟩, spread⟩ = some (.ok .proceed, m) ∧
        m.out.text = "a3\n" := by
    refine ⟨_, rfl, ?_⟩
    cbv
  obtain ⟨m, hrun, htext⟩ := hspread
  have hruns := (runs_observe_visible_bindings 1 sameView_spread_together).1 (Appended ⟨"a"⟩ ⟨"b"⟩)
    (lockstep_appended _ _) ⟨"a"⟩ ⟨"b"⟩ ⟨"", rfl, rfl⟩
  have hend := hruns.1 (.expression (.call "sum" []))
  rw [hrun] at hend
  generalize (execute 1 _ .global : Run Transcript Flow) _ = y at hend ⊢
  cases hend with
  | @some _ y hxy =>
    obtain ⟨r, n⟩ := y
    obtain ⟨rfl, ⟨added, hx, hy⟩, -⟩ := hxy
    have hadded : added = "3\n" := (String.append_right_inj "a").1 (hx.symm.trans htext)
    rw [hadded] at hy
    exact ⟨n, rfl, hy⟩

end IntScript.Run
