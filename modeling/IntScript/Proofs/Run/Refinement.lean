import IntScript.Proofs.Run.Complete
import Mathlib

/-!
# Programs and the rules

The arena with its parent handles is one way to keep the layers of an environment. A program gives an
answer if and only if the rules do, which is the same, with the same output and the same global names.
While it runs, the scopes are those of an environment with the current one last, so that a lookup visits
them all from the last to the first.
-/

namespace IntScript

open IntScript.Action Environment Filter

variable {ω : Type} [Sink ω]

/-- A part begins with another one, in the same scope. -/
inductive Part.Begins : {α β : Type} → Part α → Part β → Prop where
  | assign {x e} : Begins (.expression (.assign x e)) (.expression e)
  | negate {e} : Begins (.expression (.negate e)) (.expression e)
  | binary {op left right} : Begins (.expression (.binary op left right)) (.expression left)
  | call {x args} : Begins (.expression (.call x args)) (.expressions args)
  | expressions {e es} : Begins (.expressions (e :: es)) (.expression e)
  | item {e} (hne : ∀ s, e ≠ .text s) : Begins (.item e) (.expression e)
  | items {e es} : Begins (.items (e :: es)) (.item e)
  | run {e} : Begins (.statement (.expression e)) (.expression e)
  | print {es} : Begins (.statement (.print es)) (.items es)
  | set {x e} : Begins (.statement (.assign x e)) (.expression e)
  | ifElse {e s t} : Begins (.statement (.ifElse e s t)) (.expression e)
  | giveBack {e} : Begins (.statement (.giveBack (some e))) (.expression e)
  | statements {s ss} : Begins (.statements (s :: ss)) (.statement s)

/-- What a part does next, in the same scope, when the one it begins with has given a value. -/
inductive Part.GoesOn : {α β γ : Type} → Part α → β → Part γ → Prop where
  | binary {op left right} {a : Word} :
      GoesOn (.expression (.binary op left right)) a (.expression right)
  | expressions {e es} {w : Word} : GoesOn (.expressions (e :: es)) w (.expressions es)
  | items {e es} {s : String} : GoesOn (.items (e :: es)) s (.items es)
  | ifTrue {e s t} {w : Word} (hw : w.toInt ≠ 0) :
      GoesOn (.statement (.ifElse e s t)) w (.statement s)
  | ifFalse {e s t} {w : Word} (hw : w.toInt = 0) :
      GoesOn (.statement (.ifElse e s (some t))) w (.statement t)
  | statements {s ss} : GoesOn (.statements (s :: ss)) Flow.proceed (.statements ss)

/-- A program that starts with this sink comes, with so many nested calls left, to a part of it that is
run in a scope on a machine. -/
inductive Visits (root : Statement) (out : ω) :
    {α : Type} → Nat → Handle → Part α → Machine ω → Prop where
  | start (n : Nat) : Visits root out n .global (.ofRoot root) (.fresh out)
  | begins {α β : Type} {n h m} {p : Part α} {q : Part β} (hp : Visits root out n h p m)
      (hq : p.Begins q) : Visits root out n h q m
  | goesOn {α β γ : Type} {n h m m'} {p : Part α} {q : Part β} {next : Part γ} {a : β}
      (hp : Visits root out n h p m) (hq : p.Begins q) (hrun : q.run n h m = some (.ok a, m'))
      (hnext : p.GoesOn a next) : Visits root out n h next m'
  | block {n h m ss} (hp : Visits root out n h (.statement (.block ss)) m) :
      Visits root out n (m.arena.push h).2 (.statements ss) { m with arena := (m.arena.push h).1 }
  | call {n h m x args ws m₁ f m₂} (hp : Visits root out (n + 1) h (.expression (.call x args)) m)
      (hargs : (Part.expressions args).run (n + 1) h m = some (.ok ws, m₁))
      (hf : m₁.arena.getFunction h x = .ok (some f)) (harity : ws.length = f.parameters.length)
      (hparameters : Run.defineAll (m₁.arena.push h).2 (f.parameters.zip ws)
        { m₁ with arena := (m₁.arena.push h).1 } = some (.ok (), m₂)) :
      Visits root out n (m₁.arena.push h).2 (.statement f.body) m₂

/-- The arena stores an environment whose innermost layer is the scope of the handle. -/
def Stores (h : Handle) (m : Machine ω) : Prop :=
  ∃ φ ρ, h = ⟨ρ.length⟩ ∧ m.arena = arena (φ :: ρ)

omit [Sink ω] in
theorem Stores.looksBack {h : Handle} {m : Machine ω} (hm : Stores h m) :
    m.arena.LooksBack h := by
  obtain ⟨φ, ρ, rfl, harena⟩ := hm
  rw [harena]
  exact looksBack_arena φ ρ

theorem Stores.run {α : Type} {n : Nat} {h : Handle} {m m' : Machine ω} {p : Part α}
    {r : Except RuntimeError α} (hm : Stores h m) (hrun : p.run n h m = some (r, m')) :
    Stores h m' := by
  obtain ⟨o, a⟩ := m
  obtain ⟨φ, ρ, rfl, rfl⟩ := hm
  obtain ⟨φ', o', rfl, -⟩ := sound n p φ ρ o r m' hrun
  exact ⟨φ', ρ, rfl, rfl⟩

omit [Sink ω] in
theorem Stores.push {h : Handle} {m : Machine ω} (hm : Stores h m) :
    ∃ φ ρ, (m.arena.push h) = (arena (.empty :: φ :: ρ), ⟨(φ :: ρ).length⟩) := by
  obtain ⟨φ, ρ, rfl, harena⟩ := hm
  rw [harena]
  exact ⟨φ, ρ, push_arena⟩

theorem stores_of_visits {α : Type} {root : Statement} {out : ω} {n : Nat} {h : Handle}
    {p : Part α} {m : Machine ω} (hvisits : Visits root out n h p m) : Stores h m := by
  induction hvisits with
  | start n => exact ⟨.empty, [], rfl, rfl⟩
  | begins _ _ ih => exact ih
  | goesOn _ _ hrun _ ih => exact ih.run hrun
  | block _ ih =>
    obtain ⟨φ, ρ, hpush⟩ := ih.push
    rw [hpush]
    exact ⟨.empty, φ :: ρ, rfl, rfl⟩
  | call _ hargs _ _ hparameters ih =>
    obtain ⟨φ, ρ, hpush⟩ := (ih.run hargs).push
    rw [hpush] at hparameters ⊢
    rw [Run.defineAll_layers] at hparameters
    cases hparameters
    exact ⟨_, φ :: ρ, rfl, rfl⟩

theorem Run.root_eq (n : Nat) (s : Statement) :
    (Run.root n s : Run ω Flow) = (Part.ofRoot s).run n .global := by
  cases s <;> rfl

theorem Run.program_eq_some_iff {n : Nat} {s : Statement} {m m' : Machine ω}
    {r : Except RuntimeError Unit} :
    Run.program n s m = some (r, m') ↔
      ∃ x, (Part.ofRoot s).run n .global (.fresh m.out) = some (x, m') ∧ r = x.bind Flow.finish := by
  rw [Run.program, bind_eq_ok (modify_apply _ _), bind_eq_some_iff, Run.root_eq]
  constructor
  · rintro (⟨e, he, rfl⟩ | ⟨flow, m₁, hflow, hend⟩)
    · exact ⟨_, he, rfl⟩
    · refine ⟨.ok flow, ?_⟩
      cases flow with
      | proceed =>
        cases hend
        exact ⟨hflow, rfl⟩
      | giveBack w =>
        cases hend
        exact ⟨hflow, rfl⟩
  · rintro ⟨x, hx, rfl⟩
    cases x with
    | error e => exact .inl ⟨e, hx, rfl⟩
    | ok flow =>
      refine .inr ⟨flow, m', hx, ?_⟩
      cases flow with
      | proceed => rfl
      | giveBack w => rfl

def Layer.toArena (φ : Layer) : Arena := ⟨#[⟨φ.values, φ.functions, none⟩]⟩

theorem interprets_of_program {n : Nat} {s : Statement} {m m' : Machine ω}
    {r : Except RuntimeError Unit} (h : Run.program n s m = some (r, m')) :
    ∃ φ, Interprets s m.out r φ m'.out ∧ m'.arena = φ.toArena := by
  obtain ⟨x, hx, rfl⟩ := Run.program_eq_some_iff.1 h
  obtain ⟨φ, o, rfl, hev⟩ := sound n (.ofRoot s) .empty [] m.out x m' hx
  exact ⟨φ, ⟨x, hev, rfl⟩, rfl⟩

theorem program_of_interprets {s : Statement} {out out' : ω} {r : Except RuntimeError Unit}
    {φ : Layer} (h : Interprets s out r φ out') (a : Arena) :
    ∀ᶠ n in atTop, Run.program n s ⟨out, a⟩ = some (r, ⟨out', φ.toArena⟩) := by
  obtain ⟨x, hev, rfl⟩ := h
  obtain ⟨φ', hφ, hsettles⟩ := answers_of_evaluates hev .empty [] rfl
  cases hφ
  filter_upwards [hsettles] with n hn
  exact Run.program_eq_some_iff.2 ⟨x, hn, rfl⟩

theorem Interprets.unique {s : Statement} {out o o' : ω} {r r' : Except RuntimeError Unit}
    {φ φ' : Layer} (h : Interprets s out r φ o) (h' : Interprets s out r' φ' o') :
    r = r' ∧ φ = φ' ∧ o = o' := by
  -- Both derivations are runs, and there is a budget that is enough for both.
  obtain ⟨n, hn, hn'⟩ :=
    ((program_of_interprets h .fresh).and (program_of_interprets h' .fresh)).exists
  rw [hn] at hn'
  simp only [Option.some.injEq, Prod.mk.injEq, Machine.mk.injEq] at hn'
  obtain ⟨hr, ho, harena⟩ := hn'
  exact ⟨hr, arena_injective (ρ := []) harena, ho⟩

/-- A program that ends does what the rules say and nothing else, the rules say what it does, and all
the while lookups visit the scopes from the last to the first. -/
theorem program_follows_rules (root : Statement) :
    (∀ (n : Nat) (m m' : Machine ω) (r : Except RuntimeError Unit),
      Run.program n root m = some (r, m') →
      ∃ φ, Interprets root m.out r φ m'.out ∧ m'.arena = φ.toArena) ∧
    (∀ (m : Machine ω) (r : Except RuntimeError Unit) (φ : Layer) (out' : ω),
      Interprets root m.out r φ out' →
      (∃ n, ∀ k ≥ n, Run.program k root m = some (r, ⟨out', φ.toArena⟩)) ∧
      ∀ r' φ' out'', Interprets root m.out r' φ' out'' → r' = r ∧ φ' = φ ∧ out'' = out') ∧
    ∀ (out : ω) {α : Type} (n : Nat) (h : Handle) (p : Part α) (m : Machine ω),
      Visits root out n h p m → m.arena.LooksBack h ∧
        ∀ r m', p.run n h m = some (r, m') → m'.arena.LooksBack h := by
  refine ⟨?_, ?_, ?_⟩
  · intro n m m' r hrun
    exact interprets_of_program hrun
  · intro m r φ out' hrules
    constructor
    · exact eventually_atTop.1 (program_of_interprets hrules m.arena)
    · intro r' φ' out'' hrules'
      exact hrules'.unique hrules
  · intro out α n h p m hvisits
    have hstores := stores_of_visits hvisits
    constructor
    · exact hstores.looksBack
    · intro r m' hrun
      exact (hstores.run hrun).looksBack

def callersName : Statement := .block
  [.assign "x" (.integer 1),
    .define "inner" [] (.block [.assign "y" (.integer 2), .giveBack (some (.var "x"))]),
    .define "outer" ["x"] (.block [.print [.call "inner" []]]),
    .print [.text "got", .call "outer" [.integer 5], .var "x"]]

theorem program_follows_rules_callersName :
    ∃ φ, Interprets callersName Transcript.empty (.ok ()) φ ⟨"5\ngot 0 1\n"⟩ ∧
      φ.values = [("x", 1)] := by
  have hrun : ∃ m', Run.program 2 callersName (.fresh Transcript.empty) = some (.ok (), m') ∧
      m'.out = ⟨"5\ngot 0 1\n"⟩ ∧
      m'.arena.scopes[0]?.map Scope.values = some [("x", 1)] := by
    refine ⟨_, rfl, ?_, ?_⟩
    · cbv
    · cbv
  obtain ⟨m', hrun, hout, harena⟩ := hrun
  obtain ⟨φ, hrules, hglobals⟩ := (program_follows_rules callersName).1 2 _ m' _ hrun
  rw [hout] at hrules
  rw [hglobals] at harena
  exact ⟨φ, hrules, by simpa [Layer.toArena] using harena⟩

end IntScript
