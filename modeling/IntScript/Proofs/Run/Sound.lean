import IntScript.Proofs.Action.Triple
import IntScript.Proofs.Scope.Layers

/-!
# Runs follow the rules

A machine whose arena stores an environment, run in its last scope, does what the rules for environments
say: every answer of a run is derivable, and it leaves the outer layers untouched.
-/

namespace IntScript

open IntScript.Action Environment

variable {ω α : Type} [Sink ω] {φ : Layer} {ρ : Environment} {o : ω} {n : Nat}

def Part.run (budget : Nat) (h : Handle) : {α : Type} → Part α → Run ω α
  | _, .expression e => Run.expression (Run.body budget) h e
  | _, .expressions es => Run.expressions (Run.body budget) h es
  | _, .item e => Run.item (Run.body budget) h e
  | _, .items es => Run.items (Run.body budget) h es
  | _, .statement s => Run.statement (Run.body budget) h s
  | _, .statements ss => Run.statements (Run.body budget) h ss

namespace Run

omit [Sink ω] in
theorem define_layers (name : String) (value : Word) :
    define ⟨ρ.length⟩ name value ⟨o, arena (φ :: ρ)⟩ =
      some (.ok (), ⟨o, arena (φ.assign name value :: ρ)⟩) := by
  simp [define, revise, define_arena]

omit [Sink ω] in
theorem defineAll_layers (bindings : List (String × Word)) (φ : Layer) :
    defineAll ⟨ρ.length⟩ bindings ⟨o, arena (φ :: ρ)⟩ =
      some (.ok (), ⟨o, arena (φ.assignAll bindings :: ρ)⟩) := by
  induction bindings generalizing φ with
  | nil => rfl
  | cons binding bindings ih =>
    obtain ⟨name, value⟩ := binding
    rw [defineAll, bind_eq_ok (define_layers name value)]
    exact ih _

omit [Sink ω] in
theorem defineFunction_layers (f : Function) :
    revise (fun a => a.defineFunction ⟨ρ.length⟩ f) ⟨o, arena (φ :: ρ)⟩ =
      some (.ok (), ⟨o, arena (φ.declare f :: ρ)⟩) := by
  simp [revise, defineFunction_arena]

omit [Sink ω] in
theorem get_layers (name : String) :
    consult (·.get ⟨ρ.length⟩ name) ⟨o, arena (φ :: ρ)⟩ =
      some (.ok (value? (φ :: ρ) name), ⟨o, arena (φ :: ρ)⟩) := by
  simp [consult, get_arena]

omit [Sink ω] in
theorem getFunction_layers (name : String) :
    consult (·.getFunction ⟨ρ.length⟩ name) ⟨o, arena (φ :: ρ)⟩ =
      some (.ok (function? (φ :: ρ) name), ⟨o, arena (φ :: ρ)⟩) := by
  simp [consult, getFunction_arena]

omit [Sink ω] in
theorem inScope_layers {p : Handle → Run ω α} {r : Except RuntimeError α} {ψ : Layer} {o' : ω}
    (h : p ⟨(φ :: ρ).length⟩ ⟨o, arena (.empty :: φ :: ρ)⟩ =
      some (r, ⟨o', arena (ψ :: φ :: ρ)⟩)) :
    inScope ⟨ρ.length⟩ p ⟨o, arena (φ :: ρ)⟩ = some (r, ⟨o', arena (φ :: ρ)⟩) := by
  rw [inScope_apply, push_arena, h, Option.map_some, pop_arena]

omit [Sink ω] in
theorem of_inScope_layers {p : Handle → Run ω α} {r : Except RuntimeError α} {m' : Machine ω}
    (h : inScope ⟨ρ.length⟩ p ⟨o, arena (φ :: ρ)⟩ = some (r, m')) :
    ∃ m₁, p ⟨(φ :: ρ).length⟩ ⟨o, arena (.empty :: φ :: ρ)⟩ = some (r, m₁) ∧
      m' = { m₁ with arena := m₁.arena.pop ⟨(φ :: ρ).length⟩ } := by
  rw [inScope_apply, push_arena] at h
  obtain ⟨x, hp, hx⟩ := Option.map_eq_some_iff.1 h
  cases hx
  exact ⟨x.2, hp, rfl⟩

theorem write_print (shown : List String) (a : Arena) :
    (write (spaced shown ++ "\n") >>= fun _ => pure .proceed : Run ω Flow) ⟨o, a⟩ =
      some ((Sink.print o shown).1, ⟨(Sink.print o shown).2, a⟩) := by
  rw [Sink.print, bind_apply]
  simp only [write]
  cases (Sink.write o (spaced shown ++ "\n")).1 with
  | ok _ => rfl
  | error _ => rfl

end Run

/-- Every answer of the part in the innermost layer of an environment follows from the rules and
leaves the outer layers as they were. -/
def Sound (n : Nat) (p : Part α) : Prop :=
  ∀ φ ρ (o : ω) r m', p.run n ⟨ρ.length⟩ ⟨o, arena (φ :: ρ)⟩ = some (r, m') →
    ∃ φ' o', m' = ⟨o', arena (φ' :: ρ)⟩ ∧ Evaluates (φ :: ρ) o p r (φ' :: ρ) o'

def SoundBody (ω : Type) [Sink ω] (n : Nat) : Prop :=
  ∀ s φ ρ (o : ω) r m', Run.body n s ⟨ρ.length⟩ ⟨o, arena (φ :: ρ)⟩ = some (r, m') →
    ∃ φ' o', m' = ⟨o', arena (φ' :: ρ)⟩ ∧
      Evaluates (φ :: ρ) o (.statement s) r (φ' :: ρ) o'

theorem Sound.bind_cases {β : Type} {p : Part α} {f : α → Run ω β} {φ : Layer} {ρ : Environment} {o : ω}
    {r : Except RuntimeError β} {m' : Machine ω} (hp : Sound (ω := ω) n p)
    (hrun : (p.run n ⟨ρ.length⟩ >>= f) ⟨o, arena (φ :: ρ)⟩ = some (r, m')) :
    (∃ k φ' o', r = .error k ∧ m' = ⟨o', arena (φ' :: ρ)⟩ ∧
        Evaluates (φ :: ρ) o p (.error k) (φ' :: ρ) o') ∨
      ∃ a φ₁ o₁, Evaluates (φ :: ρ) o p (.ok a) (φ₁ :: ρ) o₁ ∧
        f a ⟨o₁, arena (φ₁ :: ρ)⟩ = some (r, m') := by
  rcases bind_eq_some_iff.1 hrun with ⟨k, hk, rfl⟩ | ⟨a, m₁, ha, hrest⟩
  · obtain ⟨φ', o', rfl, hev⟩ := hp φ ρ o _ m' hk
    exact .inl ⟨k, φ', o', rfl, rfl, hev⟩
  · obtain ⟨φ₁, o₁, rfl, hev⟩ := hp φ ρ o _ m₁ ha
    exact .inr ⟨a, φ₁, o₁, hev, hrest⟩

theorem sound_call (hbody : SoundBody ω n) {name : String} {args : List Expression}
    (hargs : Sound (ω := ω) n (.expressions args)) :
    Sound (ω := ω) n (.expression (.call name args)) := by
  intro φ ρ o r m' hrun
  simp only [Part.run, Run.expression] at hrun
  rcases hargs.bind_cases hrun with ⟨e, φ', o', rfl, rfl, hev⟩ | ⟨ws, φ₁, o₁, hev, hcall⟩
  · exact ⟨φ', o', rfl, .callFails hev⟩
  · rw [Run.call, bind_eq_ok (Run.getFunction_layers name)] at hcall
    cases hf : function? (φ₁ :: ρ) name with
    | none =>
      rw [hf] at hcall
      cases hcall
      exact ⟨φ₁, o₁, rfl, .callUndefined hev hf⟩
    | some f =>
      rw [hf] at hcall
      dsimp only at hcall
      by_cases harity : ws.length = f.parameters.length
      · rw [if_neg (by simpa using harity)] at hcall
        have hinner {x : Except RuntimeError Flow} {m₂ : Machine ω}
            (hx : Run.inScope ⟨ρ.length⟩ (fun inner => do
              let _ ← Run.defineAll inner (f.parameters.zip ws)
              Run.body n f.body inner) ⟨o₁, arena (φ₁ :: ρ)⟩ = some (x, m₂)) :
            ∃ ψ o₂, m₂ = ⟨o₂, arena (φ₁ :: ρ)⟩ ∧
              Evaluates (Layer.empty.assignAll (f.parameters.zip ws) :: φ₁ :: ρ) o₁
                (.statement f.body) x (ψ :: φ₁ :: ρ) o₂ := by
          obtain ⟨m₃, hp, rfl⟩ := Run.of_inScope_layers hx
          rw [bind_eq_ok (Run.defineAll_layers _ _)] at hp
          obtain ⟨ψ, o₂, rfl, hbodyEv⟩ := hbody _ _ _ _ _ _ hp
          exact ⟨ψ, o₂, by rw [pop_arena], hbodyEv⟩
        rcases bind_eq_some_iff.1 hcall with ⟨e, he, rfl⟩ | ⟨flow, m₂, hflow, hpure⟩
        · obtain ⟨ψ, o₂, rfl, hbodyEv⟩ := hinner he
          exact ⟨φ₁, o₂, rfl, .call hev hf harity hbodyEv⟩
        · obtain ⟨ψ, o₂, rfl, hbodyEv⟩ := hinner hflow
          cases hpure
          exact ⟨φ₁, o₂, rfl, .call hev hf harity hbodyEv⟩
      · rw [if_pos harity] at hcall
        cases hcall
        exact ⟨φ₁, o₁, rfl, .callArity hev hf harity⟩

mutual

theorem sound_expression (hbody : SoundBody ω n) :
    ∀ e, Sound (ω := ω) n (.expression e)
  | .integer value => by
    intro φ ρ o r m' hrun
    cases hrun
    exact ⟨φ, o, rfl, .integer⟩
  | .text s => by
    intro φ ρ o r m' hrun
    cases hrun
    exact ⟨φ, o, rfl, .text⟩
  | .var name => by
    intro φ ρ o r m' hrun
    simp only [Part.run, Run.expression] at hrun
    rw [bind_eq_ok (Run.get_layers name)] at hrun
    cases hx : value? (φ :: ρ) name with
    | none =>
      rw [hx] at hrun
      cases hrun
      exact ⟨φ, o, rfl, .unbound hx⟩
    | some w =>
      rw [hx] at hrun
      cases hrun
      exact ⟨φ, o, rfl, .var hx⟩
  | .assign name e => by
    intro φ ρ o r m' hrun
    simp only [Part.run, Run.expression] at hrun
    rcases (sound_expression hbody e).bind_cases hrun with
        ⟨k, φ', o', rfl, rfl, hev⟩ | ⟨w, φ₁, o₁, hev, hrest⟩
    · exact ⟨φ', o', rfl, .assignFails hev⟩
    · rw [bind_eq_ok (Run.define_layers name w)] at hrest
      cases hrest
      exact ⟨_, o₁, rfl, .assign hev⟩
  | .negate e => by
    intro φ ρ o r m' hrun
    simp only [Part.run, Run.expression] at hrun
    rcases (sound_expression hbody e).bind_cases hrun with
        ⟨k, φ', o', rfl, rfl, hev⟩ | ⟨w, φ₁, o₁, hev, hrest⟩
    · exact ⟨φ', o', rfl, .negate hev⟩
    · cases hrest
      exact ⟨φ₁, o₁, rfl, .negate hev⟩
  | .binary op left right => by
    intro φ ρ o r m' hrun
    simp only [Part.run, Run.expression] at hrun
    rcases (sound_expression hbody left).bind_cases hrun with
        ⟨k, φ', o', rfl, rfl, hev⟩ | ⟨a, φ₁, o₁, hleft, hrest⟩
    · exact ⟨φ', o', rfl, .binaryFails hev⟩
    · rcases (sound_expression hbody right).bind_cases hrest with
          ⟨k, φ₂, o₂, rfl, rfl, hright⟩ | ⟨b, φ₂, o₂, hright, happly⟩
      · exact ⟨φ₂, o₂, rfl, .binary hleft hright⟩
      · cases happly
        exact ⟨φ₂, o₂, rfl, .binary hleft hright⟩
  | .call name args => sound_call hbody (sound_expressions hbody args)

theorem sound_expressions (hbody : SoundBody ω n) :
    ∀ es, Sound (ω := ω) n (.expressions es)
  | [] => by
    intro φ ρ o r m' hrun
    cases hrun
    exact ⟨φ, o, rfl, .noExpressions⟩
  | e :: es => by
    intro φ ρ o r m' hrun
    simp only [Part.run, Run.expressions] at hrun
    rcases (sound_expression hbody e).bind_cases hrun with
        ⟨k, φ', o', rfl, rfl, hev⟩ | ⟨w, φ₁, o₁, hhead, hrest⟩
    · exact ⟨φ', o', rfl, .expressionsFail hev⟩
    · rcases (sound_expressions hbody es).bind_cases hrest with
          ⟨k, φ₂, o₂, rfl, rfl, htail⟩ | ⟨ws, φ₂, o₂, htail, hpure⟩
      · exact ⟨φ₂, o₂, rfl, .expressions hhead htail⟩
      · cases hpure
        exact ⟨φ₂, o₂, rfl, .expressions hhead htail⟩

end

theorem sound_item (hbody : SoundBody ω n) (e : Expression) : Sound (ω := ω) n (.item e) := by
  intro φ ρ o r m' hrun
  by_cases htext : ∃ s, e = .text s
  · obtain ⟨s, rfl⟩ := htext
    cases hrun
    exact ⟨φ, o, rfl, .shownText⟩
  · have hne : ∀ s, e ≠ .text s := fun s hs => htext ⟨s, hs⟩
    simp only [Part.run] at hrun
    rw [Run.item.eq_2 _ _ _ hne] at hrun
    rcases (sound_expression hbody e).bind_cases hrun with
        ⟨k, φ', o', rfl, rfl, hev⟩ | ⟨w, φ', o', hev, hpure⟩
    · exact ⟨φ', o', rfl, .shownValue hne hev⟩
    · cases hpure
      exact ⟨φ', o', rfl, .shownValue hne hev⟩

theorem sound_items (hbody : SoundBody ω n) (es : List Expression) :
    Sound (ω := ω) n (.items es) := by
  induction es with
  | nil =>
    intro φ ρ o r m' hrun
    cases hrun
    exact ⟨φ, o, rfl, .noItems⟩
  | cons e es ih =>
    intro φ ρ o r m' hrun
    simp only [Part.run, Run.items] at hrun
    rcases (sound_item hbody e).bind_cases hrun with
        ⟨k, φ', o', rfl, rfl, hev⟩ | ⟨s, φ₁, o₁, hhead, hrest⟩
    · exact ⟨φ', o', rfl, .itemsFail hev⟩
    · rcases ih.bind_cases hrest with
          ⟨k, φ₂, o₂, rfl, rfl, htail⟩ | ⟨shown, φ₂, o₂, htail, hpure⟩
      · exact ⟨φ₂, o₂, rfl, .items hhead htail⟩
      · cases hpure
        exact ⟨φ₂, o₂, rfl, .items hhead htail⟩

mutual

theorem sound_statement (hbody : SoundBody ω n) : ∀ s, Sound (ω := ω) n (.statement s)
  | .expression e => by
    intro φ ρ o r m' hrun
    simp only [Part.run, Run.statement] at hrun
    rcases (sound_expression hbody e).bind_cases hrun with
        ⟨k, φ', o', rfl, rfl, hev⟩ | ⟨w, φ', o', hev, hpure⟩
    · exact ⟨φ', o', rfl, .run hev⟩
    · cases hpure
      exact ⟨φ', o', rfl, .run hev⟩
  | .print es => by
    intro φ ρ o r m' hrun
    simp only [Part.run, Run.statement] at hrun
    rcases (sound_items hbody es).bind_cases hrun with
        ⟨k, φ', o', rfl, rfl, hev⟩ | ⟨shown, φ', o', hev, hwrite⟩
    · exact ⟨φ', o', rfl, .printFails hev⟩
    · rw [Run.write_print] at hwrite
      cases hwrite
      exact ⟨φ', _, rfl, .print hev⟩
  | .assign name e => by
    intro φ ρ o r m' hrun
    simp only [Part.run, Run.statement] at hrun
    rcases (sound_expression hbody e).bind_cases hrun with
        ⟨k, φ', o', rfl, rfl, hev⟩ | ⟨w, φ₁, o₁, hev, hrest⟩
    · exact ⟨φ', o', rfl, .setFails hev⟩
    · rw [bind_eq_ok (Run.define_layers name w)] at hrest
      cases hrest
      exact ⟨_, o₁, rfl, .set hev⟩
  | .ifElse condition thenBranch elseBranch => by
    intro φ ρ o r m' hrun
    simp only [Part.run, Run.statement] at hrun
    rcases (sound_expression hbody condition).bind_cases hrun with
        ⟨k, φ', o', rfl, rfl, hev⟩ | ⟨w, φ₁, o₁, hcond, hrest⟩
    · exact ⟨φ', o', rfl, .ifFails hev⟩
    · by_cases hzero : w.toInt = 0
      · rw [if_neg (by simpa using hzero)] at hrest
        cases elseBranch with
        | none =>
          cases hrest
          exact ⟨φ₁, o₁, rfl, .ifSkipped hcond hzero⟩
        | some t =>
          obtain ⟨φ₂, o₂, rfl, hev⟩ := sound_statement hbody t φ₁ ρ o₁ r m' hrest
          exact ⟨φ₂, o₂, rfl, .ifFalse hcond hzero hev⟩
      · rw [if_pos hzero] at hrest
        obtain ⟨φ₂, o₂, rfl, hev⟩ := sound_statement hbody thenBranch φ₁ ρ o₁ r m' hrest
        exact ⟨φ₂, o₂, rfl, .ifTrue hcond hzero hev⟩
  | .block ss => by
    intro φ ρ o r m' hrun
    simp only [Part.run, Run.statement] at hrun
    obtain ⟨m₁, hss, rfl⟩ := Run.of_inScope_layers hrun
    obtain ⟨ψ, o', rfl, hev⟩ := sound_statements hbody ss _ _ o r m₁ hss
    exact ⟨φ, o', by rw [pop_arena], .block hev⟩
  | .define name parameters s => by
    intro φ ρ o r m' hrun
    simp only [Part.run, Run.statement] at hrun
    rw [bind_eq_ok (Run.defineFunction_layers _)] at hrun
    cases hrun
    exact ⟨_, o, rfl, .define⟩
  | .giveBack none => by
    intro φ ρ o r m' hrun
    cases hrun
    exact ⟨φ, o, rfl, .giveBackNothing⟩
  | .giveBack (some e) => by
    intro φ ρ o r m' hrun
    simp only [Part.run, Run.statement] at hrun
    rcases (sound_expression hbody e).bind_cases hrun with
        ⟨k, φ', o', rfl, rfl, hev⟩ | ⟨w, φ', o', hev, hpure⟩
    · exact ⟨φ', o', rfl, .giveBack hev⟩
    · cases hpure
      exact ⟨φ', o', rfl, .giveBack hev⟩

theorem sound_statements (hbody : SoundBody ω n) : ∀ ss, Sound (ω := ω) n (.statements ss)
  | [] => by
    intro φ ρ o r m' hrun
    cases hrun
    exact ⟨φ, o, rfl, .noStatements⟩
  | s :: ss => by
    intro φ ρ o r m' hrun
    simp only [Part.run, Run.statements] at hrun
    rcases (sound_statement hbody s).bind_cases hrun with
        ⟨k, φ', o', rfl, rfl, hev⟩ | ⟨flow, φ₁, o₁, hev, hrest⟩
    · exact ⟨φ', o', rfl, .statementsEnd hev nofun⟩
    · cases flow with
      | proceed =>
        obtain ⟨φ₂, o₂, rfl, htail⟩ := sound_statements hbody ss φ₁ ρ o₁ r m' hrest
        exact ⟨φ₂, o₂, rfl, .statements hev htail⟩
      | giveBack w =>
        cases hrest
        exact ⟨φ₁, o₁, rfl, .statementsEnd hev nofun⟩

end

theorem soundBody (n : Nat) : SoundBody ω n := by
  induction n with
  | zero =>
    intro s φ ρ o r m' hrun
    cases hrun
  | succ n ih =>
    intro s φ ρ o r m' hrun
    exact sound_statement ih s φ ρ o r m' hrun

theorem sound (n : Nat) (p : Part α) : Sound (ω := ω) n p := by
  cases p with
  | expression e => exact sound_expression (soundBody n) e
  | expressions es => exact sound_expressions (soundBody n) es
  | item e => exact sound_item (soundBody n) e
  | items es => exact sound_items (soundBody n) es
  | statement s => exact sound_statement (soundBody n) s
  | statements ss => exact sound_statements (soundBody n) ss

end IntScript
