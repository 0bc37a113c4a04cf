import IntScript.Proofs.Run.Paraphrase
import Mathlib

/-!
# Variants of a program

Two ways to write a program differently that make no difference to what it does: with other names, and
with every body of a function in a block of its own. Both are paraphrases.
-/

namespace IntScript.Run

variable {ω : Type} [Sink ω]

/-- Other names, different ones for different variables and for different functions, change nothing but
the names: not whether the program ends nor what it prints, and its result and the global names only as
the names are changed. Variables and functions are renamed each in their own way. -/
theorem program_renamed {r q : String → String} (hr : Function.Injective r)
    (hq : Function.Injective q) (budget : Nat) (root : Statement) (m : Machine ω) :
    let P := Paraphrase.ofNames hr hq
    (program budget (P.statement root) m).isSome = (program budget root m).isSome ∧
    ∀ x m₁, program budget root m = some (x, m₁) →
      ∃ m₂, program budget (P.statement root) m = some (x.mapError P.error, m₂) ∧
        m₂.out = m₁.out ∧
        (∀ name, m₂.arena.get .global (r name) = m₁.arena.get .global name) ∧
        ∀ name, m₂.arena.getFunction .global (q name) =
          (m₁.arena.getFunction .global name).map (Option.map P.function) := by
  intro P
  obtain ⟨hsome, hends⟩ := P.program_paraphrased budget root m
  refine ⟨hsome, fun x m₁ hrun => ?_⟩
  obtain ⟨m₂, hrun₂, hout, hscopes⟩ := hends x m₁ hrun
  exact ⟨m₂, hrun₂, hout, hscopes.values, hscopes.functions⟩

def sharedName : Statement := .block
  [.assign "f" (.integer 4),
    .define "f" ["x"] (.giveBack (some (.binary .add (.var "x") (.var "f")))),
    .print [.call "f" [.integer 2]],
    .print [.var "x"]]

def ownNames : Statement := .block
  [.assign "x" (.integer 4),
    .define "my f" ["f"] (.giveBack (some (.binary .add (.var "f") (.var "x")))),
    .print [.call "my f" [.integer 2]],
    .print [.var "f"]]

theorem program_renamed_ownNames : ∃ m : Machine Transcript,
    program 1 ownNames (.fresh Transcript.empty) = some (.error (.undefinedVariable "f"), m) ∧
      m.out = ⟨"6\n"⟩ ∧ m.arena.get .global "x" = .ok (some 4) := by
  have hrun : ∃ m : Machine Transcript,
      program 1 sharedName (.fresh Transcript.empty) = some (.error (.undefinedVariable "x"), m) ∧
        m.out = ⟨"6\n"⟩ ∧ m.arena.get .global "f" = .ok (some 4) := by
    refine ⟨_, rfl, ?_, ?_⟩
    · cbv
    · cbv
  obtain ⟨m₁, hrun, hout, hvalue⟩ := hrun
  have hr : Function.Injective (Equiv.swap "x" "f") := (Equiv.swap "x" "f").injective
  have hq : Function.Injective fun name : String => "my " ++ name :=
    fun _ _ h => (String.append_right_inj "my ").1 h
  have hrenamed : (Paraphrase.ofNames hr hq).statement sharedName = ownNames := by
    rfl
  have hends := (program_renamed hr hq 1 sharedName (.fresh Transcript.empty)).2 _ m₁ hrun
  rw [hrenamed] at hends
  obtain ⟨m₂, hrun₂, hout₂, hvalues, -⟩ := hends
  refine ⟨m₂, hrun₂, hout₂.trans hout, ?_⟩
  exact (hvalues "f").trans hvalue

theorem blockBodies_error (e : RuntimeError) : Paraphrase.blockBodies.error e = e := by
  cases e <;> rfl

/-- A body in a block of its own does what it does without it: the program ends if and only if it does
so otherwise, with the same result and the same output, and leaves the same global variables and, but
for their bodies, the same functions. -/
theorem program_blockBodies (budget : Nat) (root : Statement) (m : Machine ω) :
    let P := Paraphrase.blockBodies
    (program budget (P.statement root) m).isSome = (program budget root m).isSome ∧
    ∀ x m₁, program budget root m = some (x, m₁) →
      ∃ m₂, program budget (P.statement root) m = some (x, m₂) ∧ m₂.out = m₁.out ∧
        (∀ name, m₂.arena.get .global name = m₁.arena.get .global name) ∧
        ∀ name, m₂.arena.getFunction .global name = (m₁.arena.getFunction .global name).map
          (Option.map fun f => ⟨f.name, f.parameters, .block [P.statement f.body]⟩) := by
  intro P
  obtain ⟨hsome, hends⟩ := P.program_paraphrased budget root m
  refine ⟨hsome, fun x m₁ hrun => ?_⟩
  obtain ⟨m₂, hrun₂, hout, hscopes⟩ := hends x m₁ hrun
  have herror : x.mapError P.error = x := by
    cases x with
    | ok _ => rfl
    | error e => exact congrArg Except.error (blockBodies_error e)
  have hfunction : P.function = fun f => ⟨f.name, f.parameters, .block [P.statement f.body]⟩ := by
    funext f
    have hparameters : f.parameters.map P.variableName = f.parameters := List.map_id _
    rw [Paraphrase.function, hparameters]
    rfl
  rw [herror] at hrun₂
  refine ⟨m₂, hrun₂, hout, hscopes.values, fun name => ?_⟩
  rw [← hfunction]
  exact hscopes.functions name

def oneLiners : Statement := .block
  [.assign "y" (.integer 5),
    .define "count" ["x"] (.ifElse (.var "x")
      (.block [.assign "x" (.binary .sub (.var "x") (.integer 1)), .print [.var "x", .var "y"],
        .giveBack (some (.call "count" [.var "x"]))])
      (some (.giveBack (some (.var "y"))))),
    .define "set" ["y"] (.assign "y" (.integer 7)),
    .define "nest" [] (.define "count" [] (.giveBack none)),
    .print [.call "set" [.integer 1], .call "nest" [], .call "count" [.integer 1]]]

theorem program_blockBodies_oneLiners : ∃ m : Machine Transcript,
    program 2 (Paraphrase.blockBodies.statement oneLiners) (.fresh Transcript.empty) =
      some (.ok (), m) ∧
      m.out = ⟨"0 5\n0 0 5\n"⟩ ∧ m.arena.get .global "y" = .ok (some 5) := by
  have hrun : (program 2 oneLiners (.fresh Transcript.empty)).map
      (fun x => (x.1, x.2.out, x.2.arena.get .global "y")) =
        some (.ok (), ⟨"0 5\n0 0 5\n"⟩, .ok (some 5)) := by cbv
  obtain ⟨⟨x, m₁⟩, hrun, hends⟩ := Option.map_eq_some_iff.1 hrun
  simp only [Prod.mk.injEq] at hends
  obtain ⟨rfl, hout, hvalue⟩ := hends
  obtain ⟨m₂, hrun₂, hout₂, hvalues, -⟩ :=
    (program_blockBodies 2 oneLiners (.fresh Transcript.empty)).2 _ m₁ hrun
  exact ⟨m₂, hrun₂, hout₂.trans hout, (hvalues "y").trans hvalue⟩

end IntScript.Run
