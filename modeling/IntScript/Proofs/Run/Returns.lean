import IntScript.Proofs.Action.Triple
import IntScript.Proofs.Run.Arithmetic
import IntScript.Proofs.Run.Refinement
import IntScript.Proofs.Tree.Parts
import Mathlib

/-!
# Returns

A statement gives a value back only if it says so itself, outside of the functions that it defines: what
the body of a function gives back is the value of the call and goes no further. So it is only the program
itself that can end with a return outside of functions, and only if it has one there. In a list of
statements nothing is run behind the one that gives a value back.
-/

namespace IntScript

open IntScript.Action

theorem Word.error_of_checked {operator : String} {i : Int} {e : RuntimeError}
    (h : checked operator i = .error e) : e = .arithmeticOverflow operator := by
  rw [checked] at h
  split at h
  · cases h
  · exact (Except.error.inj h).symm

theorem BinaryOperator.error_of_apply {op : BinaryOperator} {a b : Word} {e : RuntimeError}
    (h : op.apply a b = .error e) : e = .divisionByZero ∨ e = .arithmeticOverflow op.symbol := by
  rw [op.apply_eq] at h
  split at h
  · exact .inl (Except.error.inj h).symm
  · exact .inr (Word.error_of_checked h)

/-- A value is given back only where there is a reason for it. -/
def Flow.Justified (reason : Prop) (flow : Flow) : Prop := ∀ w, flow = .giveBack w → reason

theorem Flow.Justified.proceed (reason : Prop) : Flow.proceed.Justified reason := nofun

theorem Flow.Justified.mono {reason reason' : Prop} {flow : Flow} (h : flow.Justified reason)
    (hreason : reason → reason') : flow.Justified reason' :=
  fun w hw => hreason (h w hw)

namespace Run

variable {ω α β : Type} {h : Handle} {kind : α → Prop} {kind' : β → Prop}

/-- The values that the part gives are of the kind, and no error of it is that of a return outside of
functions. -/
def Confined (kind : α → Prop) (p : Run ω α) : Prop :=
  Triple (fun _ => True) p (fun a _ => kind a) fun e _ => e ≠ .returnOutsideFunction

theorem Confined.mono {kind' : α → Prop} {p : Run ω α} (hp : Confined kind p)
    (hkind : ∀ a, kind a → kind' a) : Confined kind' p :=
  hp.conseq (fun _ hm => hm) (fun a _ ha => hkind a ha) fun _ _ he => he

theorem confined_pure {a : α} (ha : kind a) : Confined kind (pure a : Run ω α) :=
  .pure fun _ _ => ha

theorem confined_fail {e : RuntimeError} (he : e ≠ .returnOutsideFunction) :
    Confined kind (Action.fail e : Run ω α) :=
  .fail fun _ _ => he

theorem confined_bind {p : Run ω α} {f : α → Run ω β} (hp : Confined kind p)
    (hf : ∀ a, kind a → Confined kind' (f a)) : Confined kind' (p >>= f) :=
  hp.bind fun a m ha => hf a ha m trivial

theorem confined_bind_any {p : Run ω α} {f : α → Run ω β} (hp : Confined (fun _ => True) p)
    (hf : ∀ a, Confined kind' (f a)) : Confined kind' (p >>= f) :=
  confined_bind hp fun a _ => hf a

theorem confined_ofExcept {x : Except RuntimeError α} (hx : x ≠ .error .returnOutsideFunction) :
    Confined (fun _ => True) (Action.ofExcept x : Run ω α) := by
  intro m _ r m' hrun
  cases hrun
  cases x with
  | ok a => trivial
  | error e => exact fun he => hx (congrArg Except.error he)

theorem confined_consult (f : Arena → Except Arena.Fault α) :
    Confined (fun _ => True) (consult f : Run ω α) := by
  intro m _ r m' hrun
  rw [consult] at hrun
  split at hrun
  · cases hrun
    trivial
  · cases hrun

theorem confined_revise (f : Arena → Except Arena.Fault Arena) :
    Confined (fun _ => True) (revise f : Run ω Unit) := by
  intro m _ r m' hrun
  rw [revise] at hrun
  split at hrun
  · cases hrun
    trivial
  · cases hrun

theorem confined_defineAll (bindings : List (String × Word)) :
    Confined (fun _ => True) (defineAll h bindings : Run ω Unit) := by
  induction bindings with
  | nil => exact confined_pure trivial
  | cons binding bindings ih => exact confined_bind_any (confined_revise _) fun _ => ih

theorem confined_inScope {p : Handle → Run ω α} (hp : ∀ inner, Confined kind (p inner)) :
    Confined kind (inScope h p) := by
  intro m _ r m' hrun
  rw [inScope_apply] at hrun
  obtain ⟨⟨r', m₁⟩, hinner, hend⟩ := Option.map_eq_some_iff.1 hrun
  cases hend
  exact hp _ _ trivial _ _ hinner

theorem confined_write [Sink ω] (s : String) : Confined (fun _ => True) (write s : Run ω Unit) := by
  intro m _ r m' hrun
  simp only [write, Option.some.injEq, Prod.mk.injEq] at hrun
  obtain ⟨rfl, -⟩ := hrun
  cases (Sink.write m.out s).1 with
  | ok _ => trivial
  | error reason => simp [Except.mapError]

section Parts

variable {body : Statement → Handle → Run ω Flow}

theorem confined_call (hbody : ∀ s inner, Confined (fun _ => True) (body s inner)) (name : String)
    (values : List Word) : Confined (fun _ => True) (call body h name values) := by
  -- Whatever the body gives back is the value of the call.
  refine confined_bind_any (confined_consult _) fun o => ?_
  cases o with
  | none => exact confined_fail nofun
  | some f =>
    dsimp only
    split
    · exact confined_fail nofun
    · have hinner : ∀ inner, Confined (fun _ => True) (do
          let _ ← defineAll inner (f.parameters.zip values)
          body f.body inner) :=
        fun inner => confined_bind_any (confined_defineAll _) fun _ => hbody f.body inner
      exact confined_bind_any (confined_inScope hinner) fun flow => confined_pure trivial

theorem negate_ne_returnOutsideFunction (w : Word) :
    w.negate ≠ .error .returnOutsideFunction :=
  fun h => by cases Word.error_of_checked h

theorem apply_ne_returnOutsideFunction (op : BinaryOperator) (a b : Word) :
    op.apply a b ≠ .error .returnOutsideFunction :=
  fun h => by rcases BinaryOperator.error_of_apply h with h | h <;> cases h

mutual

theorem confined_expression (hbody : ∀ s inner, Confined (fun _ => True) (body s inner))
    (h : Handle) : ∀ e, Confined (fun _ => True) (expression body h e)
  | .integer value => confined_pure trivial
  | .text _ => confined_pure trivial
  | .var name => by
    refine confined_bind_any (confined_consult _) fun o => ?_
    cases o with
    | none => exact confined_fail nofun
    | some value => exact confined_pure trivial
  | .assign name e =>
    confined_bind_any (confined_expression hbody h e) fun value =>
      confined_bind_any (confined_revise _) fun _ => confined_pure trivial
  | .negate e =>
    confined_bind_any (confined_expression hbody h e) fun value =>
      confined_ofExcept (negate_ne_returnOutsideFunction value)
  | .binary op left right =>
    confined_bind_any (confined_expression hbody h left) fun a =>
      confined_bind_any (confined_expression hbody h right) fun b =>
        confined_ofExcept (apply_ne_returnOutsideFunction op a b)
  | .call name args =>
    confined_bind_any (confined_expressions hbody h args) fun values =>
      confined_call hbody name values

theorem confined_expressions (hbody : ∀ s inner, Confined (fun _ => True) (body s inner))
    (h : Handle) : ∀ es, Confined (fun _ => True) (expressions body h es)
  | [] => confined_pure trivial
  | e :: es =>
    confined_bind_any (confined_expression hbody h e) fun _ =>
      confined_bind_any (confined_expressions hbody h es) fun _ => confined_pure trivial

end

theorem confined_item (hbody : ∀ s inner, Confined (fun _ => True) (body s inner)) (e : Expression) :
    Confined (fun _ => True) (item body h e) := by
  unfold item
  split
  · exact confined_pure trivial
  · exact confined_bind_any (confined_expression hbody h _) fun _ => confined_pure trivial

theorem confined_items (hbody : ∀ s inner, Confined (fun _ => True) (body s inner))
    (es : List Expression) : Confined (fun _ => True) (items body h es) := by
  induction es with
  | nil => exact confined_pure trivial
  | cons e es ih =>
    exact confined_bind_any (confined_item hbody e) fun _ =>
      confined_bind_any ih fun _ => confined_pure trivial

variable [Sink ω]

mutual

theorem confined_statement (hbody : ∀ s inner, Confined (fun _ => True) (body s inner))
    (h : Handle) : ∀ s : Statement, Confined (·.Justified s.GivesBack) (statement body h s)
  | .expression e =>
    confined_bind_any (confined_expression hbody h e) fun _ => confined_pure (.proceed _)
  | .print es =>
    confined_bind_any (confined_items hbody es) fun _ =>
      confined_bind_any (confined_write _) fun _ => confined_pure (.proceed _)
  | .assign name e =>
    confined_bind_any (confined_expression hbody h e) fun value =>
      confined_bind_any (confined_revise _) fun _ => confined_pure (.proceed _)
  | .ifElse condition thenBranch elseBranch => by
    have hthen := confined_statement hbody h thenBranch
    have helse := confined_branch hbody h elseBranch
    refine confined_bind_any (confined_expression hbody h condition) fun value => ?_
    split
    · exact hthen.mono fun flow hflow =>
        hflow.mono fun hthen => Statement.givesBack_ifElse.2 (.inl hthen)
    · exact helse.mono fun flow hflow =>
        hflow.mono fun helse => Statement.givesBack_ifElse.2 (.inr helse)
  | .block ss => by
    have hinner : ∀ inner, Confined (·.Justified (Statement.block ss).GivesBack)
        (statements body inner ss) := fun inner =>
      (confined_statements hbody inner ss).mono fun flow hflow =>
        hflow.mono Statement.givesBack_block.2
    exact confined_inScope hinner
  | .define name parameters s => confined_bind_any (confined_revise _) fun _ => confined_pure (.proceed _)
  | .giveBack none => confined_pure fun _ _ => Statement.givesBack_giveBack none
  | .giveBack (some e) =>
    confined_bind_any (confined_expression hbody h e) fun value =>
      confined_pure fun _ _ => Statement.givesBack_giveBack (some e)

theorem confined_branch (hbody : ∀ s inner, Confined (fun _ => True) (body s inner))
    (h : Handle) : ∀ o : Option Statement,
      Confined (·.Justified (∃ s ∈ o, s.GivesBack)) (branch body h o)
  | none => confined_pure (.proceed _)
  | some s =>
    (confined_statement hbody h s).mono fun _ hflow => hflow.mono fun hs => ⟨s, rfl, hs⟩

theorem confined_statements (hbody : ∀ s inner, Confined (fun _ => True) (body s inner))
    (h : Handle) : ∀ ss : List Statement,
      Confined (·.Justified (∃ s ∈ ss, s.GivesBack)) (statements body h ss)
  | [] => confined_pure (.proceed _)
  | s :: ss => by
    refine confined_bind (confined_statement hbody h s) fun flow hflow => ?_
    cases flow with
    | proceed =>
      exact (confined_statements hbody h ss).mono fun flow hflow =>
        hflow.mono fun ⟨t, ht, hgives⟩ => ⟨t, List.mem_cons_of_mem s ht, hgives⟩
    | giveBack value =>
      have hs : s.GivesBack := hflow value rfl
      exact confined_pure fun _ _ => ⟨s, List.mem_cons_self, hs⟩

end

end Parts

variable [Sink ω]

theorem confined_body (budget : Nat) (s : Statement) (h : Handle) :
    Confined (fun _ => True) (body budget s h : Run ω Flow) := by
  induction budget generalizing s h with
  | zero => exact .stuck
  | succ n ih => exact (confined_statement ih h s).mono fun _ _ => trivial

theorem confined_execute (budget : Nat) (s : Statement) (h : Handle) :
    Confined (·.Justified s.GivesBack) (execute budget s h : Run ω Flow) :=
  confined_statement (confined_body budget) h s

theorem confined_root (budget : Nat) (s : Statement) :
    Confined (·.Justified s.GivesBack) (root budget s : Run ω Flow) := by
  unfold root
  split
  · exact (confined_statements (confined_body budget) .global _).mono fun flow hflow =>
      hflow.mono Statement.givesBack_block.2
  · exact confined_execute budget _ .global

theorem givesBack_of_program {budget : Nat} {s : Statement} {m m' : Machine ω}
    (hrun : program budget s m = some (.error .returnOutsideFunction, m')) : s.GivesBack := by
  rw [program, bind_eq_ok (modify_apply _ _)] at hrun
  rcases bind_eq_some_iff.1 hrun with ⟨e, he, heq⟩ | ⟨flow, m₁, hroot, hend⟩
  · cases heq
    exact absurd rfl ((confined_root budget s).error trivial he)
  · cases flow with
    | proceed => cases hend
    | giveBack value => exact (confined_root budget s).ok trivial hroot value rfl

theorem statements_append {body : Statement → Handle → Run ω Flow} (h : Handle)
    (xs ys : List Statement) : statements body h (xs ++ ys) = do
      match ← statements body h xs with
      | .proceed => statements body h ys
      | .giveBack value => return .giveBack value := by
  induction xs with
  | nil => rfl
  | cons s xs ih =>
    simp only [List.cons_append, statements, bind_assoc]
    congr 1
    funext flow
    cases flow with
    | proceed => exact ih
    | giveBack value => rfl

theorem statements_of_giveBack {body : Statement → Handle → Run ω Flow} {h : Handle}
    {xs : List Statement} {s : Statement} {m m₁ m₂ : Machine ω} {value : Word}
    (hreached : statements body h xs m = some (.ok .proceed, m₁))
    (hgives : statement body h s m₁ = some (.ok (.giveBack value), m₂)) (ys : List Statement) :
    statements body h (xs ++ s :: ys) m = some (.ok (.giveBack value), m₂) := by
  rw [statements_append, bind_eq_ok hreached, statements]
  exact bind_eq_ok hgives

/-- Only a statement that has a return outside of functions gives a value back, and only a program that
has one ends with that error, which no part of a run does. In a list, a statement that gives a value
back is the last one that is run. -/
theorem returns_stay_in_functions (budget : Nat) :
    (∀ (h : Handle) (m m' : Machine ω),
      (∀ s r, execute budget s h m = some (r, m') →
        (∀ value, r = .ok (.giveBack value) → s.GivesBack) ∧ r ≠ .error .returnOutsideFunction) ∧
      (∀ ss r, executeBlock budget ss h m = some (r, m') → r ≠ .error .returnOutsideFunction) ∧
      (∀ e r, evaluate budget e h m = some (r, m') → r ≠ .error .returnOutsideFunction)) ∧
    (∀ (s : Statement) (m m' : Machine ω),
      program budget s m = some (.error .returnOutsideFunction, m') → s.GivesBack) ∧
    ∀ (h : Handle) (xs : List Statement) (s : Statement) (m m₁ m₂ : Machine ω) (value : Word),
      statements (body budget) h xs m = some (.ok .proceed, m₁) →
      execute budget s h m₁ = some (.ok (.giveBack value), m₂) →
      statements (body budget) h (xs ++ [s]) m = some (.ok (.giveBack value), m₂) ∧
        ∀ ys, statements (body budget) h (xs ++ [s] ++ ys) m =
          some (.ok (.giveBack value), m₂) := by
  refine ⟨?_, ?_, ?_⟩
  · intro h m m'
    refine ⟨?_, ?_, ?_⟩
    · intro s r hrun
      have hconfined := confined_execute (ω := ω) budget s h
      constructor
      · rintro value rfl
        exact hconfined.ok trivial hrun value rfl
      · rintro rfl
        exact hconfined.error trivial hrun rfl
    · rintro ss r hrun rfl
      exact (confined_execute budget (.block ss) h).error trivial hrun rfl
    · rintro e r hrun rfl
      exact (confined_expression (confined_body budget) h e).error trivial hrun rfl
  · intro s m m' hrun
    exact givesBack_of_program hrun
  · intro h xs s m m₁ m₂ value hreached hgives
    constructor
    · exact statements_of_giveBack hreached hgives []
    · intro ys
      rw [List.append_assoc]
      exact statements_of_giveBack hreached hgives ys

def callThenReturn : List Statement :=
  [.define "f" [] (.block [.giveBack (some (.integer 7))]), .assign "x" (.call "f" [])]

def returnIfBound : Statement :=
  .ifElse (.var "x") (.block [.print [.text "x"], .giveBack (some (.var "x"))]) none

theorem returns_stay_in_functions_callThenReturn :
    (∃ m, statements (body 1) .global (callThenReturn ++ [returnIfBound] ++
        [.print [.text "unreached"], .expression (.binary .div (.integer 1) (.integer 0))])
        (.fresh Transcript.empty) = some (.ok (.giveBack 7), m) ∧ m.out = ⟨"x\n"⟩) ∧
      (Statement.block (callThenReturn ++ [returnIfBound])).GivesBack := by
  have hcall : ∃ m₁, statements (body 1) .global callThenReturn (.fresh Transcript.empty) =
      some (.ok .proceed, m₁) ∧ ∃ m₂, execute 1 returnIfBound .global m₁ =
        some (.ok (.giveBack 7), m₂) ∧ m₂.out = ⟨"x\n"⟩ := by
    refine ⟨_, rfl, _, rfl, ?_⟩
    cbv
  obtain ⟨m₁, hreached, m₂, hgives, hout⟩ := hcall
  have hprogram : ∃ m, program 1 (.block (callThenReturn ++ [returnIfBound]))
      (.fresh Transcript.empty) = some (.error .returnOutsideFunction, m) := ⟨_, rfl⟩
  obtain ⟨m, hprogram⟩ := hprogram
  constructor
  · have hstops := (returns_stay_in_functions 1).2.2 .global _ _ _ _ _ _ hreached hgives
    exact ⟨m₂, hstops.2 _, hout⟩
  · exact (returns_stay_in_functions 1).2.1 _ _ _ hprogram

end Run

end IntScript
