import IntScript.Proofs.Run.Budget
import IntScript.Proofs.Run.Refinement
import IntScript.Proofs.Run.Session
import IntScript.Proofs.Scope.Found
import IntScript.Proofs.Tree.Parts
import Mathlib

/-!
# Programs without recursion

If functions can be ranked so that each calls only functions of smaller rank, every run of the program
ends. A function is found at run time, under its name, in whichever scope has it; but whatever is found
under a name was defined under that name, so its body calls functions of smaller rank. Calls then nest no
deeper than the ranks of what the program itself calls.
-/

namespace IntScript.Run

open IntScript.Action Arena

variable {ω α β : Type} {rank : String → Nat} {h : Handle} {n : Nat}

/-- Lookups from the scope come to an end, and the functions that they find are ranked. -/
structure Ready (rank : String → Nat) (h : Handle) (a : Arena) : Prop where
  usable : a.Usable h
  registers : a.Registers fun f => f.body.Within rank (rank f.name)

/-- Where the scope is ready, the part gives an answer, and the scope is ready again. -/
def Ends (rank : String → Nat) (h : Handle) (p : Run ω α) : Prop :=
  ∀ m, Ready rank h m.arena → ∃ r m', p m = some (r, m') ∧ Ready rank h m'.arena

theorem ends_ofExcept (x : Except RuntimeError α) :
    Ends rank h (Action.ofExcept x : Run ω α) :=
  fun m hm => ⟨x, m, rfl, hm⟩

theorem ends_pure (a : α) : Ends rank h (pure a : Run ω α) := ends_ofExcept (.ok a)

theorem ends_fail (e : RuntimeError) : Ends rank h (Action.fail e : Run ω α) :=
  ends_ofExcept (.error e)

theorem ends_bind {p : Run ω α} {f : α → Run ω β} (hp : Ends rank h p)
    (hf : ∀ a, Ends rank h (f a)) : Ends rank h (p >>= f) := by
  intro m hm
  obtain ⟨r, m₁, hrun, hm₁⟩ := hp m hm
  cases r with
  | error e => exact ⟨.error e, m₁, bind_eq_error hrun, hm₁⟩
  | ok a =>
    rw [bind_eq_ok hrun]
    exact hf a m₁ hm₁

theorem ends_get (name : String) : Ends rank h (consult (·.get h name) : Run ω (Option Word)) := by
  intro m hm
  obtain ⟨o, ho⟩ := hm.usable.exists_get name
  refine ⟨.ok o, m, ?_, hm⟩
  rw [consult, ho]

theorem ends_getFunction_bind {name : String} {f : Option Function → Run ω α}
    (hnone : Ends rank h (f none))
    (hsome : ∀ g, g.body.Within rank (rank name) → Ends rank h (f (some g))) :
    Ends rank h (consult (·.getFunction h name) >>= f) := by
  intro m hm
  obtain ⟨o, ho, hfound⟩ := hm.usable.exists_getFunction hm.registers name
  have hrun : (consult (·.getFunction h name) : Run ω (Option Function)) m = some (.ok o, m) := by
    rw [consult, ho]
  rw [bind_eq_ok hrun]
  cases o with
  | none => exact hnone m hm
  | some g =>
    obtain ⟨hname, hwithin⟩ := hfound g rfl
    rw [hname] at hwithin
    exact hsome g hwithin m hm

theorem ends_define (name : String) (value : Word) :
    Ends rank h (define h name value : Run ω Unit) := by
  intro m hm
  obtain ⟨b, hb⟩ : ∃ b, m.arena.define h name value = .ok b := ⟨_, if_pos hm.usable.live⟩
  refine ⟨.ok (), { m with arena := b }, ?_, hm.usable.frame (frame_define hb),
    hm.registers.define hb⟩
  rw [define, revise, hb]

theorem ends_defineAll (bindings : List (String × Word)) :
    Ends rank h (defineAll h bindings : Run ω Unit) := by
  induction bindings with
  | nil => exact ends_pure ()
  | cons binding bindings ih => exact ends_bind (ends_define _ _) fun _ => ih

theorem ends_defineFunction {f : Function} (hf : f.body.Within rank (rank f.name)) :
    Ends rank h (revise fun a => a.defineFunction h f : Run ω Unit) := by
  intro m hm
  obtain ⟨b, hb⟩ : ∃ b, m.arena.defineFunction h f = .ok b := ⟨_, if_pos hm.usable.live⟩
  refine ⟨.ok (), { m with arena := b }, ?_, hm.usable.frame (frame_defineFunction hb),
    hm.registers.defineFunction hf hb⟩
  rw [revise, hb]

theorem ends_inScope {p : Handle → Run ω α} (hp : ∀ inner, Ends rank inner (p inner))
    (hkeeps : ∀ inner, Keeps inner (p inner)) : Ends rank h (inScope h p) := by
  -- The new scope is gone afterwards, so it does not matter what was defined there.
  intro m hm
  obtain ⟨r, m', hinner, -⟩ := hp _ { m with arena := (m.arena.push h).1 }
    ⟨hm.usable.push, hm.registers.push⟩
  refine ⟨r, { m' with arena := m.arena }, ?_, hm⟩
  rw [inScope_restored hkeeps hm.usable.live, hinner, Option.map_some]

variable [Sink ω]

theorem ends_write (s : String) : Ends rank h (write s : Run ω Unit) :=
  fun m hm => ⟨_, { m with out := (Sink.write m.out s).2 }, rfl, hm⟩

def EndsBodies (ω : Type) [Sink ω] (rank : String → Nat) (n : Nat) : Prop :=
  ∀ s k, k < n → s.Within rank k → ∀ h, Ends rank h (body n s h : Run ω Flow)

theorem ends_call (hbody : EndsBodies ω rank n) {name : String} (hname : rank name < n)
    (values : List Word) : Ends rank h (call (body n) h name values : Run ω Word) := by
  refine ends_getFunction_bind (ends_fail _) fun f hf => ?_
  dsimp only
  split
  · exact ends_fail _
  · refine ends_bind (ends_inScope (fun inner => ?_) fun inner => ?_) fun flow => ends_pure _
    · exact ends_bind (ends_defineAll _) fun _ => hbody f.body _ hname hf inner
    · exact keeps_bind (keeps_defineAll _) fun _ => keeps_body n f.body inner

mutual

theorem ends_expression (hbody : EndsBodies ω rank n) (h : Handle) :
    ∀ e : Expression, (∀ name ∈ e.calls, rank name < n) →
      Ends rank h (expression (body n) h e : Run ω Word)
  | .integer value, _ => ends_pure value
  | .text _, _ => ends_pure 0
  | .var name, _ => by
    refine ends_bind (ends_get name) fun o => ?_
    cases o with
    | none => exact ends_fail _
    | some value => exact ends_pure value
  | .assign name e, hcalls =>
    ends_bind (ends_expression hbody h e hcalls) fun value =>
      ends_bind (ends_define name value) fun _ => ends_pure value
  | .negate e, hcalls => ends_bind (ends_expression hbody h e hcalls) fun _ => ends_ofExcept _
  | .binary op left right, hcalls => by
    rw [Expression.calls_binary] at hcalls
    obtain ⟨hleft, hright⟩ := List.forall_mem_append.1 hcalls
    refine ends_bind (ends_expression hbody h left hleft) fun _ => ?_
    exact ends_bind (ends_expression hbody h right hright) fun _ => ends_ofExcept _
  | .call name args, hcalls => by
    refine ends_bind (ends_expressions hbody h args fun e he x hx => ?_) fun values => ?_
    · exact hcalls x (Expression.mem_calls_call.2 (.inr ⟨e, he, hx⟩))
    · exact ends_call hbody (hcalls name (Expression.mem_calls_call.2 (.inl rfl))) values

theorem ends_expressions (hbody : EndsBodies ω rank n) (h : Handle) :
    ∀ es : List Expression, (∀ e ∈ es, ∀ name ∈ e.calls, rank name < n) →
      Ends rank h (expressions (body n) h es : Run ω (List Word))
  | [], _ => ends_pure []
  | e :: es, hes => by
    obtain ⟨he, hes⟩ := List.forall_mem_cons.1 hes
    refine ends_bind (ends_expression hbody h e he) fun _ => ?_
    exact ends_bind (ends_expressions hbody h es hes) fun _ => ends_pure _

end

theorem ends_item (hbody : EndsBodies ω rank n) {e : Expression}
    (he : ∀ name ∈ e.calls, rank name < n) : Ends rank h (item (body n) h e : Run ω String) := by
  unfold item
  split
  · exact ends_pure _
  · exact ends_bind (ends_expression hbody h _ he) fun _ => ends_pure _

theorem ends_items (hbody : EndsBodies ω rank n) {es : List Expression}
    (hes : ∀ e ∈ es, ∀ name ∈ e.calls, rank name < n) :
    Ends rank h (items (body n) h es : Run ω (List String)) := by
  induction es with
  | nil => exact ends_pure []
  | cons e es ih =>
    obtain ⟨he, hes⟩ := List.forall_mem_cons.1 hes
    exact ends_bind (ends_item hbody he) fun _ => ends_bind (ih hes) fun _ => ends_pure _

mutual

theorem ends_statement (hbody : EndsBodies ω rank n) (h : Handle) :
    ∀ s : Statement, s.Within rank n → Ends rank h (statement (body n) h s : Run ω Flow)
  | .expression e, hs => ends_bind (ends_expression hbody h e hs.calls) fun _ => ends_pure _
  | .print es, hs => by
    refine ends_bind (ends_items hbody fun e he name hname => ?_) fun _ => ?_
    · exact hs.calls name (List.mem_flatMap.2 ⟨e, he, hname⟩)
    · exact ends_bind (ends_write _) fun _ => ends_pure _
  | .assign name e, hs =>
    ends_bind (ends_expression hbody h e hs.calls) fun value =>
      ends_bind (ends_define name value) fun _ => ends_pure _
  | .ifElse condition thenBranch elseBranch, hs => by
    obtain ⟨hcondition, hthen, helse⟩ := hs.ifElse
    refine ends_bind (ends_expression hbody h condition hcondition) fun value => ?_
    split
    · exact ends_statement hbody h thenBranch hthen
    · exact ends_branch hbody h elseBranch helse
  | .block ss, hs =>
    ends_inScope (fun inner => ends_statements hbody inner ss hs.block) fun inner =>
      keeps_statements (keeps_body n) inner ss
  | .define name parameters s, hs =>
    ends_bind (ends_defineFunction hs.ranked.define) fun _ => ends_pure _
  | .giveBack none, _ => ends_pure _
  | .giveBack (some e), hs => by
    refine ends_bind (ends_expression hbody h e fun name hname => ?_) fun _ => ends_pure _
    exact hs.calls name (List.mem_flatMap.2 ⟨e, List.mem_singleton_self e, hname⟩)

theorem ends_branch (hbody : EndsBodies ω rank n) (h : Handle) :
    ∀ o : Option Statement, (∀ s ∈ o, s.Within rank n) →
      Ends rank h (branch (body n) h o : Run ω Flow)
  | none, _ => ends_pure _
  | some s, ho => ends_statement hbody h s (ho s rfl)

theorem ends_statements (hbody : EndsBodies ω rank n) (h : Handle) :
    ∀ ss : List Statement, (∀ s ∈ ss, s.Within rank n) →
      Ends rank h (statements (body n) h ss : Run ω Flow)
  | [], _ => ends_pure _
  | s :: ss, hss => by
    obtain ⟨hs, hss⟩ := List.forall_mem_cons.1 hss
    refine ends_bind (ends_statement hbody h s hs) fun flow => ?_
    cases flow with
    | proceed => exact ends_statements hbody h ss hss
    | giveBack value => exact ends_pure _

end

theorem endsBodies (ω : Type) [Sink ω] (rank : String → Nat) (n : Nat) : EndsBodies ω rank n := by
  induction n with
  | zero => exact fun s k hk => absurd hk (Nat.not_lt_zero k)
  | succ n ih =>
    intro s k hk hs h
    exact ends_statement ih h s (hs.mono (Nat.le_of_lt_succ hk))

theorem ends_root {s : Statement} (hs : s.Within rank n) :
    Ends rank .global (root n s : Run ω Flow) := by
  unfold root
  split
  · exact ends_statements (endsBodies ω rank n) .global _ hs.block
  · exact ends_statement (endsBodies ω rank n) .global _ hs

theorem exists_program {s : Statement} (hs : s.Within rank n) (m : Machine ω) :
    ∃ r m', program n s m = some (r, m') := by
  obtain ⟨x, m', hrun, -⟩ := ends_root hs (.fresh m.out) ⟨usable_singleton rfl, registers_fresh⟩
  rw [root_eq] at hrun
  exact ⟨x.bind Flow.finish, m', program_eq_some_iff.2 ⟨x, hrun, rfl⟩⟩

/-- A program whose functions are ranked ends, with success or with an error, and every budget above the
ranks of what the program itself calls is enough. -/
theorem program_ends_of_ranked {root : Statement} (hroot : root.Ranked rank) (m : Machine ω) :
    ∃ r m', (∃ n, ∀ k ≥ n, program k root m = some (r, m')) ∧
      ∀ n, (∀ name ∈ root.calls, rank name < n) → program n root m = some (r, m') := by
  have hbound : ∀ name ∈ root.calls, rank name < (root.calls.map rank).sum + 1 := by
    intro name hname
    exact Nat.lt_succ_of_le (List.le_sum_of_mem (List.mem_map_of_mem hname))
  generalize (root.calls.map rank).sum + 1 = bound at hbound
  obtain ⟨r, m', hrun⟩ := exists_program ⟨hbound, hroot⟩ m
  refine ⟨r, m', ⟨bound, fun k hk => apply_of_le (program_le hk root) hrun⟩, fun n hn => ?_⟩
  obtain ⟨r', m₁, hrun'⟩ := exists_program ⟨hn, hroot⟩ m
  -- both answers are that of the larger budget
  have hsame : some (r', m₁) = some (r, m') := by
    rw [← apply_of_le (program_le (Nat.le_max_left n bound) root) hrun',
      ← apply_of_le (program_le (Nat.le_max_right n bound) root) hrun]
  rw [hrun', hsame]

def layered : Statement := .block
  [.define "low" ["x"] (.giveBack (some (.binary .mul (.var "x") (.integer 2)))),
    .define "middle" ["x"] (.block
      [.define "low" ["x"] (.giveBack (some (.binary .add (.var "x") (.integer 1)))),
        .giveBack (some (.binary .add (.call "low" [.var "x"]) (.call "low" [.integer 0])))]),
    .define "high" ["x"] (.giveBack (some (.call "middle" [.call "low" [.var "x"]]))),
    .print [.call "high" [.integer 3]],
    .expression (.binary .div (.integer 1) (.integer 0))]

def layer (name : String) : Nat := if name = "low" then 0 else if name = "middle" then 1 else 2

theorem program_ends_of_ranked_layered : layered.Ranked layer ∧ ∃ m' : Machine Transcript,
    (∀ n ≥ 3, program n layered (.fresh Transcript.empty) = some (.error .divisionByZero, m')) ∧
      m'.out = ⟨"8\n"⟩ := by
  have hranked : layered.Ranked layer := by decide
  obtain ⟨r, m', -, hends⟩ := program_ends_of_ranked hranked (.fresh Transcript.empty)
  have hcalls : ∀ n ≥ 3, ∀ name ∈ layered.calls, layer name < n := by
    intro n hn name hname
    have hlow : ∀ name ∈ layered.calls, layer name < 3 := by decide
    exact (hlow name hname).trans_le hn
  have hrun : (program 3 layered (.fresh Transcript.empty)).map (fun x => (x.1, x.2.out)) =
      some (.error .divisionByZero, ⟨"8\n"⟩) := by cbv
  rw [hends 3 (hcalls 3 (Nat.le_refl 3))] at hrun
  obtain ⟨rfl, hout⟩ : r = .error .divisionByZero ∧ m'.out = ⟨"8\n"⟩ := by simpa using hrun
  exact ⟨hranked, m', fun n hn => hends n (hcalls n hn), hout⟩

end IntScript.Run
