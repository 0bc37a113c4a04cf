import IntScript.Proofs.Action.Triple
import IntScript.Proofs.Run.Congruence
import IntScript.Proofs.Run.Writer
import IntScript.Script
import Mathlib

/-!
# Running into a limit

A program runs the same way into a sink that takes only so many bytes, until it prints beyond them. Then
it ends with the sink's refusal, and the sink has been given nothing more. So what the sink has is the
front of what the program prints when it is given all the room it needs.
-/

namespace IntScript

open IntScript.Action

theorem toUTF8_append (s t : String) : (s ++ t).toUTF8 = s.toUTF8 ++ t.toUTF8 :=
  String.toByteArray_append

/-- A sink that takes so many bytes and refuses what is beyond them: what it shows after it took a text,
and what after it refused a part of one. -/
structure Bounded (ω : Type) [Sink ω] (room : Nat) (refusal : String) where
  took : String → ω → Prop
  refused : String → ω → Prop
  write_fits : ∀ text x s, took text x → (text ++ s).toUTF8.size ≤ room →
    ∃ x', Sink.write x s = (.ok (), x') ∧ took (text ++ s) x'
  write_over : ∀ text x s, took text x → room < (text ++ s).toUTF8.size →
    ∃ x', Sink.write x s = (.error refusal, x') ∧ refused (text ++ s) x'
  refused_append : ∀ text x s, room < text.toUTF8.size → refused text x → refused (text ++ s) x

namespace Bounded

variable {ω α β : Type} [Sink ω] {room : Nat} {refusal : String} (b : Bounded ω room refusal)

structure Level (t : Machine Transcript) (m : Machine ω) : Prop where
  arena : m.arena = t.arena
  took : b.took t.out.text m.out
  fits : t.out.text.toUTF8.size ≤ room

inductive Ends (r : Except RuntimeError α) (t : Machine Transcript) :
    Except RuntimeError α → Machine ω → Prop where
  | level {m : Machine ω} (h : b.Level t m) : Ends r t r m
  | refused {m : Machine ω} (hover : room < t.out.text.toUTF8.size)
      (h : b.refused t.out.text m.out) : Ends r t (.error (.output refusal)) m

structure Follows (p : Run Transcript α) (p' : Run ω α) : Prop where
  grows : ∀ t r t', p t = some (r, t') → ∃ rest, t'.out.text = t.out.text ++ rest
  ends : ∀ t m r t', b.Level t m → p t = some (r, t') →
    ∃ r' m', p' m = some (r', m') ∧ b.Ends r t' r' m'

variable {b}

theorem follows_pure (a : α) : b.Follows (pure a) (pure a) where
  grows t r t' hrun := by
    cases hrun
    exact ⟨"", by simp⟩
  ends t m r t' hlevel hrun := by
    cases hrun
    exact ⟨_, m, rfl, .level hlevel⟩

theorem follows_ofExcept (x : Except RuntimeError α) :
    b.Follows (Action.ofExcept x) (Action.ofExcept x) where
  grows t r t' hrun := by
    cases hrun
    exact ⟨"", by simp⟩
  ends t m r t' hlevel hrun := by
    cases hrun
    exact ⟨_, m, rfl, .level hlevel⟩

theorem follows_fail (e : RuntimeError) :
    b.Follows (Action.fail e : Run Transcript α) (Action.fail e) :=
  follows_ofExcept (.error e)

theorem follows_stuck : b.Follows (Action.stuck : Run Transcript α) Action.stuck where
  grows t r t' hrun := by cases hrun
  ends t m r t' hlevel hrun := by cases hrun

theorem follows_consult (f : Arena → Except Arena.Fault α) :
    b.Follows (Run.consult f) (Run.consult f) where
  grows t r t' hrun := by
    unfold Run.consult at hrun
    split at hrun
    · cases hrun
      exact ⟨"", by simp⟩
    · cases hrun
  ends t m r t' hlevel hrun := by
    unfold Run.consult at hrun ⊢
    rw [hlevel.arena]
    split at hrun
    · next a ha =>
      cases hrun
      exact ⟨.ok a, m, rfl, .level hlevel⟩
    · cases hrun

theorem follows_revise (f : Arena → Except Arena.Fault Arena) :
    b.Follows (Run.revise f) (Run.revise f) where
  grows t r t' hrun := by
    unfold Run.revise at hrun
    split at hrun
    · cases hrun
      exact ⟨"", by simp⟩
    · cases hrun
  ends t m r t' hlevel hrun := by
    unfold Run.revise at hrun ⊢
    rw [hlevel.arena]
    split at hrun
    · next arena harena =>
      cases hrun
      exact ⟨.ok (), { m with arena := arena }, rfl, .level ⟨rfl, hlevel.took, hlevel.fits⟩⟩
    · cases hrun

theorem follows_write (s : String) : b.Follows (Run.write s) (Run.write s) where
  grows t r t' hrun := by
  -- The one place where the two can part.
    cases hrun
    exact ⟨s, rfl⟩
  ends t m r t' hlevel hrun := by
    cases hrun
    unfold Run.write
    by_cases hfits : (t.out.text ++ s).toUTF8.size ≤ room
    · obtain ⟨x, hx, htook⟩ := b.write_fits _ _ s hlevel.took hfits
      rw [hx]
      exact ⟨_, _, rfl, .level ⟨hlevel.arena, htook, hfits⟩⟩
    · have hover := Nat.lt_of_not_le hfits
      obtain ⟨x, hx, hrefused⟩ := b.write_over _ _ s hlevel.took hover
      rw [hx]
      exact ⟨_, _, rfl, .refused hover hrefused⟩

theorem follows_bind {p : Run Transcript α} {p' : Run ω α} {f : α → Run Transcript β}
    {f' : α → Run ω β} (hp : b.Follows p p') (hf : ∀ a, b.Follows (f a) (f' a)) :
    b.Follows (p >>= f) (p' >>= f') where
  grows t r t' hrun := by
    obtain ⟨e, he, -⟩ | ⟨a, t₁, ha, hrest⟩ := bind_eq_some_iff.1 hrun
    · exact hp.grows t _ t' he
    · obtain ⟨first, hfirst⟩ := hp.grows t _ t₁ ha
      obtain ⟨second, hsecond⟩ := (hf a).grows t₁ r t' hrest
      exact ⟨first ++ second, by rw [hsecond, hfirst, String.append_assoc]⟩
  ends t m r t' hlevel hrun := by
    obtain ⟨e, he, hr⟩ | ⟨a, t₁, ha, hrest⟩ := bind_eq_some_iff.1 hrun
    · subst hr
      obtain ⟨r₁, m₁, hm₁, hends⟩ := hp.ends t m _ t' hlevel he
      cases hends with
      | level hlevel₁ => exact ⟨.error e, m₁, bind_eq_error hm₁, .level hlevel₁⟩
      | refused hover hrefused =>
        exact ⟨.error (.output refusal), m₁, bind_eq_error hm₁, .refused hover hrefused⟩
    · obtain ⟨r₁, m₁, hm₁, hends⟩ := hp.ends t m _ t₁ hlevel ha
      cases hends with
      | level hlevel₁ =>
        rw [bind_eq_ok hm₁]
        exact (hf a).ends t₁ m₁ r t' hlevel₁ hrest
      | refused hover hrefused =>
        -- what the first run still writes is beyond what was refused
        obtain ⟨rest, hgrown⟩ := (hf a).grows t₁ r t' hrest
        rw [bind_eq_error hm₁]
        refine ⟨_, m₁, rfl, .refused ?_ ?_⟩
        · rw [hgrown, toUTF8_append, ByteArray.size_append]
          exact Nat.lt_add_right _ hover
        · rw [hgrown]
          exact b.refused_append _ _ _ hover hrefused

theorem follows_inScope (h : Handle) {p : Handle → Run Transcript α} {p' : Handle → Run ω α}
    (hp : ∀ inner, b.Follows (p inner) (p' inner)) :
    b.Follows (Run.inScope h p) (Run.inScope h p') where
  grows t r t' hrun := by
    rw [Run.inScope_apply] at hrun
    obtain ⟨x, hinner, hx⟩ := Option.map_eq_some_iff.1 hrun
    cases hx
    have hgrown := (hp _).grows _ x.1 x.2 hinner
    exact hgrown
  ends t m r t' hlevel hrun := by
    rw [Run.inScope_apply] at hrun ⊢
    obtain ⟨x, hinner, hx⟩ := Option.map_eq_some_iff.1 hrun
    cases hx
    rw [hlevel.arena]
    have hinside : b.Level { t with arena := (t.arena.push h).1 }
        { m with arena := (t.arena.push h).1 } := ⟨rfl, hlevel.took, hlevel.fits⟩
    obtain ⟨r', m₁, hm₁, hends⟩ := (hp _).ends _ _ _ _ hinside hinner
    rw [hm₁]
    refine ⟨r', _, rfl, ?_⟩
    cases hends with
    | level hlevel₁ => exact .level ⟨by rw [hlevel₁.arena], hlevel₁.took, hlevel₁.fits⟩
    | refused hover hrefused => exact .refused hover hrefused

def congruence (b : Bounded ω room refusal) : Run.Congruence Transcript ω where
  Rel h k _ p p' := h = k → b.Follows p p'
  stuck := fun _ => follows_stuck
  ofExcept x := fun _ => follows_ofExcept x
  bind hp hf := fun heq => follows_bind (hp heq) fun a => hf a heq
  get _ := by
    rintro rfl
    exact follows_consult _
  getFunction _ := by
    rintro rfl
    exact follows_consult _
  define _ _ := by
    rintro rfl
    exact follows_revise _
  defineFunction _ := by
    rintro rfl
    exact follows_revise _
  inScope hp := by
    rintro rfl
    exact follows_inScope _ fun inner => hp inner inner rfl
  write s := fun _ => follows_write s

theorem follows_root (budget : Nat) (s : Statement) :
    b.Follows (Run.root budget s) (Run.root budget s) := by
  unfold Run.root
  split
  · exact b.congruence.rel_statements (b.congruence.rel_body budget) .global .global _ rfl
  · exact b.congruence.rel_execute budget s .global .global rfl

theorem follows_program (budget : Nat) (s : Statement) :
    b.Follows (Run.program budget s) (Run.program budget s) := by
  refine follows_bind ?_ fun _ => follows_bind (follows_root budget s) fun flow => ?_
  · exact follows_revise fun _ => .ok .fresh
  · cases flow with
    | proceed => exact follows_pure ()
    | giveBack value => exact follows_fail _

theorem run_ends {budget : Nat} {source : String} {r : Except Failure Unit} {out : Transcript} {x : ω}
    (hx : b.took "" x) (hrun : Script.run budget source Transcript.empty = some (r, out)) :
    (out.text.toUTF8.size ≤ room →
      ∃ x', Script.run budget source x = some (r, x') ∧ b.took out.text x') ∧
    (room < out.text.toUTF8.size →
      ∃ x', Script.run budget source x = some (.error (.running (.output refusal)), x') ∧
        b.refused out.text x') := by
  unfold Script.run at hrun ⊢
  cases hsource : Statement.ofSource source with
  | error e =>
    rw [hsource] at hrun
    cases hrun
    exact ⟨fun _ => ⟨x, rfl, hx⟩, fun hover => absurd hover (by simp [Transcript.empty])⟩
  | ok program =>
    rw [hsource] at hrun
    dsimp only at hrun ⊢
    obtain ⟨⟨r₁, t⟩, ht, hans⟩ := Option.map_eq_some_iff.1 hrun
    cases hans
    have hlevel : b.Level (.fresh Transcript.empty) (.fresh x) :=
      ⟨rfl, hx, by simp [Machine.fresh, Transcript.empty]⟩
    obtain ⟨r', m, hm, hends⟩ := (follows_program budget program).ends _ _ _ _ hlevel ht
    rw [hm]
    cases hends with
    | level hlevel' =>
      exact ⟨fun _ => ⟨_, rfl, hlevel'.took⟩, fun hover => absurd hover (Nat.not_lt.2 hlevel'.fits)⟩
    | refused hover hrefused =>
      exact ⟨fun hfits => absurd hover (Nat.not_lt.2 hfits), fun _ => ⟨_, rfl, hrefused⟩⟩

end Bounded

namespace Writer

variable {w x : Writer} {text : String}

theorem Took.write (htook : Took w text.toUTF8 (.ok (), x)) (s : String) :
    Took w (text ++ s).toUTF8 (Sink.write x s) := by
  rw [toUTF8_append]
  exact htook.append (x.write_took s)

def bounded (w : Writer) : Bounded Writer w.room w.refusal.message where
  took text x := Took w text.toUTF8 (.ok (), x)
  refused text x := Took w text.toUTF8 (.error w.refusal.message, x)
  write_fits text x s htook hfits := by
    have hwrite := htook.write s
    cases hx : Sink.write x s with
    | mk answer x' =>
      rw [hx] at hwrite
      cases hwrite with
      | all hroom hquota hrefusals => exact ⟨x', rfl, .all hroom hquota hrefusals⟩
      | part hroom => omega
  write_over text x s htook hover := by
    have hwrite := htook.write s
    cases hx : Sink.write x s with
    | mk answer x' =>
      rw [hx] at hwrite
      cases hwrite with
      | all hroom => omega
      | part hroom hquota hrefusals => exact ⟨x', rfl, .part hroom hquota hrefusals⟩
  refused_append text x s _ hrefused := by
    rw [toUTF8_append]
    exact hrefused.append_of_error _

end Writer

namespace Quota

theorem accepted_of_le {q : Quota} {bytes : ByteArray} (h : bytes.size ≤ q.room) :
    (q.accept bytes).accepted = q.accepted ++ bytes := by
  have hall : bytes.extract 0 q.room = bytes := by
    calc bytes.extract 0 q.room = (bytes.extract 0 bytes.size).extract 0 q.room := by
          rw [ByteArray.extract_zero_size]
      _ = bytes := by
          rw [ByteArray.extract_extract, Nat.zero_add, Nat.zero_add, Nat.min_eq_right h,
            ByteArray.extract_zero_size]
  rw [accept, hall]

theorem write_accept (q : Quota) (text s : String) :
    Sink.write (q.accept text.toUTF8) s =
      (if s.toUTF8.size ≤ q.room - text.toUTF8.size then .ok () else .error q.refusal,
        q.accept (text ++ s).toUTF8) := by
  rw [toUTF8_append, accept_append]
  rfl

def bounded (q : Quota) : Bounded Quota q.room q.refusal where
  took text x := text.toUTF8.size ≤ q.room ∧ x = q.accept text.toUTF8
  refused text x := x = q.accept text.toUTF8
  write_fits text x s htook hfits := by
    have hroom := hfits
    rw [toUTF8_append, ByteArray.size_append] at hroom
    rw [htook.2, write_accept, if_pos (by omega)]
    exact ⟨_, rfl, hfits, rfl⟩
  write_over text x s htook hover := by
    have hroom := htook.1
    rw [toUTF8_append, ByteArray.size_append] at hover
    rw [htook.2, write_accept, if_neg (by omega)]
    exact ⟨_, rfl, rfl⟩
  refused_append text x s hover hrefused := by
    rw [toUTF8_append]
    exact hrefused.trans (accept_append_of_lt hover _).symm

end Quota

namespace Script

variable {budget : Nat} {source : String} {r : Except Failure Unit} {out : Transcript}

/-- A writer that takes so many bytes, in whatever parts, and then refuses has in the end what the script
prints, or the front of it for which there is room and the script fails with the refusal. It is offered
nothing after it refused. -/
theorem run_into_writer (hrun : run budget source Transcript.empty = some (r, out)) (w : Writer) :
    (out.text.toUTF8.size ≤ w.room → ∃ w', run budget source w = some (r, w') ∧
      w'.accepted = w.accepted ++ out.text.toUTF8 ∧ w'.refusals = w.refusals) ∧
    (w.room < out.text.toUTF8.size → ∃ w',
      run budget source w = some (.error (.running (.output w.refusal.message)), w') ∧
      w'.accepted = w.accepted ++ out.text.toUTF8.extract 0 w.room ∧
      w'.refusals = w.refusals + 1) := by
  obtain ⟨hwithin, hbeyond⟩ := Bounded.run_ends (b := w.bounded) w.took_empty hrun
  constructor
  · intro hfits
    obtain ⟨w', hw', htook⟩ := hwithin hfits
    cases htook with
    | all hroom hquota hrefusals =>
      refine ⟨w', hw', ?_, hrefusals⟩
      exact (congrArg Quota.accepted hquota).trans (Quota.accepted_of_le hroom)
  · intro hover
    obtain ⟨w', hw', htook⟩ := hbeyond hover
    cases htook with
    | part hroom hquota hrefusals => exact ⟨w', hw', congrArg Quota.accepted hquota, hrefusals⟩

def shortfall : String := "print 12, 3\nprint 4 / 0\n"

def narrow : Writer where
  accepted := .empty
  room := 3
  refusal := .nothing
  refusals := 0
  shares _ := 2
  shares_pos _ := by omega

theorem run_into_writer_shortfall : ∃ w',
    run 0 shortfall narrow = some (.error (.running (.output "failed to write whole buffer")), w') ∧
      w'.accepted = "12 ".toUTF8 ∧ w'.refusals = 1 := by
  have hrun : run 0 shortfall Transcript.empty =
      some (.error (.running .divisionByZero), ⟨"12 3\n"⟩) := by cbv
  obtain ⟨w', hw', haccepted, hrefusals⟩ := (run_into_writer hrun narrow).2 (by decide)
  have hfront : narrow.accepted ++ "12 3\n".toUTF8.extract 0 narrow.room = "12 ".toUTF8 := by
    decide
  exact ⟨w', hw', haccepted.trans hfront, hrefusals⟩

theorem run_into_quota (hrun : run budget source Transcript.empty = some (r, out)) (q : Quota) :
    (out.text.toUTF8.size ≤ q.room →
      run budget source q = some (r, q.accept out.text.toUTF8)) ∧
    (q.room < out.text.toUTF8.size →
      run budget source q = some (.error (.running (.output q.refusal)), q.accept out.text.toUTF8)) := by
  have hnone : q.bounded.took "" q := ⟨by simp, q.accept_empty.symm⟩
  obtain ⟨hwithin, hbeyond⟩ := Bounded.run_ends hnone hrun
  constructor
  · intro hfits
    obtain ⟨q', hq', -, rfl⟩ := hwithin hfits
    exact hq'
  · intro hover
    obtain ⟨q', hq', rfl⟩ := hbeyond hover
    exact hq'

end Script

end IntScript
