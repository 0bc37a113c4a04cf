import IntScript.Proofs.Grammar.EndMark
import IntScript.Proofs.Grammar.Mirrored

/-!
# Reading again and again

One reader may be asked for its program any number of times, in either way, and each time goes on where it
stopped. It answers whatever the tokens are. It finds a token wherever it looks, its index goes up by one at
a time and never passes the first end mark, and of that mark it tells at most where it stands.
-/

namespace IntScript.Grammar

open IntScript.Action

inductive Call where
  | program
  | recovering

abbrev Answer := Except (List SyntaxError) Statement

namespace Call

def read : Call → Cursor → Answer × Cursor
  | program, c => (c.program.1.mapError ([·]), c.program.2)
  | recovering, c => c.recovering

def readByIndex (n : Nat) : Call → Reading Answer
  | program => do return (← Reading.attempt (Reading.program n)).mapError ([·])
  | recovering => Reading.recovering n

end Call

def Cursor.session : List Call → Cursor → List (Answer × Nat)
  | [], _ => []
  | call :: calls, c =>
    ((call.read c).1, (call.read c).2.size) :: Cursor.session calls (call.read c).2

/-- The answers to calls one after the other, and with each all indices that the reader has had. There are
none if a call needs more steps than it is granted, or looks for a token where none is. -/
def Reader.session (n : Nat) : List Call → Reader → Option (List (Answer × List Nat))
  | [], _ => some []
  | call :: calls, s =>
    match call.readByIndex n s with
    | some (.ok answer, s') => (Reader.session n calls s').map ((answer, s'.path) :: ·)
    | _ => none

namespace Input

variable {x : Input} {start i n : Nat}

theorem readByIndex_apply (call : Call) (hstart : start ≤ i) (hi : i ≤ x.front.length)
    (hn : x.front.length - i < n) :
    x.Arrives (call.readByIndex n) start i (.ok (call.read (x.cursor i)).1)
      (call.read (x.cursor i)).2 := by
  cases call with
  | program =>
    obtain ⟨start', j, hstart', hij, hj, hstep, hcursor⟩ := program_apply hstart hi hn
    refine ⟨start', j, hstart', hij, hj, ?_, hcursor⟩
    have hattempt : Reading.attempt (Reading.program n) (x.reader start i) =
        some (.ok (x.cursor i).program.1, x.reader start' j) := by
      rw [Reading.attempt, hstep]
      rfl
    exact bind_eq_ok hattempt
  | recovering => exact recovering_apply hstart hi hn

theorem session_apply (calls : List Call) (hstart : start ≤ i) (hi : i ≤ x.front.length)
    (hn : x.front.length - i < n) :
    (x.reader start i).session n calls = some (((x.cursor i).session calls).map
        (Prod.map id fun left => Reader.pathTo (x.front.length - left))) ∧
      (i :: ((x.cursor i).session calls).map (x.front.length - ·.2)).Pairwise (· ≤ ·) := by
  induction calls generalizing start i with
  | nil => exact ⟨rfl, List.pairwise_singleton _ i⟩
  | cons call calls ih =>
    obtain ⟨start', j, hstart', hij, hj, hstep, hcursor⟩ := readByIndex_apply call hstart hi hn
    -- the index has not gone down, so what was granted for this call does for the next ones
    obtain ⟨hrest, hgoes⟩ := ih hstart' hj (by omega)
    have hindex : x.front.length - (x.cursor j).size = j := by
      rw [size_cursor]
      omega
    rw [Reader.session, hstep, Cursor.session, hcursor]
    constructor
    · dsimp only
      rw [hrest, Option.map_some, List.map_cons, Prod.map, hindex]
      rfl
    · rw [List.map_cons, hindex, List.pairwise_cons]
      refine ⟨fun k hk => ?_, hgoes⟩
      rcases List.mem_cons.1 hk with rfl | hk
      · exact hij
      · exact Nat.le_trans hij (List.rel_of_pairwise_cons hgoes hk)

end Input

/-- The first tokens are all those before the first end mark, or all tokens. -/
def Fronts (front ts : List Token) : Prop :=
  (∀ t ∈ front, t.kind ≠ .eof) ∧
    (ts = front ∨ ∃ mark rest, mark.kind = .eof ∧ ts = front ++ mark :: rest)

namespace Fronts

variable {front ts : List Token}

theorem of_takeWhile (ts : List Token) : Fronts (ts.takeWhile (·.kind ≠ .eof)) ts := by
  have hsplit : ts.takeWhile (·.kind ≠ .eof) ++ ts.dropWhile (·.kind ≠ .eof) = ts :=
    List.takeWhile_append_dropWhile
  constructor
  · intro t ht
    simpa using List.all_eq_true.1 List.all_takeWhile t ht
  · cases hrest : ts.dropWhile (·.kind ≠ .eof) with
    | nil =>
      rw [hrest, List.append_nil] at hsplit
      exact .inl hsplit.symm
    | cons mark rest =>
      have hmark := List.head?_dropWhile_not (fun t : Token => decide (t.kind ≠ .eof)) ts
      rw [hrest] at hmark hsplit
      exact .inr ⟨mark, rest, by simpa using hmark, hsplit.symm⟩

theorem position_endMark (ts : List Token) (h : ∀ t ∈ ts, t.kind ≠ .eof) :
    (Reader.endMark ts.getLast?).position = Cursor.finishOf ts := by
  have hnone : ts.find? (·.kind = .eof) = none := by
    simpa using h
  rw [Cursor.finishOf, hnone]
  cases ts.getLast? <;> rfl

theorem position_append (hfront : ∀ t ∈ front, t.kind ≠ .eof) {mark : Token} (hmark : mark.kind = .eof)
    (rest : List Token) : mark.position = Cursor.finishOf (front ++ mark :: rest) :=
  (congrArg Cursor.finish (Cursor.ofTokens_append hfront hmark rest)).symm

theorem exists_input (h : Fronts front ts) : ∃ x : Input, x.front = front ∧
    Reader.ofTokens ts = x.reader 0 0 ∧ x.mark.position = Cursor.finishOf ts := by
  obtain ⟨hfront, rfl | ⟨mark, rest, hmark, rfl⟩⟩ := h
  · have hopen : (ts.getLast?.any fun t => t.kind = .eof) = false := by
      cases hlast : ts.getLast? with
      | none => rfl
      | some t => simpa using hfront t (List.mem_of_getLast? hlast)
    refine ⟨⟨ts, Reader.endMark ts.getLast?, [], hfront, ?_⟩, rfl, ?_, position_endMark ts hfront⟩
    · cases ts.getLast? <;> rfl
    · rw [Reader.ofTokens, Reader.closed, hopen]
      rfl
  · have hposition := position_append hfront hmark rest
    by_cases hlast : (front ++ mark :: rest).getLast?.any (·.kind = .eof)
    · refine ⟨⟨front, mark, rest, hfront, hmark⟩, rfl, ?_, hposition⟩
      rw [Reader.ofTokens, Reader.closed, if_pos hlast]
      rfl
    · refine ⟨⟨front, mark, rest ++ [Reader.endMark (front ++ mark :: rest).getLast?], hfront, hmark⟩,
        rfl, ?_, hposition⟩
      rw [Reader.ofTokens, Reader.closed, if_neg hlast, List.append_assoc]
      rfl

theorem session_eq (h : Fronts front ts) (n : Nat) (calls : List Call) :
    (Reader.ofTokens ts).session (front.length + 1 + n) calls =
      some (((Cursor.mk none front (Cursor.finishOf ts)).session calls).map
        (Prod.map id fun left => Reader.pathTo (front.length - left))) := by
  obtain ⟨x, rfl, hreader, hmark⟩ := h.exists_input
  rw [hreader, ← hmark]
  exact (Input.session_apply calls (Nat.le_refl 0) (Nat.zero_le _) (by omega)).1

theorem session_rises (h : Fronts front ts) (calls : List Call) :
    (0 :: ((Cursor.mk none front (Cursor.finishOf ts)).session calls).map
      (front.length - ·.2)).Pairwise (· ≤ ·) := by
  obtain ⟨x, rfl, -, hmark⟩ := h.exists_input
  rw [← hmark]
  exact (Input.session_apply calls (Nat.le_refl 0) (Nat.zero_le _) (Nat.lt_succ_self _)).2

theorem take (h : Fronts front ts) : Fronts front (ts.take (front.length + 1)) ∧
    Cursor.finishOf (ts.take (front.length + 1)) = Cursor.finishOf ts := by
  obtain ⟨hfront, rfl | ⟨mark, rest, hmark, rfl⟩⟩ := h
  · rw [List.take_of_length_le (Nat.le_succ _)]
    exact ⟨⟨hfront, .inl rfl⟩, rfl⟩
  · have htake : (front ++ mark :: rest).take (front.length + 1) = front ++ [mark] := by
      rw [List.take_length_add_append]
      rfl
    rw [htake, ← position_append hfront hmark [], ← position_append hfront hmark rest]
    exact ⟨⟨hfront, .inr ⟨mark, [], hmark, rfl⟩⟩, rfl⟩

end Fronts

def Blame.answer (finish : Position) (r : Except (List Blame) Statement) : Answer :=
  r.mapError (·.map (·.error finish))

theorem Call.read_unmarked (call : Call) (previous : Option Token) (ahead : List Token) :
    ∃ (r : Except (List Blame) Statement) (previous' : Option Token) (ahead' : List Token), ∀ finish,
      call.read ⟨previous, ahead, finish⟩ = (Blame.answer finish r, ⟨previous', ahead', finish⟩) := by
  cases call with
  | recovering => exact Cursor.recovering_unmarked previous ahead
  | program =>
    obtain ⟨r, previous', ahead', hr⟩ := Cursor.program_unmarked previous ahead
    refine ⟨r.mapError ([·]), previous', ahead', fun finish => ?_⟩
    rw [Call.read, hr finish]
    cases r <;> rfl

def Blame.steps (finish : Position) (plan : List (Except (List Blame) Statement × Nat)) :
    List (Answer × List Nat) :=
  plan.map (Prod.map (Blame.answer finish) Reader.pathTo)

theorem Cursor.session_unmarked (calls : List Call) (previous : Option Token) (ahead : List Token) :
    ∃ plan : List (Except (List Blame) Statement × Nat), ∀ finish,
      (Cursor.mk previous ahead finish).session calls = plan.map (Prod.map (Blame.answer finish) id) := by
  induction calls generalizing previous ahead with
  | nil => exact ⟨[], fun _ => rfl⟩
  | cons call calls ih =>
    obtain ⟨r, previous', ahead', hr⟩ := call.read_unmarked previous ahead
    obtain ⟨plan, hplan⟩ := ih previous' ahead'
    refine ⟨(r, ahead'.length) :: plan, fun finish => ?_⟩
    rw [Cursor.session, hr finish, hplan finish]
    rfl

/-- Calls on a reader of any tokens are all answered, whatever number of steps above that of the tokens is
granted: none of them looks for a token where none is. The answers are those of the cursor. The index goes
up by one at a time, in each call from where the one before stopped, and not beyond the first end mark. What
stands behind that mark is not looked at. The mark itself may stand anywhere, or be left out: trees and
faults are the same, and only the errors that are reported at the mark move with it. -/
theorem Reader.session_ofTokens (ts : List Token) (calls : List Call) :
    let front := ts.takeWhile (·.kind ≠ .eof)
    ∃ plan : List (Except (List Blame) Statement × Nat),
      (0 :: plan.map (·.2)).Pairwise (· ≤ ·) ∧ (∀ step ∈ plan, step.2 ≤ front.length) ∧
      ((Cursor.ofTokens ts).session calls).map (·.1) =
        (Blame.steps (Cursor.finishOf ts) plan).map (·.1) ∧
      ∀ n,
        (Reader.ofTokens ts).session (front.length + 1 + n) calls =
          some (Blame.steps (Cursor.finishOf ts) plan) ∧
        (Reader.ofTokens (ts.take (front.length + 1))).session (front.length + 1 + n) calls =
          some (Blame.steps (Cursor.finishOf ts) plan) ∧
        (∀ lexeme span,
          (Reader.ofTokens (front ++ [⟨.eof, lexeme, span⟩])).session (front.length + 1 + n) calls =
            some (Blame.steps ⟨span.line, span.column⟩ plan)) ∧
        (Reader.ofTokens front).session (front.length + 1 + n) calls =
          some (Blame.steps (Cursor.finishOf front) plan) := by
  intro front
  have hts : Fronts front ts := .of_takeWhile ts
  obtain ⟨left, hleft⟩ := Cursor.session_unmarked calls none front
  -- one account for all lists of tokens that are alike up to the first end mark
  have hall : ∀ us, Fronts front us → ∀ n,
      (Reader.ofTokens us).session (front.length + 1 + n) calls = some (Blame.steps (Cursor.finishOf us)
        (left.map (Prod.map id (front.length - ·)))) := by
    intro us hus n
    rw [hus.session_eq, hleft]
    simp [Blame.steps, Function.comp_def]
  refine ⟨left.map (Prod.map id (front.length - ·)), ?_, ?_, ?_, fun n =>
    ⟨hall ts hts n, ?_, ?_, ?_⟩⟩
  · have hrises := hts.session_rises calls
    rw [hleft] at hrises
    simpa [Function.comp_def] using hrises
  · intro step hstep
    obtain ⟨step, -, rfl⟩ := List.mem_map.1 hstep
    exact Nat.sub_le _ _
  · have hcursor : Cursor.ofTokens ts = ⟨none, front, Cursor.finishOf ts⟩ := rfl
    rw [hcursor, hleft]
    simp [Blame.steps, Function.comp_def]
  · rw [hall _ hts.take.1, hts.take.2]
  · intro lexeme span
    have hmark : (⟨.eof, lexeme, span⟩ : Token).position = _ := Fronts.position_append hts.1 rfl []
    rw [hall _ ⟨hts.1, .inr ⟨_, [], rfl, rfl⟩⟩, ← hmark]
    rfl
  · exact hall front ⟨hts.1, .inl rfl⟩ n

end IntScript.Grammar
