import IntScript.Proofs.Grammar.Stops
import IntScript.Proofs.Grammar.EndMark

/-!
# Only the order of positions matters

If lines and columns are moved so that their order stays, the same tree is read, or the same errors are
reported at the moved positions (`ofTokens_moved`).
-/

namespace IntScript

open IntScript.Action Grammar Grammar.Parser

variable {m : Motion} {b c c' d : Cursor} {column : Nat}

namespace Grammar

/-- Ahead of the second cursor are the tokens of the first and its end mark, moved, and nothing else. -/
structure Moved (m : Motion) (b c c' : Cursor) : Prop extends Alike m b c c' where
  bare : b.ahead = []
  mark : b.finish = m.position c.finish

theorem SameAnswer.eq {α : Type} {r r' : Except SyntaxError α} (h : SameAnswer m b Eq d r r')
    (hpin : Pinned m b d) : r' = r.mapError m.error := by
  cases r with
  | ok a =>
    cases r' with
    | ok a' => exact congrArg Except.ok h.symm
    | error e' => exact False.elim h
  | error e =>
    cases r' with
    | ok a' => exact False.elim h
    | error e' => exact congrArg Except.error (h hpin)

namespace Moved

theorem pinned (h : Moved m b c c') (hfinish : d.finish = c.finish) : Pinned m b d :=
  fun _ => ⟨h.bare, by rw [hfinish, h.mark]⟩

theorem atEnd_border (h : Moved m b c c') : b.atEnd = true := by
  rw [Cursor.atEnd, h.bare]
  rfl

theorem together_program (h : Moved m b c c') (n : Nat) :
    Together m b Eq (Parser.program n) (Parser.program n) c c' := by
  have hcolumn : c'.position.column = m.column c.position.column :=
    congrArg Position.column (h.position_eq (h.pinned rfl))
  apply together_read
  rw [hcolumn]
  apply together_bind (runs_linesAt (runsHere_statement n) (.inl h.bare) n c c' h.toAlike)
  rintro ss _ d d' rfl hnext
  have hend : d'.atEnd = d.atEnd := by
    cases hend : d.atEnd with
    | false => exact hnext.atEnd_eq hend
    | true =>
      rw [hnext.atEnd hend]
      exact h.atEnd_border
  apply together_read
  rw [hend]
  split
  · exact together_pure hnext rfl
  · exact together_unexpected hnext _

end Moved

namespace Cursor

theorem finish_program (c : Cursor) : c.program.2.finish = c.finish := by
  obtain ⟨r, previous', ahead', hr⟩ := program_unmarked c.previous c.ahead
  exact congrArg (·.2.finish) (hr c.finish)

theorem finish_topLevelStatement (hend : c.atEnd = false) (column : Nat) :
    (c.topLevelStatement column).2.finish = c.finish := by
  obtain ⟨previous, _ | ⟨t, ts⟩, finish⟩ := c
  · cases hend
  · obtain ⟨r, previous', ahead', hr⟩ := topLevelStatement_unmarked column previous t ts
    exact congrArg (·.2.finish) (hr finish)

theorem finish_resume (c : Cursor) (column : Nat) : (c.resume column).finish = c.finish := by
  obtain ⟨previous, ahead, finish⟩ := c
  obtain ⟨previous', ahead', hresume⟩ := resume_unmarked column previous ahead
  rw [hresume finish]

theorem program_moved (h : Moved m b c c') : c'.program.1 = c.program.1.mapError m.error := by
  have hc : c.size < c.size + c'.size + 1 := by omega
  have hc' : c'.size < c.size + c'.size + 1 := by omega
  obtain ⟨-, hsame, -⟩ := h.together_program _ _ _ _ _ (program_bound hc) (program_bound hc')
  exact hsame.eq (h.pinned c.finish_program)

theorem topLevelStatement_moved (h : Moved m b c c') (hend : c.atEnd = false) (column : Nat) :
    Moved m b (c.topLevelStatement column).2 (c'.topLevelStatement (m.column column)).2 ∧
      (c'.topLevelStatement (m.column column)).1 =
        (c.topLevelStatement column).1.mapError m.error := by
  obtain ⟨hnext, hsame, -⟩ := alike_topLevelStatement h.toAlike hend column
  have hfinish := finish_topLevelStatement hend column
  exact ⟨⟨hnext, h.bare, hfinish ▸ h.mark⟩, hsame.eq (h.pinned hfinish)⟩

theorem resume_moved (h : Moved m b c c') (column : Nat) :
    Moved m b (c.resume column) (c'.resume (m.column column)) :=
  ⟨alike_resume h.toAlike (.inr h.atEnd_border) column, h.bare, (c.finish_resume column) ▸ h.mark⟩

theorem topLevelStatements_moved (h : Moved m b c c') (column : Nat) :
    (c'.topLevelStatements (m.column column)).1 =
      (c.topLevelStatements column).1.map (·.mapError m.error) := by
  fun_induction c.topLevelStatements column generalizing c' with
  | case1 c hend =>
    rw [h.atEnd hend, topLevelStatements_atEnd h.atEnd_border]
    rfl
  | case2 c hend _ s d hx _ outcomes last hrest ih =>
    have hinside := Bool.eq_false_iff.2 hend
    obtain ⟨hnext, hanswer⟩ := topLevelStatement_moved h hinside column
    rw [hx] at hnext hanswer
    have hothers := ih hnext
    rw [hrest] at hothers
    rw [topLevelStatements_ok (h.atEnd_eq hinside) (Prod.ext hanswer rfl), hothers]
    rfl
  | case3 c hend _ e d hx _ _ outcomes last hrest ih =>
    have hinside := Bool.eq_false_iff.2 hend
    obtain ⟨hnext, hanswer⟩ := topLevelStatement_moved h hinside column
    rw [hx] at hnext hanswer
    have hothers := ih (resume_moved hnext column)
    rw [hrest] at hothers
    rw [topLevelStatements_error (h.atEnd_eq hinside) (Prod.ext hanswer rfl), hothers]
    rfl

theorem gather_mapError (f : SyntaxError → SyntaxError) (outcomes : List (Except SyntaxError Statement)) :
    gather (outcomes.map (·.mapError f)) = (gather outcomes).mapError (·.map f) := by
  induction outcomes with
  | nil => rfl
  | cons outcome outcomes ih =>
    cases outcome with
    | ok s =>
      rw [List.map_cons, Except.mapError, gather, gather, ih]
      cases gather outcomes <;> rfl
    | error e =>
      rw [List.map_cons, Except.mapError, gather, gather, ih]
      cases gather outcomes <;> rfl

theorem recovering_moved (h : Moved m b c c') :
    c'.recovering.1 = c.recovering.1.mapError (·.map m.error) := by
  have hcolumn : c'.position.column = m.column c.position.column :=
    congrArg Position.column (h.position_eq (h.pinned rfl))
  rw [recovering_eq, recovering_eq, hcolumn]
  dsimp only
  rw [topLevelStatements_moved h, gather_mapError]
  cases gather (c.topLevelStatements c.position.column).1 <;> rfl

end Cursor

variable {ts us : List Token}

theorem exists_marks_of_moves (h : List.Forall₂ m.Moves ts us) (hmark : ∃ t ∈ ts, t.kind = .eof) :
    ∃ front t rest front' u rest', ts = front ++ t :: rest ∧ us = front' ++ u :: rest' ∧
      (∀ v ∈ front, v.kind ≠ .eof) ∧ (∀ v ∈ front', v.kind ≠ .eof) ∧ t.kind = .eof ∧
      List.Forall₂ m.Moves front front' ∧ m.Moves t u := by
  induction h with
  | nil => simp at hmark
  | @cons t u ts us htu _ ih =>
    by_cases heof : t.kind = .eof
    · exact ⟨[], t, ts, [], u, us, rfl, rfl, nofun, nofun, heof, .nil, htu⟩
    · have hbehind : ∃ v ∈ ts, v.kind = .eof := by simpa [heof] using hmark
      obtain ⟨front, v, rest, front', w, rest', rfl, rfl, hfront, hfront', hv, hmoves, hvw⟩ := ih hbehind
      refine ⟨t :: front, v, rest, u :: front', w, rest', rfl, rfl, ?_, ?_, hv, .cons htu hmoves, hvw⟩
      · exact List.forall_mem_cons.2 ⟨heof, hfront⟩
      · exact List.forall_mem_cons.2 ⟨htu.kind ▸ heof, hfront'⟩

theorem exists_moved_ofTokens (h : List.Forall₂ m.Moves ts us) (hmark : ∃ t ∈ ts, t.kind = .eof) :
    ∃ b, Moved m b (Cursor.ofTokens ts) (Cursor.ofTokens us) := by
  obtain ⟨front, t, rest, front', u, rest', rfl, rfl, hfront, hfront', ht, hmoves, htu⟩ :=
    exists_marks_of_moves h hmark
  rw [Cursor.ofTokens_append hfront ht, Cursor.ofTokens_append hfront' (htu.kind.trans ht)]
  refine ⟨⟨lastOf none front', [], u.position⟩, ⟨?_, fun _ => rfl, rfl, nofun⟩, rfl, htu.position_eq⟩
  exact ⟨front', hmoves, (List.append_nil front').symm, rfl⟩

end Grammar

namespace Statement

variable {ts us : List Token}

/-- Of tokens that are moved without a change in the order of their lines, or of their columns, the same tree
is read, or the same errors are reported, which are moved with them. -/
theorem ofTokens_moved (m : Motion) (hmark : ∃ t ∈ ts, t.kind = .eof) (h : List.Forall₂ m.Moves ts us) :
    ofTokens us = (ofTokens ts).mapError m.error ∧
      ofTokensRecovering us = (ofTokensRecovering ts).mapError (·.map m.error) := by
  obtain ⟨b, hmoved⟩ := exists_moved_ofTokens h hmark
  exact ⟨Cursor.program_moved hmoved, Cursor.recovering_moved hmoved⟩

def stretch : Motion where
  line n := 3 * n + 1
  column n := n * n
  line_mono a b h := by dsimp only; omega
  column_mono a b h := Nat.mul_self_lt_mul_self h

def hangingSum : List Token :=
  [⟨.ifKeyword, "if", ⟨0, 2, 1, 0, 1⟩⟩, ⟨.identifier, "x", ⟨3, 4, 1, 3, 1⟩⟩,
    ⟨.identifier, "y", ⟨7, 8, 2, 2, 2⟩⟩, ⟨.plus, "+", ⟨9, 10, 2, 4, 2⟩⟩, ⟨.eof, "", ⟨10, 10, 2, 5, 2⟩⟩]

def stretchedSum : List Token := hangingSum.map fun t =>
  ⟨t.kind, t.lexeme, ⟨0, 0, stretch.line t.span.line, stretch.column t.span.column,
    stretch.line t.span.endLine⟩⟩

theorem ofTokens_moved_hangingSum :
    ofTokens hangingSum = .error ⟨.unexpectedToken .expression .endOfFile, ⟨2, 5⟩⟩ ∧
    ofTokens stretchedSum = .error ⟨.unexpectedToken .expression .endOfFile, ⟨7, 25⟩⟩ ∧
    ∃ es, ofTokensRecovering stretchedSum =
      .error (⟨.unexpectedToken .expression .endOfFile, ⟨7, 25⟩⟩ :: es) := by
  have hmoves : List.Forall₂ stretch.Moves hangingSum stretchedSum :=
    List.forall₂_map_right_iff.2 (List.forall₂_same.2 fun t _ => ⟨rfl, rfl, rfl, rfl, rfl⟩)
  have hstops : ofTokens hangingSum = .error ⟨.unexpectedToken .expression .endOfFile, ⟨2, 5⟩⟩ := by rfl
  obtain ⟨hstrict, hrecovering⟩ := ofTokens_moved stretch (by decide) hmoves
  obtain ⟨es, hes⟩ := (ofTokensRecovering_agrees hangingSum).2 _ hstops
  rw [hstops] at hstrict
  rw [hes] at hrecovering
  exact ⟨hstops, hstrict, _, hrecovering⟩

end Statement

end IntScript
