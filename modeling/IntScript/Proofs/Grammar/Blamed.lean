import IntScript.Proofs.Grammar.Decisions
import IntScript.Proofs.Grammar.Recovery
import IntScript.Proofs.Token.Positions

/-!
# Which tokens recovery reports

A statement stops at the end mark or beside the token that it reports, and reading goes on behind that token.
So the errors of a program point at some of its tokens, each of them further on than the one before
(`ofTokensRecovering_ascending`).
-/

namespace IntScript

open Grammar Grammar.Parser

variable {ts : List Token} {t : Token} {c d x : Cursor} {column : Nat}

namespace Grammar.Cursor

def positions (c : Cursor) : List Position := c.ahead.map Token.position ++ [c.finish]

theorem Passes.positions_eq (h : c.Passes ts d) : c.positions = ts.map Token.position ++ d.positions := by
  rw [positions, positions, h.ahead, h.finish, List.map_append, List.append_assoc]

theorem Passes.positions_sublist (h : c.Passes ts d) : d.positions.Sublist c.positions := by
  rw [h.positions_eq]
  exact List.sublist_append_right ..

theorem passes_seekLine (column : Nat) (finish : Position) (previous : Option Token) (ts : List Token) :
    ∃ us, (Cursor.mk previous ts finish).Passes us (seekLine column finish previous ts) := by
  induction ts generalizing previous with
  | nil => exact ⟨[], .refl _⟩
  | cons t ts ih =>
    rw [seekLine]
    split
    · exact ⟨[], .refl _⟩
    · obtain ⟨us, hus⟩ := ih (some t)
      exact ⟨[t] ++ us, passes_advance.trans hus⟩

theorem passes_resume (c : Cursor) (column : Nat) : ∃ us, c.advance.Passes us (c.resume column) := by
  obtain ⟨previous, _ | ⟨t, ts⟩, finish⟩ := c
  · exact passes_seekLine ..
  · exact passes_seekLine ..

theorem Beside.resume (h : x.Beside t d) (column : Nat) : ∃ us, d.Passes us (x.resume column) := by
  obtain ⟨us, hus⟩ := x.passes_resume column
  obtain hfront | rfl := h
  · rw [hfront.advance_eq] at hus
    exact ⟨us, hus⟩
  · obtain ⟨previous, _ | ⟨u, vs⟩, finish⟩ := x
    · exact ⟨us, hus⟩
    · exact ⟨[u] ++ us, passes_advance.trans hus⟩

theorem atEnd_resume_of_nil (h : c.ahead = []) (column : Nat) : (c.resume column).atEnd = true := by
  obtain ⟨previous, ahead, finish⟩ := c
  obtain rfl : ahead = [] := h
  rfl

theorem positions_of_statement {s : Statement} (h : c.topLevelStatement column = (.ok s, x)) :
    x.positions.Sublist c.positions := by
  obtain ⟨ts, hpass⟩ := (decided_topLevelStatement column _ c).ok (h ▸ topLevelStatement_eq_some)
  exact hpass.positions_sublist

theorem positions_of_error {e : SyntaxError} (h : c.topLevelStatement column = (.error e, x)) :
    e.position = c.finish ∧ (x.resume column).atEnd = true ∨
      (e.position :: (x.resume column).positions).Sublist c.positions := by
  obtain ⟨he, hahead⟩ | ⟨ts, t, d, hpass, he, hbeside, -⟩ :=
    (decided_topLevelStatement column _ c).error (h ▸ topLevelStatement_eq_some)
  · exact .inl ⟨he, atEnd_resume_of_nil hahead column⟩
  · right
    obtain ⟨us, hus⟩ := hbeside.resume column
    rw [he, hpass.positions_eq, List.map_append, List.append_assoc]
    exact (hus.positions_sublist.cons_cons t.position).trans (List.sublist_append_right ..)

theorem reported_sublist (c : Cursor) (column : Nat) :
    ((reportedErrors (gather (c.topLevelStatements column).1)).map (·.position)).Sublist c.positions := by
  fun_induction c.topLevelStatements column with
  | case1 => exact List.nil_sublist _
  | case2 c hend _ s x hx _ outcomes last hrest ih =>
    rw [hrest] at ih
    rw [gather, reportedErrors_map]
    exact ih.trans (positions_of_statement hx)
  | case3 c hend _ e x hx _ _ outcomes last hrest ih =>
    rw [reportedErrors_gather_error, List.map_cons]
    obtain ⟨he, hstop⟩ | hbehind := positions_of_error hx
    · rw [topLevelStatements_eq_atEnd hstop] at hrest
      cases hrest
      rw [he]
      exact List.sublist_append_right ..
    · rw [hrest] at ih
      exact (ih.cons_cons e.position).trans hbehind

end Grammar.Cursor

namespace Statement

/-- The errors point at tokens of the text, each at one that is further on than that of the error before. So
no token is reported twice. -/
theorem ofTokensRecovering_ascending {source : String} {es : List SyntaxError}
    (hts : Token.tokenize source = .ok ts) (h : ofTokensRecovering ts = .error es) :
    (∀ e ∈ es, ∃ t ∈ ts, t.position = e.position) ∧
      (es.map (·.position)).Pairwise Position.Before ∧
      ∀ t ∈ ts, (es.map (·.position)).count t.position ≤ 1 := by
  have hbefore := List.pairwise_map.2 (Token.before_of_tokenize hts)
  have hsublist : (es.map (·.position)).Sublist (ts.map Token.position) := by
    obtain ⟨front, q, rfl, hsegments⟩ := Token.exists_segmented_of_tokenize hts
    rw [ofTokensRecovering, Cursor.ofTokens_append hsegments.marked.2 rfl, Cursor.recovering_eq] at h
    have hreported := congrArg reportedErrors h
    rw [reportedErrors_map] at hreported
    have hsub := Cursor.reported_sublist ⟨none, front, (Token.endMark q).position⟩
      (Cursor.mk none front (Token.endMark q).position).position.column
    rw [hreported] at hsub
    rw [List.map_append]
    exact hsub
  have hascending := hbefore.sublist hsublist
  refine ⟨fun e he => ?_, hascending, fun t _ => ?_⟩
  · exact List.mem_map.1 (hsublist.subset (List.mem_map_of_mem he))
  · exact List.nodup_iff_count_le_one.1 (hascending.imp Position.Before.ne) t.position

def faultyLines : List Token :=
  [⟨.integer, "99999999999999999999", ⟨0, 20, 1, 0, 1⟩⟩, ⟨.identifier, "x", ⟨21, 22, 1, 21, 1⟩⟩,
    ⟨.ifKeyword, "if", ⟨23, 25, 2, 0, 2⟩⟩, ⟨.eof, "", ⟨25, 25, 2, 2, 2⟩⟩]

theorem ofTokensRecovering_ascending_faultyLines :
    Token.tokenize "99999999999999999999 x\nif" = .ok faultyLines ∧
    ∃ es, ofTokensRecovering faultyLines = .error es ∧ es.map (·.position) = [⟨1, 0⟩, ⟨2, 2⟩] ∧
      (es.map (·.position)).Pairwise Position.Before := by
  have htokens : Token.tokenize "99999999999999999999 x\nif" = .ok faultyLines := by cbv
  have herrors : ofTokensRecovering faultyLines =
      .error [⟨.invalidIntegerLiteral "99999999999999999999", ⟨1, 0⟩⟩,
        ⟨.unexpectedToken .expression .endOfFile, ⟨2, 2⟩⟩] := by
    have hlast : (Cursor.mk faultyLines[1]? [⟨.ifKeyword, "if", ⟨23, 25, 2, 0, 2⟩⟩]
        ⟨2, 2⟩).topLevelStatement 0 = (.error ⟨.unexpectedToken .expression .endOfFile, ⟨2, 2⟩⟩,
          ⟨faultyLines[2]?, [], ⟨2, 2⟩⟩) := rfl
    have hfirst : (Cursor.ofTokens faultyLines).topLevelStatement 0 =
        (.error ⟨.invalidIntegerLiteral "99999999999999999999", ⟨1, 0⟩⟩,
          ⟨faultyLines[0]?, faultyLines.tail.take 2, ⟨2, 2⟩⟩) := rfl
    have houtcomes := (Cursor.topLevelStatements_error rfl hfirst).trans
      (congrArg _ ((Cursor.topLevelStatements_error rfl hlast).trans
        (congrArg _ (Cursor.topLevelStatements_atEnd rfl))))
    have hgather := congrArg Cursor.gather houtcomes
    rw [ofTokensRecovering, Cursor.recovering_eq]
    exact congrArg (Except.map Statement.block) hgather
  exact ⟨htokens, _, herrors, rfl, (ofTokensRecovering_ascending htokens herrors).2.1⟩

end Statement

end IntScript
