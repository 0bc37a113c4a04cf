import IntScript.Proofs.Grammar.Elsewhere
import IntScript.Proofs.Grammar.Image
import IntScript.Proofs.Grammar.Recovery

/-!
# Where reading stops, and what comes of it elsewhere

A program is read statement by statement, up to its end or to a malformed one, behind which recovery goes
on. In front of other text the same statements are read. The outcomes are then those of the program and
those of the other text, if the malformed statement was found out before its end was passed.
-/

namespace IntScript.Grammar.Cursor

open IntScript.Action Grammar.Parser Filter

variable {c c' d d' x : Cursor} {column : Nat} {s : Statement} {ss : List Statement} {e : SyntaxError}

inductive ReadTo (column : Nat) : Cursor → List Statement → Cursor → Prop where
  | refl {c : Cursor} : ReadTo column c [] c
  | step {c d x : Cursor} {s : Statement} {ss : List Statement} (hend : c.atEnd = false)
      (h : c.topLevelStatement column = (.ok s, d)) (hrest : ReadTo column d ss x) :
      ReadTo column c (s :: ss) x

theorem exists_readTo (c : Cursor) (column : Nat) : ∃ ss d, ReadTo column c ss d ∧
    (d.atEnd = true ∨ d.atEnd = false ∧ ∃ e x, d.topLevelStatement column = (.error e, x)) := by
  -- Each statement takes a token at least.
  induction hsize : c.size using Nat.strongRecOn generalizing c with
  | ind size ih =>
    cases hend : c.atEnd with
    | true => exact ⟨[], c, .refl, .inl hend⟩
    | false =>
      cases hnext : c.topLevelStatement column with
      | mk r d =>
        cases r with
        | error e => exact ⟨[], c, .refl, .inr ⟨hend, e, d, hnext⟩⟩
        | ok s =>
          have hlt := size_topLevelStatement_lt hnext
          obtain ⟨ss, x, hread, hstop⟩ := ih _ (hsize ▸ hlt) d rfl
          exact ⟨s :: ss, x, .step hend hnext hread, hstop⟩

theorem ReadTo.topLevelStatements_eq (h : ReadTo column c ss d) :
    (c.topLevelStatements column).1 = ss.map .ok ++ (d.topLevelStatements column).1 := by
  induction h with
  | refl => rfl
  | step hend hnext _ ih => rw [topLevelStatements_ok hend hnext, ih]; rfl

section Strict

theorem fit_of_topLevelStatement (hend : c.atEnd = false)
    (h : c.topLevelStatement column = (.ok s, d)) : c.fit column = .within := by
  by_contra hfit
  have houtside := topLevelStatement_outside hend hfit (c.size + 1)
  rw [topLevelStatement_eq_some, h] at houtside
  cases houtside

theorem settles_statement_of_within {r : Except SyntaxError Statement} (hend : c.atEnd = false)
    (hfit : c.fit column = .within) (h : c.topLevelStatement column = (r, d)) :
    Settles statement c r d := by
  filter_upwards [eventually_gt_atTop c.size] with n hn
  rw [statement_bound hn (Nat.lt_succ_self c.size), ← topLevelStatement_within hend hfit,
    topLevelStatement_eq_some, h]

def Lines (column : Nat) (c : Cursor) (r : Except SyntaxError (List Statement)) (d : Cursor) : Prop :=
  Settles (fun n => linesAt (statement n) column n) c r d

theorem lines_of_fit {fit : Fit} {r : Except SyntaxError (List Statement)}
    (hfit : c.fit column = fit)
    (h : Settles (fun n => match fit with
      | .behind => return []
      | .deeper => failHere .unexpectedIndent
      | .within => do
        let s ← statement (n + 1)
        return s :: (← linesAt (statement (n + 1)) column n)) c r d) : Lines column c r d := by
  have hread : (Action.read (·.fit column) : Parser Fit) c = some (.ok fit, c) := by
    rw [read_apply, hfit]
  apply Settles.of_succ
  exact Settles.bind (.of_forall fun _ => hread) h

theorem lines_step {r : Except SyntaxError (List Statement)} (hfit : c.fit column = .within)
    (hs : Settles statement c (.ok s) d) (h : Lines column d r x) :
    Lines column c (r.map (s :: ·)) x := by
  have hlines := h.mono (q := fun n => linesAt (statement (n + 1)) column n)
    fun n => linesAt_le (statement_le n.le_succ) _ le_rfl
  apply lines_of_fit hfit
  apply hs.succ.bind
  cases r with
  | error e => exact hlines.bind_error
  | ok ss => exact hlines.bind (.pure _)

theorem lines_error (hfit : c.fit column = .within) (hs : Settles statement c (.error e) d) :
    Lines column c (.error e) d :=
  lines_of_fit hfit hs.succ.bind_error

theorem lines_deeper (hfit : c.fit column = .deeper) :
    Lines column c (.error ⟨.unexpectedIndent, c.position⟩) c :=
  lines_of_fit hfit (.of_forall fun _ => rfl)

theorem lines_behind (hfit : c.fit column = .behind) : Lines column c (.ok []) c :=
  lines_of_fit hfit (.pure _)

theorem ReadTo.lines {r : Except SyntaxError (List Statement)} (h : ReadTo column c ss d)
    (hd : Lines column d r x) : Lines column c (r.map (ss ++ ·)) x := by
  induction h with
  | refl => cases r <;> exact hd
  | step hend hnext _ ih =>
    have hfit := fit_of_topLevelStatement hend hnext
    have hlines := lines_step hfit (settles_statement_of_within hend hfit hnext) (ih hd)
    cases r <;> exact hlines

variable (hcolumn : c.position.column = column) (h : ReadTo column c ss d)
include hcolumn h

theorem program_of_atEnd (hend : d.atEnd = true) : c.program = (.ok (.block ss), d) := by
  have hlines : Lines column c (.ok (ss ++ [])) d := h.lines (lines_behind (fit_of_atEnd hend))
  rw [List.append_nil] at hlines
  apply program_of_settles
  subst hcolumn
  apply Settles.bind (.of_forall fun _ => read_apply _ _)
  apply hlines.bind
  apply Settles.bind (.of_forall fun _ => read_apply _ _)
  rw [hend]
  exact .pure _

theorem program_of_error (hend : d.atEnd = false)
    (herror : d.topLevelStatement column = (.error e, x)) : ∃ e', c.program = (.error e', x) := by
  have hfail {e' : SyntaxError} (hd : Lines column d (.error e') x) : c.program = (.error e', x) := by
    have hlines := h.lines hd
    apply program_of_settles
    subst hcolumn
    exact Settles.bind (.of_forall fun _ => read_apply _ _) hlines.bind_error
  by_cases hfit : d.fit column = .within
  · exact ⟨e, hfail (lines_error hfit (settles_statement_of_within hend hfit herror))⟩
  · have houtside := topLevelStatement_outside hend hfit (d.size + 1)
    rw [topLevelStatement_eq_some, herror] at houtside
    cases houtside
    cases hcase : d.fit column with
    | within => exact absurd hcase hfit
    | deeper => exact ⟨_, hfail (lines_deeper hcase)⟩
    | behind =>
      have hlines := h.lines (lines_behind hcase)
      refine ⟨⟨.unexpectedToken .topLevelStatement d.found, d.position⟩, ?_⟩
      apply program_of_settles
      subst hcolumn
      apply Settles.bind (.of_forall fun _ => read_apply _ _)
      apply hlines.bind
      apply Settles.bind (.of_forall fun _ => read_apply _ _)
      rw [hend]
      exact .of_forall fun _ => rfl

end Strict

theorem eq_recovered {e' : SyntaxError} (h : ReadTo c.position.column c ss d) (hend : d.atEnd = false)
    (herror : d.topLevelStatement c.position.column = (.error e, x))
    (hprogram : c.program.1 = .error e') : e = e'.recovered := by
  have hagrees := c.program_agrees
  rw [hprogram] at hagrees
  obtain ⟨es, hes⟩ := hagrees
  have hrecovering : c.recovering.1 =
      (gather (c.topLevelStatements c.position.column).1).map .block := rfl
  obtain ⟨es', hgather⟩ := gather_error e ((x.resume c.position.column).topLevelStatements
    c.position.column).1
  rw [hrecovering, h.topLevelStatements_eq, topLevelStatements_error hend herror, gather_append_ok,
    hgather] at hes
  cases hes
  rfl

theorem program_eq (c : Cursor) :
    (∃ ss d, c.program = (.ok (.block ss), d)) ∨ ∃ e x, c.program = (.error e, x) := by
  obtain ⟨ss, d, hread, hend | ⟨hend, e, x, herror⟩⟩ := exists_readTo c c.position.column
  · exact .inl ⟨ss, d, program_of_atEnd rfl hread hend⟩
  · obtain ⟨e', he⟩ := program_of_error rfl hread hend herror
    exact .inr ⟨e', x, he⟩

section Elsewhere

variable {m : Motion} {b : Cursor}

theorem alike_topLevelStatement (h : Alike m b c c') (hend : c.atEnd = false) (column : Nat) :
    Alike m b (c.topLevelStatement column).2 (c'.topLevelStatement (m.column column)).2 ∧
      SameAnswer m b Eq (c.topLevelStatement column).2 (c.topLevelStatement column).1
        (c'.topLevelStatement (m.column column)).1 ∧
      (c.topLevelStatement column).2.ahead <:+ c.ahead := by
  have hc : c.size < c.size + c'.size + 1 := by omega
  have hc' : c'.size < c.size + c'.size + 1 := by omega
  exact runsHere_topLevelStatement column _ c c' hend h _ _ _ _ (topLevelStatement_eq hc)
    (topLevelStatement_eq hc')

theorem ReadTo.alike (h : ReadTo column c ss d) (halike : Alike m b c c') :
    ∃ d', ReadTo (m.column column) c' ss d' ∧ Alike m b d d' ∧ d.ahead <:+ c.ahead := by
  induction h generalizing c' with
  | refl => exact ⟨c', .refl, halike, List.suffix_rfl⟩
  | @step c d x s ss hend hnext _ ih =>
    obtain ⟨hbehind, hsame, hon⟩ := alike_topLevelStatement halike hend column
    rw [hnext] at hbehind hsame hon
    cases hnext' : c'.topLevelStatement (m.column column) with
    | mk r d' =>
      rw [hnext'] at hbehind hsame
      cases r with
      | error e => exact False.elim hsame
      | ok s' =>
        obtain rfl : s = s' := hsame
        obtain ⟨x', hread, hx, hfurther⟩ := ih hbehind
        exact ⟨x', .step (halike.atEnd_eq hend) hnext' hread, hx, hfurther.trans hon⟩

theorem ahead_program (h : Alike m b c c') : c.program.2.ahead <:+ c.ahead := by
  obtain ⟨ss, d, hread, hend | ⟨hend, e, x, herror⟩⟩ := exists_readTo c c.position.column
  · obtain ⟨d', -, -, hon⟩ := hread.alike h
    rw [program_of_atEnd rfl hread hend]
    exact hon
  · obtain ⟨d', -, hd, hon⟩ := hread.alike h
    obtain ⟨-, -, hfurther⟩ := alike_topLevelStatement hd hend c.position.column
    obtain ⟨e', he⟩ := program_of_error rfl hread hend herror
    rw [herror] at hfurther
    rw [he]
    exact hfurther.trans hon

theorem alike_seekLine {finish finish' : Position} {previous previous' : Option Token}
    {ts ts' : List Token} (h : Alike m b ⟨previous, ts, finish⟩ ⟨previous', ts', finish'⟩) :
    Alike m b (seekLine column finish previous ts) (seekLine (m.column column) finish' previous' ts') := by
  induction ts generalizing previous previous' ts' with
  | nil =>
    -- At the border a line begins that is not indented, so both stop.
    obtain rfl := h.atEnd rfl
    have hstay : seekLine (m.column column) finish' previous' ts' = ⟨previous', ts', finish'⟩ := by
      cases ts' with
      | nil => rfl
      | cons y ys =>
        obtain ⟨hline, hleft, -⟩ := h.borders y rfl
        rw [seekLine, hline, hleft]
        rfl
    rw [hstay]
    exact h
  | cons t ts ih =>
    obtain ⟨t₁, ts₁, u, us, hahead, hahead', hmoves, hline, hnext⟩ := h.inside rfl
    cases hahead
    obtain rfl : ts' = u :: us := hahead'
    have hcolumn : u.span.column ≤ m.column column ↔ t.span.column ≤ column := by
      rw [hmoves.column]
      exact m.column_mono.le_iff_le
    simp only [seekLine, hline, hcolumn]
    split
    · exact h
    · exact ih hnext

theorem resume_eq (c : Cursor) (column : Nat) : c.resume column =
    seekLine column c.advance.finish c.advance.previous c.advance.ahead := by
  obtain ⟨previous, _ | ⟨t, ts⟩, finish⟩ := c <;> rfl

theorem atEnd_resume (h : c.ahead.IsChain fun t u => t.span.endLine < u.span.line →
    column < u.span.column) : (c.resume column).atEnd = true := by
  have hseek (finish : Position) (t : Token) (ts : List Token)
      (hts : (t :: ts).IsChain fun t u => t.span.endLine < u.span.line → column < u.span.column) :
      (seekLine column finish (some t) ts).atEnd = true := by
    induction ts generalizing t with
    | nil => rfl
    | cons u us ih =>
      rw [List.isChain_cons_cons] at hts
      have hnot : ((Cursor.mk (some t) (u :: us) finish).startsLine &&
          decide (u.span.column ≤ column)) = false := by
        rw [Bool.and_eq_false_iff, decide_eq_false_iff_not, Nat.not_le]
        by_cases hline : t.span.endLine < u.span.line
        · exact .inr (hts.1 hline)
        · exact .inl (decide_eq_false hline)
      rw [seekLine, hnot]
      exact ih u hts.2
  obtain ⟨previous, _ | ⟨t, ts⟩, finish⟩ := c
  · rfl
  · exact hseek finish t ts h

theorem advance_of_atEnd (h : c.atEnd = true) : c.advance = c := by
  rw [advance, List.isEmpty_iff.1 h]

theorem resume_of_atEnd (h : c.atEnd = true) (column : Nat) : c.resume column = c := by
  rw [resume_eq, advance_of_atEnd h, List.isEmpty_iff.1 h, seekLine, ← List.isEmpty_iff.1 h]

theorem alike_resume (h : Alike m b c c') (hinside : c.atEnd = false ∨ b.atEnd = true)
    (column : Nat) : Alike m b (c.resume column) (c'.resume (m.column column)) := by
  have hadvance : Alike m b c.advance c'.advance := by
    cases hend : c.atEnd with
    | false =>
      obtain ⟨t, ts, u, us, -, -, -, -, hnext⟩ := h.inside hend
      exact hnext
    | true =>
      rw [hend] at hinside
      obtain rfl := h.atEnd hend
      rw [advance_of_atEnd hend, advance_of_atEnd (hinside.resolve_left (by decide))]
      exact h
  rw [resume_eq, resume_eq]
  exact alike_seekLine hadvance

theorem outcomes_of_program (h : Alike m b c c') (hcolumn : c.position.column = column)
    (hprogram : c.program.1 = .ok (.block ss)) : (c'.topLevelStatements (m.column column)).1 =
      ss.map .ok ++ (b.topLevelStatements (m.column column)).1 := by
  obtain ⟨ss', d, hread, hend | ⟨hend, e, x, herror⟩⟩ := exists_readTo c column
  · rw [program_of_atEnd hcolumn hread hend] at hprogram
    cases hprogram
    obtain ⟨d', hread', hd, -⟩ := hread.alike h
    obtain rfl := hd.atEnd hend
    exact hread'.topLevelStatements_eq
  · obtain ⟨e', he⟩ := program_of_error hcolumn hread hend herror
    rw [he] at hprogram
    cases hprogram

/-- A text that is no program has one error there, with which recovery goes on. -/
theorem outcomes_of_error (h : Alike m b c c') (hcolumn : c.position.column = column)
    (hprogram : c.program = (.error e, x)) :
    ∃ (ss : List Statement) (e' : SyntaxError) (x' : Cursor), Alike m b x x' ∧
      (x.atEnd = false → e' = m.error e.recovered) ∧
      (c'.topLevelStatements (m.column column)).1 = ss.map .ok ++ .error e' ::
        ((x'.resume (m.column column)).topLevelStatements (m.column column)).1 := by
  obtain ⟨ss, d, hread, hend | ⟨hend, e₁, x₁, herror⟩⟩ := exists_readTo c column
  · rw [program_of_atEnd hcolumn hread hend] at hprogram
    cases hprogram
  · obtain ⟨e₂, he⟩ := program_of_error hcolumn hread hend herror
    rw [he] at hprogram
    cases hprogram
    obtain ⟨d', hread', hd, -⟩ := hread.alike h
    obtain ⟨hbehind, hsame, -⟩ := alike_topLevelStatement hd hend column
    rw [herror] at hbehind hsame
    cases herror' : d'.topLevelStatement (m.column column) with
    | mk r x' =>
      rw [herror'] at hbehind hsame
      cases r with
      | ok s => exact False.elim hsame
      | error e' =>
        have hfirst : e₁ = e.recovered := by
          subst hcolumn
          exact eq_recovered hread hend herror (by rw [he])
        refine ⟨ss, e', x', hbehind, fun hstop => hfirst ▸ hsame (pinned_of_inside hstop), ?_⟩
        rw [hread'.topLevelStatements_eq, topLevelStatements_error (hd.atEnd_eq hend) herror']

end Elsewhere

end IntScript.Grammar.Cursor
