import IntScript.Grammar.Program
import IntScript.Proofs.Grammar.Steps
import Mathlib.Data.List.Forall2
import Mathlib.Order.Monotone.Basic

/-!
# Reading the same tokens elsewhere

Two cursors are alike if the tokens ahead of the one are ahead of the other too, moved to other lines and
columns but in the same order, and what then follows borders on them: it begins a line at the left margin
and goes on with nothing. From such cursors two runs of a parser stay together up to the border. There
the one is at its end, and where both fail, they find the same only if the border is that end, moved.
-/

namespace IntScript.Grammar

open IntScript.Action

/-- How places move. Their order stays. -/
structure Motion where
  line : Nat → Nat
  column : Nat → Nat
  line_mono : StrictMono line
  column_mono : StrictMono column

namespace Motion

def position (m : Motion) (p : Position) : Position := ⟨m.line p.line, m.column p.column⟩

def error (m : Motion) (e : SyntaxError) : SyntaxError := ⟨e.fault, m.position e.position⟩

structure Moves (m : Motion) (t u : Token) : Prop where
  kind : u.kind = t.kind
  lexeme : u.lexeme = t.lexeme
  line : u.span.line = m.line t.span.line
  column : u.span.column = m.column t.span.column
  endLine : u.span.endLine = m.line t.span.endLine

variable {m : Motion} {t u : Token}

theorem Moves.position_eq (h : m.Moves t u) : u.position = m.position t.position := by
  rw [Token.position, Token.position, position, h.line, h.column]

theorem Moves.found_eq (h : m.Moves t u) : Found.token u.kind u.lexeme = .token t.kind t.lexeme := by
  rw [h.kind, h.lexeme]

end Motion

/-- What follows is the end, or a line at the left margin that goes on with nothing. -/
def Cursor.Borders (c : Cursor) : Prop :=
  ∀ t ∈ c.ahead.head?, c.startsLine = true ∧ t.span.column = 0 ∧ t.kind ≠ .comma ∧
    t.kind ≠ .elseKeyword

namespace Cursor.Borders

variable {c : Cursor}

theorem endsStatement (h : c.Borders) : c.endsStatement = true := by
  obtain ⟨previous, _ | ⟨t, ts⟩, finish⟩ := c
  · rfl
  · simp [Cursor.endsStatement, (h t rfl).1]

theorem fit (h : c.Borders) {column : Nat} (hcolumn : c.ahead = [] ∨ 0 < column) :
    c.fit column = .behind := by
  obtain ⟨previous, _ | ⟨t, ts⟩, finish⟩ := c
  · rfl
  · obtain ⟨hline, hleft, -⟩ := h t rfl
    exact Cursor.fit_of_lt hline (hleft.trans_lt (hcolumn.resolve_left (List.cons_ne_nil t ts)))

theorem column_eq (h : c.Borders) (hend : c.atEnd = false) : c.position.column = 0 := by
  obtain ⟨previous, _ | ⟨t, ts⟩, finish⟩ := c
  · cases hend
  · exact (h t rfl).2.1

end Cursor.Borders

variable (m : Motion) (b : Cursor)

/-- Ahead of the second cursor are the tokens of the first, moved, and behind them is the border. -/
structure Alike (c c' : Cursor) : Prop where
  ahead : ∃ us, List.Forall₂ m.Moves c.ahead us ∧ c'.ahead = us ++ b.ahead ∧
    lastOf c'.previous us = b.previous
  line : c.atEnd = false → c'.startsLine = c.startsLine
  finish : c'.finish = b.finish
  borders : b.Borders

variable {α β α' β' : Type} {m b} {R : α → α' → Prop} {S : β → β' → Prop} {c c' d d' : Cursor}
  {e e' : SyntaxError}

/-- If the first cursor has come to its end, the border is that end, moved. -/
def Pinned (m : Motion) (b c : Cursor) : Prop :=
  c.atEnd = true → b.ahead = [] ∧ b.finish = m.position c.finish

theorem pinned_of_inside (h : c.atEnd = false) : Pinned m b c := by
  intro hend
  rw [h] at hend
  cases hend

/-- Values that belong together or, unless the first cursor has come to an end that the border is not, the
same error. -/
def SameAnswer (m : Motion) (b : Cursor) (R : α → α' → Prop) (c : Cursor) :
    Except SyntaxError α → Except SyntaxError α' → Prop
  | .ok a, .ok a' => R a a'
  | .error e, .error e' => Pinned m b c → e' = m.error e
  | _, _ => False

/-- What two runs answer from cursors, if both do. They go on, never back. -/
def Together (m : Motion) (b : Cursor) (R : α → α' → Prop) (p : Parser α) (p' : Parser α')
    (c c' : Cursor) : Prop :=
  ∀ r d r' d', p c = some (r, d) → p' c' = some (r', d') →
    Alike m b d d' ∧ SameAnswer m b R d r r' ∧ d.ahead <:+ c.ahead

namespace Alike

theorem cases (h : Alike m b c c') :
    (∃ t ts u us, c.ahead = t :: ts ∧ c'.ahead = u :: us ∧ m.Moves t u ∧
      c'.startsLine = c.startsLine ∧ Alike m b c.advance c'.advance) ∨ c.ahead = [] ∧ c' = b := by
  obtain ⟨⟨us, hmoves, hahead, hlast⟩, hline, hfinish, hborder⟩ := h
  obtain ⟨previous, ahead, finish⟩ := c
  obtain ⟨previous', ahead', finish'⟩ := c'
  obtain rfl : ahead' = us ++ b.ahead := hahead
  obtain rfl : finish' = b.finish := hfinish
  cases hmoves with
  | nil =>
    obtain rfl : previous' = b.previous := hlast
    exact .inr ⟨rfl, rfl⟩
  | @cons t u ts us htu hrest =>
    refine .inl ⟨t, ts, u, us ++ b.ahead, rfl, rfl, htu, hline rfl, ⟨us, hrest, rfl, hlast⟩, ?_, rfl,
      hborder⟩
    intro hend
    cases hrest with
    | nil => cases hend
    | @cons v w _ _ hvw _ =>
      change decide (u.span.endLine < w.span.line) = decide (t.span.endLine < v.span.line)
      rw [htu.endLine, hvw.line]
      exact decide_eq_decide.2 m.line_mono.lt_iff_lt

theorem atEnd (h : Alike m b c c') (hend : c.atEnd = true) : c' = b := by
  rcases h.cases with ⟨t, ts, u, us, hahead, -⟩ | ⟨-, hb⟩
  · rw [Cursor.atEnd, hahead] at hend
    cases hend
  · exact hb

theorem inside (h : Alike m b c c') (hend : c.atEnd = false) :
    ∃ t ts u us, c.ahead = t :: ts ∧ c'.ahead = u :: us ∧ m.Moves t u ∧
      c'.startsLine = c.startsLine ∧ Alike m b c.advance c'.advance := by
  rcases h.cases with hinside | ⟨hahead, -⟩
  · exact hinside
  · rw [Cursor.atEnd, hahead] at hend
    cases hend

theorem atEnd_eq (h : Alike m b c c') (hend : c.atEnd = false) : c'.atEnd = false := by
  obtain ⟨t, ts, u, us, -, hahead', -⟩ := h.inside hend
  rw [Cursor.atEnd, hahead']
  rfl

theorem position_eq (h : Alike m b c c') (hpin : Pinned m b c) : c'.position = m.position c.position := by
  rcases h.cases with ⟨t, ts, u, us, hahead, hahead', hmoves, -⟩ | ⟨hahead, rfl⟩
  · rw [Cursor.position, Cursor.position, hahead, hahead']
    exact hmoves.position_eq
  · obtain ⟨hborder, hfinish⟩ := hpin (by rw [Cursor.atEnd, hahead]; rfl)
    rw [Cursor.position, Cursor.position, hahead, hborder]
    exact hfinish

theorem column_eq (h : Alike m b c c') (hend : c.atEnd = false) :
    c'.position.column = m.column c.position.column := by
  rw [h.position_eq (pinned_of_inside hend)]
  rfl

theorem found_eq (h : Alike m b c c') (hpin : Pinned m b c) : c'.found = c.found := by
  rcases h.cases with ⟨t, ts, u, us, hahead, hahead', hmoves, -⟩ | ⟨hahead, rfl⟩
  · rw [Cursor.found, Cursor.found, hahead, hahead']
    exact hmoves.found_eq
  · obtain ⟨hborder, -⟩ := hpin (by rw [Cursor.atEnd, hahead]; rfl)
    rw [Cursor.found, Cursor.found, hahead, hborder]

theorem endsStatement_eq (h : Alike m b c c') : c'.endsStatement = c.endsStatement := by
  cases hend : c.atEnd with
  | false => rw [Cursor.endsStatement, Cursor.endsStatement, hend, h.atEnd_eq hend, h.line hend]
  | true =>
    obtain rfl := h.atEnd hend
    rw [h.borders.endsStatement, Cursor.endsStatement, hend, Bool.true_or]

theorem nextIs_eq (h : Alike m b c c') (hend : c.atEnd = false) (kind : TokenKind) :
    c'.nextIs kind = c.nextIs kind := by
  obtain ⟨t, ts, u, us, hahead, hahead', hmoves, -⟩ := h.inside hend
  rw [Cursor.nextIs, Cursor.nextIs, hahead, hahead']
  exact congrArg (fun found => decide (found = kind)) hmoves.kind

end Alike

def Cursor.missing (c : Cursor) (expected : Expectation) : SyntaxError :=
  ⟨.unexpectedToken expected .endOfFile, c.finish⟩

/-- Nothing is taken, and there is an error. At the end mark it is that this is missing. -/
def Refuses (expected : Expectation) (p : Parser α) (c : Cursor) : Prop :=
  ∀ r d, p c = some (r, d) → d = c ∧ ∃ e, r = .error e ∧ (c.atEnd = true → e = c.missing expected)

namespace Parser

section Basic

variable {p : Parser α} {p' : Parser α'} {expected : Expectation}

theorem together_pure {a : α} {a' : α'} (h : Alike m b c c') (ha : R a a') :
    Together m b R (pure a) (pure a') c c' := by
  intro r d r' d' hr hr'
  cases hr
  cases hr'
  exact ⟨h, ha, List.suffix_rfl⟩

theorem together_stuck : Together m b R stuck p' c c' := by
  intro r d r' d' hr
  cases hr

theorem together_fail (h : Alike m b c c') (he : Pinned m b c → e' = m.error e) :
    Together m b R (fail e) (fail e') c c' := by
  intro r d r' d' hr hr'
  cases hr
  cases hr'
  exact ⟨h, he, List.suffix_rfl⟩

theorem together_failHere (h : Alike m b c c') (fault : Fault) :
    Together m b R (failHere fault) (failHere fault) c c' :=
  together_fail h fun hpin => by rw [Motion.error, h.position_eq hpin]

theorem together_unexpected (h : Alike m b c c') (expected : Expectation) :
    Together m b R (unexpected expected) (unexpected expected) c c' :=
  together_fail h fun hpin => by rw [Motion.error, h.position_eq hpin, h.found_eq hpin]

theorem together_bind_of {f : α → Parser β} {f' : α' → Parser β'} (h : Together m b R p p' c c')
    (hf : ∀ a a' d d', p c = some (.ok a, d) → R a a' → Alike m b d d' →
      Together m b S (f a) (f' a') d d') : Together m b S (p >>= f) (p' >>= f') c c' := by
  intro r d r' d' hr hr'
  rcases bind_eq_some_iff.1 hr with ⟨e, hp, rfl⟩ | ⟨a, d₁, hp, hrest⟩
  · rcases bind_eq_some_iff.1 hr' with ⟨e', hp', rfl⟩ | ⟨a', d₁', hp', -⟩
    · exact h _ _ _ _ hp hp'
    · exact False.elim (h _ _ _ _ hp hp').2.1
  · rcases bind_eq_some_iff.1 hr' with ⟨e', hp', rfl⟩ | ⟨a', d₁', hp', hrest'⟩
    · exact False.elim (h _ _ _ _ hp hp').2.1
    · obtain ⟨halike, ha, hon⟩ := h _ _ _ _ hp hp'
      obtain ⟨hnext, hanswer, hfurther⟩ := hf a a' d₁ d₁' hp ha halike _ _ _ _ hrest hrest'
      exact ⟨hnext, hanswer, hfurther.trans hon⟩

theorem together_bind {f : α → Parser β} {f' : α' → Parser β'} (h : Together m b R p p' c c')
    (hf : ∀ a a' d d', R a a' → Alike m b d d' → Together m b S (f a) (f' a') d d') :
    Together m b S (p >>= f) (p' >>= f') c c' :=
  together_bind_of h fun a a' d d' _ => hf a a' d d'

theorem together_read {f : Cursor → α} {f' : Cursor → α'} {g : α → Parser β} {g' : α' → Parser β'}
    (h : Together m b S (g (f c)) (g' (f' c')) c c') :
    Together m b S (Action.read f >>= g) (Action.read f' >>= g') c c' := by
  intro r d r' d' hr hr'
  rw [bind_eq_ok (read_apply _ _)] at hr hr'
  exact h r d r' d' hr hr'

/-- At the border it is enough that both fail, and for want of the same if the border is the end. -/
theorem together_of_refuses (h : Alike m b c c') (hend : c.atEnd = true) (hp : Refuses expected p c)
    (hp' : Refuses expected p' c') : Together m b R p p' c c' := by
  intro r d r' d' hr hr'
  obtain ⟨rfl, e, rfl, he⟩ := hp r d hr
  obtain ⟨rfl, e', rfl, he'⟩ := hp' r' d' hr'
  refine ⟨h, fun hpin => ?_, List.suffix_rfl⟩
  obtain ⟨hborder, hfinish⟩ := hpin hend
  obtain rfl := h.atEnd hend
  have hend' : d'.atEnd = true := by rw [Cursor.atEnd, hborder]; rfl
  rw [he hend, he' hend', Cursor.missing, Cursor.missing, hfinish]
  rfl

end Basic

section Refusing

variable {p : Parser α} {expected : Expectation}

theorem Refuses.inside {wanted : Expectation} (h : Refuses expected p c) (hend : c.atEnd = false) :
    Refuses wanted p c := by
  intro r d hr
  obtain ⟨hd, e, he, -⟩ := h r d hr
  refine ⟨hd, e, he, fun hnot => ?_⟩
  rw [hend] at hnot
  cases hnot

theorem refuses_unexpected (expected : Expectation) :
    Refuses expected (unexpected expected : Parser α) c := by
  intro r d hr
  cases hr
  refine ⟨rfl, _, rfl, fun hend => ?_⟩
  rw [Cursor.position, Cursor.found, List.isEmpty_iff.1 hend]
  rfl

theorem refuses_bind {f : α → Parser β} (h : Refuses expected p c) : Refuses expected (p >>= f) c := by
  intro r d hr
  rcases bind_eq_some_iff.1 hr with ⟨e, hp, rfl⟩ | ⟨a, d₁, hp, -⟩
  · obtain ⟨hd, e', he', hmissing⟩ := h _ _ hp
    cases he'
    exact ⟨hd, e, rfl, hmissing⟩
  · obtain ⟨-, e, he, -⟩ := h _ _ hp
    cases he

theorem refuses_expect (h : c.endsStatement = true) (kind : TokenKind) (expected : Expectation) :
    Refuses expected (expect kind expected) c := by
  have hnone : takeOnLine? kind c = some (.ok none, c) := by
    apply takeOnLine?_stops
    intro t ht hline
    obtain ⟨ts, hahead⟩ := List.head?_eq_some_iff.1 ht
    rw [Cursor.endsStatement, Cursor.atEnd, hahead, hline] at h
    cases h
  intro r d hr
  rw [expect, bind_eq_ok hnone] at hr
  exact refuses_unexpected expected r d hr

theorem refuses_operandOnLine (h : c.startsLine = false → Refuses .expression p c) :
    Refuses .expression (operandOnLine p) c := by
  intro r d hr
  rw [operandOnLine, bind_eq_ok (read_apply _ _)] at hr
  cases hline : c.startsLine with
  | true =>
    rw [hline] at hr
    exact refuses_unexpected .expression r d hr
  | false =>
    rw [hline] at hr
    exact h hline r d hr

theorem refuses_stuck : Refuses expected (stuck : Parser α) c := by
  intro r d hr
  cases hr

theorem refuses_commaSeparated (h : Refuses expected p c) (n : Nat) :
    Refuses expected (commaSeparated p n) c := by
  cases n with
  | zero => exact refuses_stuck
  | succ n => exact refuses_bind h

theorem refuses_parameters (h : c.endsStatement = true) (function : String) (n : Nat)
    (seen : List String) : Refuses .parameterName (parameters function n seen) c := by
  cases n with
  | zero => exact refuses_stuck
  | succ n => exact refuses_bind (refuses_expect h _ _)

theorem refuses_untilParen {items : Parser (List α)} {wanted : Expectation} (h : c.endsStatement = true)
    (hitems : Refuses wanted items c) (expected : Expectation) :
    Refuses wanted (untilParen items expected) c := by
  intro r d hr
  rw [untilParen, unlessParen, bind_bind, bind_eq_ok (read_apply _ _)] at hr
  split at hr
  next hparen =>
    have hend : c.atEnd = false := by
      obtain ⟨previous, _ | ⟨t, ts⟩, finish⟩ := c
      · cases hparen
      · rfl
    exact Refuses.inside (refuses_bind (refuses_expect h _ expected)) hend r d hr
  next => exact refuses_bind hitems r d hr

def FailsAtEnd (p : Parser α) : Prop := ∀ c, c.atEnd = true → Refuses .expression p c

theorem failsAtEnd_primary (nested : Parser Expression) (n : Nat) : FailsAtEnd (primary nested n) := by
  intro c hend r d hr
  have hnone : take? (fun _ t => if beginsOperand t.kind then some t else none) c =
      some (.ok none, c) := by
    rw [take?, List.isEmpty_iff.1 hend]
  rw [primary, bind_eq_ok hnone] at hr
  exact refuses_unexpected .expression r d hr

theorem failsAtEnd_unaryHere (nested : Parser Expression) (n : Nat) :
    FailsAtEnd (unaryHere nested n) := by
  intro c hend r d hr
  cases n with
  | zero => cases hr
  | succ n =>
    have hnone : accept .minus c = some (.ok false, c) := by
      apply accept_none
      intro t ht
      rw [List.isEmpty_iff.1 hend] at ht
      cases ht
    rw [unaryHere, bind_eq_ok hnone] at hr
    exact failsAtEnd_primary nested _ c hend r d hr

theorem failsAtEnd_expressionHere (n : Nat) : FailsAtEnd (expressionHere n) := by
  intro c hend r d hr
  cases n with
  | zero => cases hr
  | succ n =>
    have hnone : takeTarget c = some (.ok none, c) := by
      apply takeTarget_apply
      rw [Cursor.assignmentAhead, List.isEmpty_iff.1 hend]
    rw [expressionHere, bind_eq_ok hnone] at hr
    have hunary := failsAtEnd_unaryHere (operandOnLine (expressionHere n)) (n + 1) c hend
    exact refuses_bind (refuses_bind (refuses_bind hunary)) r d hr

end Refusing

section Tokens

theorem together_take? {f : Cursor → Token → Option α} {f' : Cursor → Token → Option α'}
    (h : Alike m b c c')
    (hf : ∀ t u, m.Moves t u → c.atEnd = false → Option.Rel R (f c t) (f' c' u))
    (hborder : c.atEnd = true → ∀ y ∈ b.ahead.head?, f' b y = none) :
    Together m b (Option.Rel R) (take? f) (take? f') c c' := by
  intro r d r' d' hr hr'
  rw [take?] at hr hr'
  rcases h.cases with ⟨t, ts, u, us, hahead, hahead', hmoves, -, hnext⟩ | ⟨hahead, rfl⟩
  · have hend : c.atEnd = false := by rw [Cursor.atEnd, hahead]; rfl
    have hrel := hf t u hmoves hend
    rw [hahead] at hr
    rw [hahead'] at hr'
    dsimp only at hr hr'
    generalize f c t = o at hr hrel
    generalize f' c' u = o' at hr' hrel
    cases hrel with
    | none =>
      cases hr
      cases hr'
      exact ⟨h, .none, List.suffix_rfl⟩
    | some ha =>
      cases hr
      cases hr'
      refine ⟨hnext, .some ha, ?_⟩
      simp [Cursor.advance, hahead]
  · have hend : c.atEnd = true := by rw [Cursor.atEnd, hahead]; rfl
    have hnone := hborder hend
    rw [hahead] at hr
    cases hr
    cases hahead' : c'.ahead with
    | nil =>
      rw [hahead'] at hr'
      cases hr'
      exact ⟨h, .none, List.suffix_rfl⟩
    | cons y ys =>
      rw [hahead'] at hr'
      dsimp only at hr'
      rw [hnone y (by rw [hahead']; rfl)] at hr'
      cases hr'
      exact ⟨h, .none, List.suffix_rfl⟩

theorem together_accept {kind : TokenKind} (h : Alike m b c c')
    (hkind : c.atEnd = false ∨ kind = .comma) :
    Together m b Eq (accept kind) (accept kind) c c' := by
  refine together_bind (R := Option.Rel m.Moves) (together_take? h ?_ ?_) ?_
  · intro t u hmoves _
    rw [hmoves.kind]
    split
    · exact .some hmoves
    · exact .none
  · intro hend y hy
    rw [hend] at hkind
    rw [hkind.resolve_left (by decide), if_neg (h.borders y hy).2.2.1]
  · rintro o o' d d' hrel hnext
    apply together_pure hnext
    cases hrel <;> rfl

theorem together_takeOnLine? (h : Alike m b c c') (kind : TokenKind) :
    Together m b (Option.Rel m.Moves) (takeOnLine? kind) (takeOnLine? kind) c c' := by
  refine together_take? h ?_ ?_
  · intro t u hmoves hend
    rw [hmoves.kind, h.line hend]
    split
    · exact .some hmoves
    · exact .none
  · intro _ y hy
    rw [if_neg]
    rintro ⟨-, hline⟩
    rw [(h.borders y hy).1] at hline
    cases hline

theorem together_expect (h : Alike m b c c') (kind : TokenKind) (expected : Expectation) :
    Together m b m.Moves (expect kind expected) (expect kind expected) c c' := by
  apply together_bind (together_takeOnLine? h kind)
  rintro o o' d d' hrel hnext
  cases hrel with
  | none => exact together_unexpected hnext expected
  | some hmoves => exact together_pure hnext hmoves

theorem together_takeOperator? (h : Alike m b c c') (level : TokenKind → Option BinaryOperator) :
    Together m b (Option.Rel Eq) (takeOperator? level) (takeOperator? level) c c' := by
  refine together_take? h ?_ ?_
  · intro t u hmoves hend
    rw [hmoves.kind, h.line hend]
    split
    · exact .none
    · cases level t.kind with
      | none => exact .none
      | some op => exact .some rfl
  · intro _ y hy
    rw [(h.borders y hy).1]
    rfl

theorem together_takeElse? (h : Alike m b c c') (column : Nat) :
    Together m b (Option.Rel m.Moves) (takeElse? column) (takeElse? (m.column column)) c c' := by
  refine together_take? h ?_ ?_
  · intro t u hmoves hend
    have hcolumn : u.span.column = m.column column ↔ t.span.column = column := by
      rw [hmoves.column]
      exact m.column_mono.injective.eq_iff
    simp only [hmoves.kind, h.line hend, hcolumn]
    split
    · exact .some hmoves
    · exact .none
  · intro _ y hy
    rw [if_neg]
    rintro ⟨hkind, -⟩
    exact (h.borders y hy).2.2.2 hkind

theorem together_takeTarget (h : Alike m b c c') (hend : c.atEnd = false) :
    Together m b Eq takeTarget takeTarget c c' := by
  obtain ⟨previous, ahead, finish⟩ := c
  obtain ⟨previous', ahead', finish'⟩ := c'
  obtain ⟨t, ts, u, us, rfl, rfl, htu, -, hnext⟩ := h.inside hend
  intro r d r' d' hr hr'
  rcases hnext.cases with ⟨v, vs, w, ws, hts, hus, hvw, -, hnext₂⟩ | ⟨hts, hb⟩
  · obtain rfl : ts = v :: vs := hts
    obtain rfl : us = w :: ws := hus
    have hjoined : w.span.line = u.span.endLine ↔ v.span.line = t.span.endLine := by
      rw [hvw.line, htu.endLine]
      exact m.line_mono.injective.eq_iff
    have hahead : (Cursor.mk previous' (u :: w :: ws) finish').assignmentAhead =
        (Cursor.mk previous (t :: v :: vs) finish).assignmentAhead := by
      simp only [Cursor.assignmentAhead, htu.kind, hvw.kind, hjoined]
    rw [takeTarget] at hr hr'
    dsimp only at hr hr'
    rw [hahead, htu.lexeme] at hr'
    generalize (Cursor.mk previous (t :: v :: vs) finish).assignmentAhead = found at hr hr'
    cases found with
    | true =>
      cases hr
      cases hr'
      exact ⟨hnext₂, rfl, [t, v], rfl⟩
    | false =>
      cases hr
      cases hr'
      exact ⟨h, rfl, List.suffix_rfl⟩
  · obtain rfl : ts = [] := hts
    cases hr
    -- What stands behind the border begins a line.
    have hnone : takeTarget ⟨previous', u :: us, finish'⟩ =
        some (.ok none, ⟨previous', u :: us, finish'⟩) := by
      apply takeTarget_apply
      cases us with
      | nil => rfl
      | cons y us =>
        have hborder := h.borders y (by rw [← hb]; rfl)
        rw [← hb] at hborder
        have hline : u.span.endLine < y.span.line := of_decide_eq_true hborder.1
        simp [Cursor.assignmentAhead, Nat.ne_of_gt hline]
    rw [hnone] at hr'
    cases hr'
    exact ⟨h, rfl, List.suffix_rfl⟩

end Tokens

end Parser

end IntScript.Grammar
