import IntScript.Proofs.Grammar.Taken

/-!
# What decides an answer

A parser that gives a value has looked at the tokens it took and at the next one, and a parser that fails
has looked at nothing behind the token that it points at. So text behind these changes neither. Only the
test for an assignment looks two tokens ahead, and what begins with a name takes the first of them anyway.
-/

namespace IntScript.Grammar

open IntScript.Action

namespace Cursor

variable {ts us : List Token} {c c' d d' x : Cursor}

structure SameNext (c c' : Cursor) : Prop where
  previous : c'.previous = c.previous
  head : c'.ahead.head? = c.ahead.head?
  finish : c.ahead = [] → c'.finish = c.finish

def LooksOnce {α : Type} (f : Cursor → α) : Prop := ∀ c c', c.SameNext c' → f c' = f c

theorem SameNext.cases (h : c.SameNext c') :
    c' = c ∨ ∃ t ts ts', c.ahead = t :: ts ∧ c'.ahead = t :: ts' ∧ c'.previous = c.previous := by
  obtain ⟨previous, ahead, finish⟩ := c
  obtain ⟨previous', ahead', finish'⟩ := c'
  obtain ⟨rfl, hhead, hfinish⟩ := h
  cases ahead with
  | nil =>
    obtain rfl : ahead' = [] := List.head?_eq_none_iff.1 hhead
    obtain rfl := hfinish rfl
    exact .inl rfl
  | cons t ts =>
    obtain ⟨ts', rfl⟩ := List.head?_eq_some_iff.1 hhead
    exact .inr ⟨t, ts, ts', rfl, rfl, rfl⟩

theorem looksOnce_of_cons {α : Type} {f : Cursor → α}
    (h : ∀ previous t ts ts' finish finish',
      f ⟨previous, t :: ts', finish'⟩ = f ⟨previous, t :: ts, finish⟩) : LooksOnce f := by
  intro c c' hsame
  obtain rfl | ⟨t, ts, ts', hahead, hahead', hprevious⟩ := hsame.cases
  · rfl
  · obtain ⟨previous, ahead, finish⟩ := c
    obtain ⟨previous', ahead', finish'⟩ := c'
    obtain rfl : ahead = t :: ts := hahead
    obtain rfl : ahead' = t :: ts' := hahead'
    obtain rfl : previous' = previous := hprevious
    exact h ..

theorem passes_advance_of {t : Token} (h : c.ahead = t :: ts) : c.Passes [t] c.advance := by
  obtain ⟨previous, ahead, finish⟩ := c
  obtain rfl : ahead = t :: ts := h
  exact passes_advance

theorem Passes.advance_eq {t : Token} (h : c.Passes [t] d) : c.advance = d := by
  obtain ⟨previous, ahead, finish⟩ := c
  obtain ⟨previous', ahead', finish'⟩ := d
  obtain ⟨hahead, hprevious, hfinish⟩ := h
  obtain rfl : ahead = t :: ahead' := hahead
  obtain rfl : previous' = some t := hprevious
  obtain rfl : finish' = finish := hfinish
  rfl

theorem Passes.split (h : c.Passes (ts ++ us) d) : ∃ x, c.Passes ts x ∧ x.Passes us d := by
  refine ⟨⟨lastOf c.previous ts, us ++ d.ahead, c.finish⟩, ⟨?_, rfl, rfl⟩, ⟨rfl, ?_, h.finish⟩⟩
  · rw [h.ahead, List.append_assoc]
  · rw [h.previous, lastOf_append]

theorem Passes.sameNext (h : c.Passes ts d) (h' : c'.Passes ts d') (hprevious : c'.previous = c.previous)
    (hnext : ts = [] → d.SameNext d') : c.SameNext c' := by
  cases ts with
  | nil =>
    obtain rfl := h.eq
    obtain rfl := h'.eq
    exact hnext rfl
  | cons t ts =>
    refine ⟨hprevious, by rw [h.ahead, h'.ahead]; rfl, fun hnil => ?_⟩
    rw [h.ahead] at hnil
    cases hnil

/-- In front of the token, behind which the second cursor stands, or there too. -/
def Beside (x : Cursor) (t : Token) (d : Cursor) : Prop := x.Passes [t] d ∨ x = d

def names (c : Cursor) : Nat := if c.nextIs .identifier then 1 else 0

theorem names_le (c : Cursor) : c.names ≤ 1 := by
  unfold names
  split
  · exact Nat.le_refl 1
  · exact Nat.zero_le 1

theorem exists_name (h : c.nextIs .identifier = true) :
    ∃ t ts, c.ahead = t :: ts ∧ t.kind = .identifier := by
  obtain ⟨previous, _ | ⟨t, ts⟩, finish⟩ := c
  · cases h
  · exact ⟨t, ts, rfl, of_decide_eq_true h⟩

theorem Passes.head_of_names {t : Token} {vs : List Token} (h : c.Passes ts d)
    (hname : c.nextIs .identifier = true) (hahead : c.ahead = t :: vs) (hlength : c.names ≤ ts.length) :
    ∃ us, ts = t :: us := by
  rw [names, hname, if_pos rfl] at hlength
  obtain ⟨u, us, rfl⟩ := List.exists_cons_of_length_pos hlength
  have heq : t :: vs = u :: (us ++ d.ahead) := hahead.symm.trans h.ahead
  cases heq
  exact ⟨us, rfl⟩

theorem assignmentAhead_of_nextIs (h : c.nextIs .identifier = false) : c.assignmentAhead = false := by
  obtain ⟨previous, _ | ⟨t, _ | ⟨u, ts⟩⟩, finish⟩ := c
  · rfl
  · rfl
  · have hkind : t.kind ≠ .identifier := of_decide_eq_false h
    simp [assignmentAhead, hkind]

theorem assignmentAhead_eq {t : Token} (hahead : c.ahead = t :: d.ahead) (hahead' : c'.ahead = t :: d'.ahead)
    (hnext : d'.ahead.head? = d.ahead.head?) : c'.assignmentAhead = c.assignmentAhead := by
  unfold assignmentAhead
  rw [hahead, hahead']
  generalize d.ahead = ts at hnext
  generalize d'.ahead = ts' at hnext
  cases ts with
  | nil =>
    obtain rfl : ts' = [] := List.head?_eq_none_iff.1 hnext
    rfl
  | cons u ts =>
    obtain ⟨ts', rfl⟩ := List.head?_eq_some_iff.1 hnext
    rfl

theorem assignmentAhead_of_passes {t : Token} (h : c.Passes (t :: ts) d) (h' : c'.Passes (t :: ts) d')
    (hnext : ts = [] → d.SameNext d') : c'.assignmentAhead = c.assignmentAhead := by
  obtain ⟨x, hx, hrest⟩ := Passes.split (show c.Passes ([t] ++ ts) d from h)
  obtain ⟨x', hx', hrest'⟩ := Passes.split (show c'.Passes ([t] ++ ts) d' from h')
  have hprevious : x'.previous = x.previous := by
    rw [hx.previous, hx'.previous]
    rfl
  exact assignmentAhead_eq hx.ahead hx'.ahead (hrest.sameNext hrest' hprevious hnext).head

end Cursor

open Cursor

namespace Parser

variable {α β : Type} {m : Nat} {p q : Parser α} {c c' d d' : Cursor} {t : Token}

/-- The answer at a cursor is decided by the tokens taken and the next one, or by the tokens up to the one
that an error points at, beside which the parser stops. A value takes at least `m` tokens, and so many stand
in front of the one at fault. -/
inductive Decided (m : Nat) (p : Parser α) (c : Cursor) : Prop where
  | none (h : p c = none)
  | value {ts : List Token} {a : α} {d : Cursor} (hpass : c.Passes ts d) (hm : m ≤ ts.length)
      (h : ∀ c' d', c'.Passes ts d' → c'.previous = c.previous → d.SameNext d' →
        p c' = .none ∨ p c' = some (.ok a, d'))
  | token {ts : List Token} {t : Token} {e : SyntaxError} {d : Cursor} (hpass : c.Passes (ts ++ [t]) d)
      (hm : m ≤ ts.length) (he : e.position = t.position)
      (h : ∀ c' d', c'.Passes (ts ++ [t]) d' → c'.previous = c.previous →
        p c' = .none ∨ ∃ x, p c' = some (.error e, x) ∧ x.Beside t d')
  | finish {e : SyntaxError} {x : Cursor} (he : e.position = c.finish) (hx : x.ahead = [])
      (h : p c = some (.error e, x))

theorem Decided.mono {k : Nat} (h : Decided m p c) (hk : k ≤ m) : Decided k p c := by
  cases h with
  | none h => exact .none h
  | value hpass hm h => exact .value hpass (Nat.le_trans hk hm) h
  | token hpass hm he h => exact .token hpass (Nat.le_trans hk hm) he h
  | finish he hx h => exact .finish he hx h

theorem Decided.ok {a : α} {x : Cursor} (h : Decided m p c) (hp : p c = some (.ok a, x)) :
    ∃ ts, c.Passes ts x := by
  cases h with
  | none h =>
    rw [hp] at h
    cases h
  | @value ts a d hpass _ h =>
    have hself := h c d hpass rfl ⟨rfl, rfl, fun _ => rfl⟩
    rw [hp] at hself
    rcases hself with hself | hself <;> cases hself
    exact ⟨ts, hpass⟩
  | finish _ _ h =>
    rw [hp] at h
    cases h
  | @token ts t e d hpass _ _ h =>
    have hself := h c d hpass rfl
    rw [hp] at hself
    obtain hself | ⟨x', hself, -⟩ := hself <;> cases hself

theorem Decided.error {e : SyntaxError} {x : Cursor} (h : Decided m p c) (hp : p c = some (.error e, x)) :
    e.position = c.finish ∧ x.ahead = [] ∨ ∃ ts t d, c.Passes (ts ++ [t]) d ∧ e.position = t.position ∧
      x.Beside t d ∧ ∀ c' d', c'.Passes (ts ++ [t]) d' → c'.previous = c.previous →
        p c' = .none ∨ ∃ x', p c' = some (.error e, x') ∧ x'.Beside t d' := by
  cases h with
  | none h =>
    rw [hp] at h
    cases h
  | @value ts a d hpass _ h =>
    have hself := h c d hpass rfl ⟨rfl, rfl, fun _ => rfl⟩
    rw [hp] at hself
    rcases hself with hself | hself <;> cases hself
  | finish he hx h =>
    rw [hp] at h
    cases h
    exact .inl ⟨he, hx⟩
  | @token ts t e' d hpass _ he h =>
    have hself := h c d hpass rfl
    rw [hp] at hself
    obtain hself | ⟨x', hself, hbeside⟩ := hself <;> cases hself
    exact .inr ⟨ts, t, d, hpass, he, hbeside, h⟩

theorem decided_stuck : Decided m (stuck : Parser α) c := .none rfl

theorem decided_pure (a : α) : Decided 0 (pure a : Parser α) c := by
  refine .value (a := a) (.refl c) (Nat.le_refl 0) fun c' d' hpass _ _ => ?_
  obtain rfl := hpass.eq
  exact .inr rfl

theorem decided_failHere (fault : Fault) : Decided 0 (failHere fault : Parser α) c := by
  cases hahead : c.ahead with
  | nil => exact .finish (e := ⟨fault, c.position⟩) (by simp [position, hahead]) hahead rfl
  | cons t ts =>
    have hpass : c.Passes ([] ++ [t]) ⟨some t, ts, c.finish⟩ := ⟨hahead, rfl, rfl⟩
    refine .token (e := ⟨fault, t.position⟩) hpass (Nat.le_refl 0) rfl fun c' d' hpass' _ => .inr ?_
    have hposition : c'.position = t.position := by rw [position, hpass'.ahead]; rfl
    exact ⟨c', by rw [failHere, hposition]; rfl, .inl hpass'⟩

theorem decided_unexpected (expected : Expectation) : Decided 0 (unexpected expected : Parser α) c := by
  cases hahead : c.ahead with
  | nil =>
    exact .finish (e := ⟨.unexpectedToken expected c.found, c.position⟩) (by simp [position, hahead])
      hahead rfl
  | cons t ts =>
    have hpass : c.Passes ([] ++ [t]) ⟨some t, ts, c.finish⟩ := ⟨hahead, rfl, rfl⟩
    refine .token (e := ⟨.unexpectedToken expected (.token t.kind t.lexeme), t.position⟩) hpass
      (Nat.le_refl 0) rfl fun c' d' hpass' _ => .inr ?_
    have hposition : c'.position = t.position := by rw [position, hpass'.ahead]; rfl
    have hfound : c'.found = .token t.kind t.lexeme := by rw [found, hpass'.ahead]; rfl
    exact ⟨c', by rw [unexpected, failHere, hposition, hfound]; rfl, .inl hpass'⟩

theorem Decided.bind {f : α → Parser β} (hp : Decided m p c)
    (hf : ∀ a d, p c = some (.ok a, d) → Decided 0 (f a) d) : Decided m (p >>= f) c := by
  cases hp with
  | none h => exact .none (bind_eq_none h)
  | finish he hx h => exact .finish he hx (bind_eq_error h)
  | token hpass hm he h =>
    refine .token hpass hm he fun c' d' hpass' hprevious => ?_
    obtain hnone | ⟨x, hx, hbeside⟩ := h c' d' hpass' hprevious
    · exact .inl (bind_eq_none hnone)
    · exact .inr ⟨x, bind_eq_error hx, hbeside⟩
  | @value ts a d hpass hm h =>
    obtain hnone | hok := h c d hpass rfl ⟨rfl, rfl, fun _ => rfl⟩
    · exact .none (bind_eq_none hnone)
    cases hf a d hok with
    | none h' => exact .none ((bind_eq_ok hok).trans h')
    | finish he hx h' => exact .finish (he.trans hpass.finish) hx ((bind_eq_ok hok).trans h')
    | @value us b x hpass₂ _ h' =>
      refine .value (a := b) (hpass.trans hpass₂) (by rw [List.length_append]; omega)
        fun c' x' hpass' hprevious hnext => ?_
      obtain ⟨d', hpass₁', hpass₂'⟩ := hpass'.split
      have hbehind : d'.previous = d.previous := by rw [hpass₁'.previous, hprevious, hpass.previous]
      obtain hnone | hok' := h c' d' hpass₁' hprevious
        (hpass₂.sameNext hpass₂' hbehind fun _ => hnext)
      · exact .inl (bind_eq_none hnone)
      · rw [bind_eq_ok hok']
        exact h' d' x' hpass₂' hbehind hnext
    | @token us t e x hpass₂ _ he h' =>
      have hboth : c.Passes (ts ++ us ++ [t]) x := by
        rw [List.append_assoc]
        exact hpass.trans hpass₂
      refine .token hboth (by rw [List.length_append]; omega) he fun c' x' hpass' hprevious => ?_
      rw [List.append_assoc] at hpass'
      obtain ⟨d', hpass₁', hpass₂'⟩ := hpass'.split
      have hbehind : d'.previous = d.previous := by rw [hpass₁'.previous, hprevious, hpass.previous]
      obtain hnone | hok' := h c' d' hpass₁' hprevious
        (hpass₂.sameNext hpass₂' hbehind fun hnil => by simp at hnil)
      · exact .inl (bind_eq_none hnone)
      · rw [bind_eq_ok hok']
        exact h' d' x' hpass₂' hbehind

theorem decided_read {f : Cursor → β} {g : β → Parser α} (hf : LooksOnce f)
    (h : Decided 0 (g (f c)) c) : Decided 0 (Action.read f >>= g) c := by
  have hread : Decided 0 (Action.read f : Parser β) c := by
    refine .value (a := f c) (.refl c) (Nat.le_refl 0) fun c' d' hpass _ hnext => .inr ?_
    obtain rfl := hpass.eq
    rw [read_apply, hf c _ hnext]
  apply hread.bind
  rintro a d hd
  cases hd
  exact h

theorem Decided.congr (h : Decided m q c) (hpq : ∀ c', c.SameNext c' → p c' = q c') : Decided m p c := by
  have hself : p c = q c := hpq c ⟨rfl, rfl, fun _ => rfl⟩
  cases h with
  | none h => exact .none (hself.trans h)
  | finish he hx h => exact .finish he hx (hself.trans h)
  | @value ts a d hpass hm h =>
    refine .value (a := a) hpass hm fun c' d' hpass' hprevious hnext => ?_
    rw [hpq c' (hpass.sameNext hpass' hprevious fun _ => hnext)]
    exact h c' d' hpass' hprevious hnext
  | token hpass hm he h =>
    refine .token hpass hm he fun c' d' hpass' hprevious => ?_
    rw [hpq c' (hpass.sameNext hpass' hprevious fun hnil => by simp at hnil)]
    exact h c' d' hpass' hprevious

theorem decided_taken {ts : List Token} (hahead : c.ahead = t :: ts)
    (hpq : ∀ c', c.SameNext c' → p c' = q c'.advance) (hq : Decided 0 q c.advance) : Decided 1 p c := by
  have hadvance : Decided 1 (Action.modify Cursor.advance : Parser Unit) c := by
    refine .value (a := ()) (passes_advance_of hahead) (Nat.le_refl 1) fun c' d' hpass' _ _ => .inr ?_
    rw [modify_apply, hpass'.advance_eq]
  apply (hadvance.bind (f := fun _ => q) _).congr hpq
  rintro a d hd
  cases hd
  exact hq

theorem decided_take? {f : Cursor → Token → Option α} (hf : ∀ t, LooksOnce fun c => f c t) :
    Decided 0 (take? f) c := by
  cases hahead : c.ahead with
  | nil =>
    refine .value (a := none) (.refl c) (Nat.le_refl 0) fun c' d' hpass _ hnext => .inr ?_
    obtain rfl := hpass.eq
    have hnil : d'.ahead = [] := by
      rw [← List.head?_eq_none_iff, hnext.head, hahead]
      rfl
    rw [take?, hnil]
  | cons t ts =>
    cases hft : f c t with
    | none =>
      refine .value (a := none) (.refl c) (Nat.le_refl 0) fun c' d' hpass _ hnext => .inr ?_
      obtain rfl := hpass.eq
      obtain ⟨ts', hahead'⟩ : ∃ ts', d'.ahead = t :: ts' := by
        rw [← List.head?_eq_some_iff, hnext.head, hahead]
        rfl
      have hnone : f d' t = none := (hf t c d' hnext).trans hft
      rw [take?, hahead']
      dsimp only
      rw [hnone]
    | some a =>
      have hpass := passes_advance_of hahead
      refine .value (a := some a) hpass (Nat.zero_le 1) fun c' d' hpass' hprevious hnext => .inr ?_
      have hsome : f c' t = some a :=
        (hf t c c' (hpass.sameNext hpass' hprevious fun hnil => by cases hnil)).trans hft
      have hahead' : c'.ahead = t :: d'.ahead := hpass'.ahead
      rw [take?, hahead']
      dsimp only
      rw [hsome, hpass'.advance_eq]

theorem looksOnce_startsLine : LooksOnce Cursor.startsLine := looksOnce_of_cons fun _ _ _ _ _ _ => rfl

theorem decided_accept (kind : TokenKind) : Decided 0 (accept kind) c :=
  (decided_take? fun _ => looksOnce_of_cons fun _ _ _ _ _ _ => rfl).bind fun _ _ _ => decided_pure _

theorem decided_takeOnLine? (kind : TokenKind) : Decided 0 (takeOnLine? kind) c :=
  decided_take? fun _ => looksOnce_of_cons fun _ _ _ _ _ _ => rfl

theorem decided_expect (kind : TokenKind) (expected : Expectation) :
    Decided 0 (expect kind expected) c := by
  apply (decided_takeOnLine? kind).bind
  rintro (_ | t) d -
  · exact decided_unexpected expected
  · exact decided_pure t

theorem decided_takeOperator? (level : TokenKind → Option BinaryOperator) :
    Decided 0 (takeOperator? level) c :=
  decided_take? fun _ => looksOnce_of_cons fun _ _ _ _ _ _ => rfl

theorem decided_takeElse? (column : Nat) : Decided 0 (takeElse? column) c :=
  decided_take? fun _ => looksOnce_of_cons fun _ _ _ _ _ _ => rfl

theorem expect_eq_ok {kind : TokenKind} {expected : Expectation}
    (h : expect kind expected c = some (.ok t, d)) :
    t.kind = kind ∧ c.startsLine = false ∧ c.Passes [t] d := by
  obtain ⟨previous, ahead, finish⟩ := c
  by_cases hnext : (Cursor.mk previous ahead finish).Stops (· = kind)
  · rw [expect, bind_eq_ok (takeOnLine?_stops hnext)] at h
    cases h
  · obtain ⟨u, hu, hline, hkind⟩ : ∃ u ∈ ahead.head?,
        (Cursor.mk previous ahead finish).startsLine = false ∧ u.kind = kind := by
      simpa [Stops] using hnext
    obtain ⟨ts, rfl⟩ := List.head?_eq_some_iff.1 hu
    rw [expect_apply hkind hline] at h
    cases h
    exact ⟨hkind, hline, passes_advance⟩

theorem decided_takeTarget {f : Option String → Parser α} (hnone : Decided c.names (f none) c)
    (hsome : ∀ name d, Decided 0 (f (some name)) d) : Decided c.names (takeTarget >>= f) c := by
  -- The second token is looked at behind a name only, and what reads on from there takes the name.
  cases hname : c.nextIs .identifier with
  | false =>
    apply hnone.congr
    intro c' hnext
    have hlooks : LooksOnce (·.nextIs .identifier) := looksOnce_of_cons fun _ _ _ _ _ _ => rfl
    have hother := assignmentAhead_of_nextIs ((hlooks c c' hnext).trans hname)
    rw [bind_eq_ok (takeTarget_apply hother)]
  | true =>
    obtain ⟨t, ts, hahead, -⟩ := exists_name hname
    cases htarget : c.assignmentAhead with
    | true =>
      obtain ⟨u, e, d, hpass⟩ := exists_target htarget
      have htake : Decided c.names takeTarget c := by
        refine .value (a := some u.lexeme) hpass (Nat.le_succ_of_le c.names_le) fun c' d' hpass' _ _ => ?_
        have hsame := assignmentAhead_of_passes hpass hpass' nofun
        exact .inr (takeTarget_passes hpass' (hsame.trans htarget))
      apply htake.bind
      rintro o d₁ ho
      rw [takeTarget_passes hpass htarget] at ho
      cases ho
      exact hsome _ _
    | false =>
      -- What is taken begins with the name, so the second token is the same for all that is compared.
      have hself : (takeTarget >>= f) c = f none c := by
        rw [bind_eq_ok (takeTarget_apply htarget)]
      cases hnone with
      | none h => exact .none (hself.trans h)
      | finish he hx h => exact .finish he hx (hself.trans h)
      | @value us a d hpass hm h =>
        refine .value (a := a) hpass hm fun c' d' hpass' hprevious hnext => ?_
        obtain ⟨us, rfl⟩ := hpass.head_of_names hname hahead hm
        have hother := (assignmentAhead_of_passes hpass hpass' fun _ => hnext).trans htarget
        rw [bind_eq_ok (takeTarget_apply hother)]
        exact h c' d' hpass' hprevious hnext
      | @token us u e d hpass hm he h =>
        refine .token hpass hm he fun c' d' hpass' hprevious => ?_
        obtain ⟨x, hx, -⟩ := hpass.split
        obtain ⟨vs, rfl⟩ := hx.head_of_names hname hahead hm
        have hother := (assignmentAhead_of_passes hpass hpass' fun hnil => by simp at hnil).trans htarget
        rw [bind_eq_ok (takeTarget_apply hother)]
        exact h c' d' hpass' hprevious

end Parser

end IntScript.Grammar
