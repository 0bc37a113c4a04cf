import IntScript.Grammar.Statement
import IntScript.Proofs.Action.Triple

/-!
# Single steps of parsers

What the parsers that look at one token do when it is there, and when it is not.
-/

namespace IntScript

def Token.Joins (t u : Token) : Prop := u.span.line = t.span.endLine

namespace Grammar

open IntScript.Action

def lastOf : Option Token → List Token → Option Token
  | previous, [] => previous
  | _, t :: ts => lastOf (some t) ts

@[simp] theorem lastOf_append (previous : Option Token) (ts us : List Token) :
    lastOf previous (ts ++ us) = lastOf (lastOf previous ts) us := by
  induction ts generalizing previous with
  | nil => rfl
  | cons t ts ih => exact ih (some t)

theorem lastOf_cons_eq_getLast (previous : Option Token) (t : Token) (ts : List Token) :
    lastOf previous (t :: ts) = some ((t :: ts).getLast (by simp)) := by
  induction ts generalizing previous t with
  | nil => rfl
  | cons u ts ih => exact ih (some t) u

theorem lastOf_none (ts : List Token) : lastOf none ts = ts.getLast? := by
  cases ts with
  | nil => rfl
  | cons t ts => rw [lastOf_cons_eq_getLast, List.getLast?_eq_some_getLast (List.cons_ne_nil t ts)]

namespace Cursor

/-- Nothing of these kinds follows on the line. -/
def Stops (c : Cursor) (continues : TokenKind → Bool) : Prop :=
  ∀ t ∈ c.ahead.head?, c.startsLine = false → continues t.kind = false

variable {continues continues' : TokenKind → Bool} {c : Cursor}

theorem Stops.mono (h : c.Stops continues)
    (hle : ∀ kind, continues' kind = true → continues kind = true) : c.Stops continues' := by
  intro t ht hline
  have hstop := h t ht hline
  cases hkind : continues' t.kind with
  | false => rfl
  | true => rw [hle _ hkind] at hstop; exact hstop

theorem stops_cons {previous : Option Token} {t : Token} {ts : List Token} {finish : Position}
    (h : continues t.kind = false) : (Cursor.mk previous (t :: ts) finish).Stops continues := by
  intro u hu _
  cases hu
  exact h

theorem startsLine_of_joins {t u : Token} {ts : List Token} {finish : Position}
    (h : t.Joins u) : (Cursor.mk (some t) (u :: ts) finish).startsLine = false := by
  have hle : u.span.line ≤ t.span.endLine := Nat.le_of_eq h
  exact decide_eq_false (Nat.not_lt.2 hle)

theorem startsLine_of_lt {previous : Option Token} {t : Token} {ts : List Token} {finish : Position}
    (h : ∀ u ∈ previous, u.span.endLine < t.span.line) :
    (Cursor.mk previous (t :: ts) finish).startsLine = true := by
  cases previous with
  | none => rfl
  | some u => exact decide_eq_true (h u rfl)

theorem ofTokens_append {front : List Token} {mark : Token} (hfront : ∀ t ∈ front, t.kind ≠ .eof)
    (hmark : mark.kind = .eof) (rest : List Token) :
    ofTokens (front ++ mark :: rest) = ⟨none, front, mark.position⟩ := by
  have hall : ∀ t ∈ front, decide (t.kind ≠ .eof) = true := fun t ht => decide_eq_true (hfront t ht)
  have hnone : front.find? (·.kind = .eof) = none := by simpa using hfront
  have hahead : (front ++ mark :: rest).takeWhile (fun t => decide (t.kind ≠ .eof)) = front := by
    rw [List.takeWhile_append_of_pos hall, List.takeWhile_cons_of_neg (by simpa using hmark),
      List.append_nil]
  have hfinish : finishOf (front ++ mark :: rest) = mark.position := by
    rw [finishOf, List.find?_append, hnone, List.find?_cons_of_pos (by simpa using hmark)]
    rfl
  rw [ofTokens, hahead, hfinish]

theorem fit_of_atEnd {column : Nat} (h : c.atEnd = true) : c.fit column = .behind := by
  simp [Cursor.fit, h]

theorem fit_of_lt {column : Nat} (hline : c.startsLine = true) (h : c.position.column < column) :
    c.fit column = .behind := by
  simp [Cursor.fit, hline, h]

theorem fit_position (h : c.atEnd = false) : c.fit c.position.column = .within := by
  simp [Cursor.fit, h]

end Cursor

namespace Parser

variable {α : Type}

theorem operandOnLine_apply {p : Parser α} {c : Cursor} (h : c.startsLine = false) :
    operandOnLine p c = p c := by
  rw [operandOnLine, bind_eq_ok (read_apply _ _), h]
  rfl

theorem takeTarget_apply {c : Cursor} (h : c.assignmentAhead = false) :
    takeTarget c = some (.ok none, c) := by
  rw [takeTarget]
  split
  · rw [h]
    rfl
  · rfl

theorem takeOnLine?_apply {previous : Option Token} {t : Token} {ts : List Token}
    {finish : Position} {kind : TokenKind} (hkind : t.kind = kind)
    (hline : (Cursor.mk previous (t :: ts) finish).startsLine = false) :
    takeOnLine? kind ⟨previous, t :: ts, finish⟩ = some (.ok (some t), ⟨some t, ts, finish⟩) := by
  simp [takeOnLine?, take?, hkind, hline, Cursor.advance]

theorem takeOnLine?_stops {c : Cursor} {kind : TokenKind} (h : c.Stops (· = kind)) :
    takeOnLine? kind c = some (.ok none, c) := by
  obtain ⟨previous, _ | ⟨t, ts⟩, finish⟩ := c
  · rfl
  · have hstop := h t (by simp)
    unfold takeOnLine? take?
    dsimp only
    rw [if_neg]
    rintro ⟨hkind, hline⟩
    simpa [hkind] using hstop hline

theorem expect_apply {previous : Option Token} {t : Token} {ts : List Token}
    {finish : Position} {kind : TokenKind} {expected : Expectation} (hkind : t.kind = kind)
    (hline : (Cursor.mk previous (t :: ts) finish).startsLine = false) :
    expect kind expected ⟨previous, t :: ts, finish⟩ = some (.ok t, ⟨some t, ts, finish⟩) := by
  rw [expect, bind_eq_ok (takeOnLine?_apply hkind hline)]
  rfl

theorem accept_apply {previous : Option Token} {t : Token} {ts : List Token}
    {finish : Position} {kind : TokenKind} (hkind : t.kind = kind) :
    accept kind ⟨previous, t :: ts, finish⟩ = some (.ok true, ⟨some t, ts, finish⟩) := by
  simp [accept, bind_apply, take?, hkind, Cursor.advance]

theorem accept_none {c : Cursor} {kind : TokenKind} (h : ∀ t ∈ c.ahead.head?, t.kind ≠ kind) :
    accept kind c = some (.ok false, c) := by
  obtain ⟨previous, _ | ⟨t, ts⟩, finish⟩ := c
  · rfl
  · have hkind := h t (by simp)
    simp [accept, bind_apply, take?, hkind]

theorem takeOperator?_apply {level : TokenKind → Option BinaryOperator} {previous : Option Token}
    {t : Token} {ts : List Token} {finish : Position} {op : BinaryOperator}
    (hop : level t.kind = some op)
    (hline : (Cursor.mk previous (t :: ts) finish).startsLine = false) :
    takeOperator? level ⟨previous, t :: ts, finish⟩ = some (.ok (some op), ⟨some t, ts, finish⟩) := by
  simp [takeOperator?, take?, hop, hline, Cursor.advance]

theorem takeOperator?_stops {level : TokenKind → Option BinaryOperator} {c : Cursor}
    (h : c.Stops fun kind => (level kind).isSome) :
    takeOperator? level c = some (.ok none, c) := by
  obtain ⟨previous, _ | ⟨t, ts⟩, finish⟩ := c
  · rfl
  · have hstop := h t (by simp)
    unfold takeOperator? take?
    dsimp only
    cases hline : (Cursor.mk previous (t :: ts) finish).startsLine with
    | true => rfl
    | false =>
      have hnone : level t.kind = none := by simpa using hstop hline
      simp [hnone]

theorem primary_apply {nested : Parser Expression} {n : Nat} {previous : Option Token} {t : Token}
    {ts : List Token} {finish : Position} (h : beginsOperand t.kind = true) :
    primary nested n ⟨previous, t :: ts, finish⟩ =
      (match t.kind with
        | .integer => integerValue t
        | .string => return .text t.lexeme
        | .identifier => variableOrCall nested t.lexeme n
        | _ => do
          let e ← nested
          let _ ← expect .rparen .parenAfterExpression
          return e : Parser Expression) ⟨some t, ts, finish⟩ := by
  have htake : take? (fun _ u => if beginsOperand u.kind then some u else none)
      ⟨previous, t :: ts, finish⟩ = some (.ok (some t), ⟨some t, ts, finish⟩) := by
    simp [take?, h, Cursor.advance]
  rw [primary]
  exact bind_eq_ok htake

def afterKeyword (p : Parser Statement) (column n : Nat) : TokenKind → Parser Statement
  | .print => printStatement n
  | .ifKeyword => ifStatement p column n
  | .defKeyword => defStatement p column n
  | _ => returnStatement n

theorem openStatement_keyword {p : Parser Statement} {n : Nat} {previous : Option Token} {t : Token}
    {ts : List Token} {finish : Position} (h : beginsStatement t.kind = true) :
    openStatement p n ⟨previous, t :: ts, finish⟩ =
      afterKeyword p t.span.column n t.kind ⟨some t, ts, finish⟩ := by
  have htake : take? (fun _ u => if beginsStatement u.kind then some u else none)
      ⟨previous, t :: ts, finish⟩ = some (.ok (some t), ⟨some t, ts, finish⟩) := by
    simp [take?, h, Cursor.advance]
  unfold openStatement afterKeyword
  exact bind_eq_ok htake

theorem openStatement_plain {p : Parser Statement} {n : Nat} {c : Cursor}
    (h : ∀ t ∈ c.ahead.head?, beginsStatement t.kind = false) :
    openStatement p n c = plainStatement n c := by
  have htake : take? (fun _ u => if beginsStatement u.kind then some u else none) c =
      some (.ok none, c) := by
    obtain ⟨previous, _ | ⟨t, ts⟩, finish⟩ := c
    · rfl
    · simp [take?, h t rfl]
  rw [openStatement]
  exact bind_eq_ok htake

theorem takeElse?_apply {column : Nat} {previous : Option Token} {t : Token} {ts : List Token}
    {finish : Position} (hkind : t.kind = .elseKeyword)
    (h : (Cursor.mk previous (t :: ts) finish).startsLine = false ∨ t.span.column = column) :
    takeElse? column ⟨previous, t :: ts, finish⟩ = some (.ok (some t), ⟨some t, ts, finish⟩) := by
  simp [takeElse?, take?, hkind, h, Cursor.advance]

theorem takeElse?_none {column : Nat} {c : Cursor} (h : ∀ t ∈ c.ahead.head?,
    t.kind = .elseKeyword → c.startsLine = true ∧ t.span.column ≠ column) :
    takeElse? column c = some (.ok none, c) := by
  obtain ⟨previous, _ | ⟨t, ts⟩, finish⟩ := c
  · rfl
  · have hno := h t rfl
    unfold takeElse? take?
    dsimp only
    rw [if_neg]
    rintro ⟨hkind, hline | hcolumn⟩
    · rw [(hno hkind).1] at hline
      cases hline
    · exact (hno hkind).2 hcolumn

end Parser

end Grammar

end IntScript
