import IntScript.Proofs.Grammar.Complete

/-!
# Statements and their lines

What the tokens of a statement look like, and that they are read as it. A statement is closed by a line
that begins in its column or further left. An `else` on such a line, in the column of an `if`, goes on
with that `if`.
-/

namespace IntScript.Grammar

open IntScript.Action

/-- What follows begins a line left of the column, and not with the comma that would go on with a list. -/
def Cursor.Closes (c : Cursor) (column : Nat) : Prop :=
  ∀ t ∈ c.ahead.head?, c.startsLine = true ∧ t.span.column < column ∧ t.kind ≠ .comma

namespace Cursor.Closes

variable {c : Cursor} {column column' : Nat}

theorem mono (h : c.Closes column) (hle : column ≤ column') : c.Closes column' := by
  intro t ht
  obtain ⟨hline, hcolumn, hcomma⟩ := h t ht
  exact ⟨hline, by omega, hcomma⟩

theorem fit (h : c.Closes column) : c.fit column = .behind := by
  obtain ⟨previous, _ | ⟨t, ts⟩, finish⟩ := c
  · rfl
  · obtain ⟨hline, hcolumn, -⟩ := h t rfl
    exact Cursor.fit_of_lt hline hcolumn

theorem endsStatement (h : c.Closes column) : c.endsStatement = true := by
  obtain ⟨previous, _ | ⟨t, ts⟩, finish⟩ := c
  · rfl
  · simp [Cursor.endsStatement, (h t rfl).1]

theorem stops (h : c.Closes column) (continues : TokenKind → Bool) : c.Stops continues := by
  intro t ht hline
  rw [(h t ht).1] at hline
  cases hline

end Cursor.Closes

/-- Read as the statement in this column, if what follows closes it. -/
def ReadsStatement (ts : List Token) (s : Statement) (column : Nat) : Prop :=
  ∀ previous rest finish, (Cursor.mk (lastOf previous ts) rest finish).Closes (column + 1) →
    (∀ t ∈ rest.head?, t.span.column = column → t.kind ≠ .elseKeyword) →
    Settles Parser.statement ⟨previous, ts ++ rest, finish⟩ (.ok s) ⟨lastOf previous ts, rest, finish⟩

def ReadsLines (ts : List Token) (ss : List Statement) (column : Nat) : Prop :=
  ∀ previous rest finish, (Cursor.mk (lastOf previous ts) rest finish).Closes column →
    Settles (fun n => Parser.linesAt (Parser.statement n) column n) ⟨previous, ts ++ rest, finish⟩
      (.ok ss) ⟨lastOf previous ts, rest, finish⟩

def ReadsBody (colon : Token) (ts : List Token) (s : Statement) (header : Nat) : Prop :=
  ∀ construct previous rest finish,
    (Cursor.mk previous (colon :: (ts ++ rest)) finish).startsLine = false →
    (Cursor.mk (lastOf (some colon) ts) rest finish).Closes (header + 1) →
    Settles (fun n => Parser.body (Parser.statement n) construct header n)
      ⟨previous, colon :: (ts ++ rest), finish⟩ (.ok s) ⟨lastOf (some colon) ts, rest, finish⟩

inductive Names : List Token → List String → Prop where
  | last {t} (ht : t.kind = .identifier) : Names [t] [t.lexeme]
  | cons {t c ts xs} (ht : t.kind = .identifier) (hc : c.kind = .comma) (h : Names ts xs) :
      Names (t :: c :: ts) (t.lexeme :: xs)

variable {ts us vs rest : List Token} {t u o : Token} {e : Expression} {s : Statement}
  {previous : Option Token} {finish : Position} {column header : Nat}

theorem settles_statement {c c' : Cursor} (hend : c'.endsStatement = true)
    (h : Settles (fun n => Parser.openStatement (Parser.statement n) n) c (.ok s) c') :
    Settles Parser.statement c (.ok s) c' := by
  have hgrown := h.mono (q := fun n => Parser.openStatement (Parser.statement n) (n + 1))
    fun n => Parser.openStatement_le le_rfl n.le_succ
  have hdone : Parser.endOfStatement c' = some (.ok (), c') := by
    simp [Parser.endOfStatement, bind_apply, hend]
  apply Settles.of_succ
  exact hgrown.bind (Settles.bind (.of_forall fun _ => hdone) (.pure _))

theorem settles_keyword {kind : TokenKind} {c : Cursor} (ht : t.kind = kind)
    (hkind : beginsStatement kind = true) (hend : c.endsStatement = true)
    (h : Settles (fun n => Parser.afterKeyword (Parser.statement n) t.span.column n kind)
      ⟨some t, ts, finish⟩ (.ok s) c) :
    Settles Parser.statement ⟨previous, t :: ts, finish⟩ (.ok s) c := by
  subst ht
  apply settles_statement hend
  apply h.congr
  intro n
  exact Parser.openStatement_keyword hkind

section Plain

theorem settles_plainStatement {p : Nat → Parser Statement} {c c' : Cursor}
    (hhead : ∀ t ∈ c.ahead.head?, beginsStatement t.kind = false)
    (h : Settles Parser.plainStatement c (.ok s) c') :
    Settles (fun n => Parser.openStatement (p n) n) c (.ok s) c' := by
  apply h.congr
  intro n
  exact Parser.openStatement_plain hhead

theorem readsStatement_expression (h : Derives (.level .comparison) ts e)
    (hline : ts.IsChain Token.Joins) : ReadsStatement ts (.expression e) column := by
  intro previous rest finish hclose _
  obtain ⟨t, us, rfl, ht⟩ := derives_head h
  have hne : t :: us ≠ [] := List.cons_ne_nil t us
  have hstop := hclose.stops Nonterminal.expression.continues
  have htarget := noTarget_of_derives h trivial
  have hread := reads_expression (reads_of_derives h) hne htarget previous rest finish hline hstop
  have hahead := assignmentAhead_eq_false htarget hne hstop
  apply settles_statement hclose.endsStatement
  apply settles_plainStatement
  · intro u hu
    cases hu
    cases hkind : t.kind <;> rw [hkind] at ht <;> first | rfl | cases ht
  · exact Settles.bind (.of_forall fun n => Parser.takeTarget_apply hahead)
      (hread.bind (.pure _))

theorem readsStatement_assign (ht : t.kind = .identifier) (ho : o.kind = .assign)
    (h : Derives .expression ts e) (hline : (t :: o :: ts).IsChain Token.Joins) :
    ReadsStatement (t :: o :: ts) (.assign t.lexeme e) column := by
  intro previous rest finish hclose _
  obtain ⟨u, us, rfl, -⟩ := derives_head h
  have hjoins : o.span.line = t.span.endLine := (List.isChain_cons_cons.1 hline).1
  have htarget : Parser.takeTarget ⟨previous, t :: o :: (u :: us ++ rest), finish⟩ =
      some (.ok (some t.lexeme), ⟨some o, u :: us ++ rest, finish⟩) := by
    simp [Parser.takeTarget, Cursor.assignmentAhead, ht, ho, hjoins]
  have hvalue := reads_nested (reads_of_derives h) (List.cons_ne_nil u us) hline.tail
    (hclose.stops _)
  apply settles_statement hclose.endsStatement
  apply settles_plainStatement
  · intro u hu
    cases hu
    rw [ht]
    rfl
  · exact Settles.bind (.of_forall fun n => htarget) (hvalue.bind (.pure _))

end Plain

section Items

variable {α : Type} {items : Nat → Parser α}

theorem unlessEnd_some {p : Parser α} (hjoins : t.Joins u) :
    Parser.unlessEnd p ⟨some t, u :: ts, finish⟩ =
      (do return some (← p) : Parser (Option α)) ⟨some t, u :: ts, finish⟩ := by
  have hmore : (Cursor.mk (some t) (u :: ts) finish).endsStatement = false := by
    simp [Cursor.endsStatement, Cursor.atEnd, Cursor.startsLine_of_joins hjoins]
  rw [Parser.unlessEnd, bind_eq_ok (read_apply _ _), hmore]
  rfl

theorem settles_unlessEnd {a : α} {c' : Cursor} (hjoins : t.Joins u)
    (h : Settles items ⟨some t, u :: ts, finish⟩ (.ok a) c') :
    Settles (fun n => Parser.unlessEnd (items n)) ⟨some t, u :: ts, finish⟩ (.ok (some a)) c' := by
  have hitems := h.bind (f := fun _ a => pure (some a)) (.pure _)
  exact hitems.congr fun _ => unlessEnd_some hjoins

theorem unlessEnd_none {p : Parser α} {c : Cursor} (h : c.endsStatement = true) :
    Parser.unlessEnd p c = some (.ok none, c) := by
  simp [Parser.unlessEnd, bind_apply, h]

theorem readsStatement_printEmpty (ht : t.kind = .print) :
    ReadsStatement [t] (.print []) column := by
  intro previous rest finish hclose _
  have hend := hclose.endsStatement
  have hnone : Settles (fun n => Parser.printStatement n) ⟨some t, rest, finish⟩ (.ok (.print []))
      ⟨some t, rest, finish⟩ :=
    Settles.bind (.of_forall fun n => unlessEnd_none hend) (.pure _)
  exact settles_keyword ht rfl hend hnone

theorem readsStatement_print {es : List Expression} (ht : t.kind = .print)
    (h : Derives .items ts es) (hline : (t :: ts).IsChain Token.Joins) :
    ReadsStatement (t :: ts) (.print es) column := by
  intro previous rest finish hclose _
  obtain ⟨u, us, rfl, -⟩ := derives_head h
  have hcomma : ∀ v ∈ rest.head?, v.kind ≠ .comma := fun v hv => (hclose v hv).2.2
  have hitems := reads_of_derives h t rest finish hline (hclose.stops _) hcomma
  have hprint : Settles Parser.printStatement ⟨some t, u :: us ++ rest, finish⟩
      (.ok (.print es)) ⟨lastOf (some t) (u :: us), rest, finish⟩ :=
    (settles_unlessEnd (List.isChain_cons_cons.1 hline).1 hitems).bind (.pure _)
  exact settles_keyword ht rfl hclose.endsStatement hprint

theorem readsStatement_giveBackNone (ht : t.kind = .returnKeyword) :
    ReadsStatement [t] (.giveBack none) column := by
  intro previous rest finish hclose _
  have hend := hclose.endsStatement
  have hnone : Settles Parser.returnStatement ⟨some t, rest, finish⟩ (.ok (.giveBack none))
      ⟨some t, rest, finish⟩ :=
    Settles.bind (.of_forall fun n => unlessEnd_none hend) (.pure _)
  exact settles_keyword ht rfl hend hnone

theorem readsStatement_giveBack (ht : t.kind = .returnKeyword) (h : Derives .expression ts e)
    (hline : (t :: ts).IsChain Token.Joins) :
    ReadsStatement (t :: ts) (.giveBack (some e)) column := by
  intro previous rest finish hclose _
  obtain ⟨u, us, rfl, -⟩ := derives_head h
  have hstop := hclose.stops Nonterminal.expression.continues
  have hvalue := reads_nested (reads_of_derives h) (List.cons_ne_nil u us) hline hstop
  have hreturn : Settles Parser.returnStatement ⟨some t, u :: us ++ rest, finish⟩
      (.ok (.giveBack (some e))) ⟨lastOf (some t) (u :: us), rest, finish⟩ :=
    (settles_unlessEnd (List.isChain_cons_cons.1 hline).1 hvalue).bind (.pure _)
  exact settles_keyword ht rfl hclose.endsStatement hreturn

end Items

section Lines

def Leads (column : Nat) (t : Token) : Prop :=
  t.span.column = column ∧ t.kind ≠ .elseKeyword ∧ t.kind ≠ .comma

theorem startsLine_of_lines (h : ∀ p ∈ t :: ts, p.span.endLine < u.span.line) :
    (Cursor.mk (lastOf previous (t :: ts)) (u :: rest) finish).startsLine = true := by
  rw [lastOf_cons_eq_getLast]
  exact decide_eq_true (h _ (List.getLast_mem _))

theorem readsLines_nil : ReadsLines [] [] column := by
  intro previous rest finish hclose
  have hfit : (Cursor.mk previous rest finish).fit column = .behind := hclose.fit
  have hread : (Action.read (·.fit column) : Parser Cursor.Fit) ⟨previous, rest, finish⟩ =
      some (.ok .behind, ⟨previous, rest, finish⟩) := by rw [read_apply, hfit]
  apply Settles.of_succ
  exact Settles.bind (.of_forall fun _ => hread) (.pure _)

theorem read_fit_column : (Action.read (·.fit t.span.column) : Parser Cursor.Fit)
    ⟨previous, t :: ts, finish⟩ = some (.ok .within, ⟨previous, t :: ts, finish⟩) := by
  have hfit : (Cursor.mk previous (t :: ts) finish).fit t.span.column = .within :=
    Cursor.fit_position rfl
  rw [read_apply, hfit]

theorem readsLines_cons {ss : List Statement} (ht : t.span.column = column)
    (h : ReadsStatement (t :: ts) s column) (hss : ReadsLines us ss column)
    (hus : ∀ u ∈ us.head?, Leads column u ∧ ∀ p ∈ t :: ts, p.span.endLine < u.span.line) :
    ReadsLines (t :: ts ++ us) (s :: ss) column := by
  intro previous rest finish hclose
  rw [lastOf_append] at hclose ⊢
  have hread : (Action.read (·.fit column) : Parser Cursor.Fit) ⟨previous, t :: ts ++ us ++ rest, finish⟩ =
      some (.ok .within, ⟨previous, t :: ts ++ us ++ rest, finish⟩) := by
    rw [← ht]
    exact read_fit_column
  have hnext : (Cursor.mk (lastOf previous (t :: ts)) (us ++ rest) finish).Closes (column + 1) ∧
      ∀ u ∈ (us ++ rest).head?, u.span.column = column → u.kind ≠ .elseKeyword := by
    cases us with
    | nil =>
      refine ⟨hclose.mono column.le_succ, fun u hu hcolumn => ?_⟩
      have hleft := (hclose u hu).2.1
      omega
    | cons u us =>
      obtain ⟨⟨hcolumn, helse, hcomma⟩, hlines⟩ := hus u rfl
      constructor
      · intro v hv
        cases hv
        exact ⟨startsLine_of_lines hlines, by omega, hcomma⟩
      · intro v hv _
        cases hv
        exact helse
  have hstatement := h previous (us ++ rest) finish hnext.1 hnext.2
  have hlines := (hss (lastOf previous (t :: ts)) rest finish hclose).mono
    (q := fun n => Parser.linesAt (Parser.statement (n + 1)) column n)
    fun n => Parser.linesAt_le (Parser.statement_le n.le_succ) _ le_rfl
  rw [List.append_assoc] at hread ⊢
  apply Settles.of_succ
  exact Settles.bind (.of_forall fun _ => hread) (hstatement.succ.bind (hlines.bind (.pure _)))

end Lines

section Bodies

theorem readsBody_inline (ho : o.kind = .colon) (hjoins : o.Joins u) (hcolumn : header < column)
    (h : ReadsStatement (u :: us) s column) : ReadsBody o (u :: us) s header := by
  intro construct previous rest finish hline hclose
  have hmore : (Cursor.mk (some o) (u :: us ++ rest) finish).endsStatement = false := by
    simp [Cursor.endsStatement, Cursor.atEnd, Cursor.startsLine_of_joins hjoins]
  have hstatement := h (some o) rest finish (hclose.mono (by omega)) (fun t ht htcolumn => by
    have hleft := (hclose t ht).2.1
    omega)
  apply hstatement.congr
  intro n
  rw [Parser.body, bind_eq_ok (Parser.takeOnLine?_apply ho hline), bind_eq_ok (read_apply _ _), hmore]
  rfl

theorem readsBody_block {ss : List Statement} (ho : o.kind = .colon)
    (hnext : o.span.endLine < u.span.line) (hcolumn : header < u.span.column)
    (h : ReadsLines (u :: us) ss u.span.column) : ReadsBody o (u :: us) (.block ss) header := by
  intro construct previous rest finish hline hclose
  have hend : (Cursor.mk (some o) (u :: us ++ rest) finish).endsStatement = true := by
    simp [Cursor.endsStatement, Cursor.startsLine, Cursor.position, Token.position, hnext]
  have hdeeper : (Cursor.mk (some o) (u :: us ++ rest) finish).position.column = u.span.column := rfl
  have hlines := (h (some o) rest finish (hclose.mono hcolumn)).bind
    (f := fun _ ss => pure (Statement.block ss)) (.pure _)
  apply hlines.congr
  intro n
  rw [Parser.body]
  rw [bind_eq_ok (Parser.takeOnLine?_apply ho hline), bind_eq_ok (read_apply _ _), hend, if_pos rfl]
  rw [Parser.indentedBlock]
  have hbelow : ((Cursor.mk (some o) (u :: us ++ rest) finish).atEnd ||
      (Cursor.mk (some o) (u :: us ++ rest) finish).position.column ≤ header) = false := by
    rw [hdeeper, decide_eq_false (Nat.not_le.2 hcolumn)]
    rfl
  rw [bind_eq_ok (read_apply _ _), hbelow, if_neg Bool.false_ne_true]
  rw [bind_eq_ok (read_apply _ _), hdeeper]

end Bodies

section Conditionals

def elseBranch (e : Expression) (s : Statement) (column n : Nat) : Parser Statement := do
  match ← Parser.takeElse? column with
  | none => return .ifElse e s none
  | some t =>
    return .ifElse e s (← Parser.body (Parser.statement n) .elseBranch t.span.column n)

theorem settles_ifElse {c : Cursor} {r : Statement} (ht : t.kind = .ifKeyword)
    (he : Derives .expression ts e) (ho : o.kind = .colon)
    (hbody : ReadsBody o us s t.span.column) (hline : (t :: (ts ++ [o])).IsChain Token.Joins)
    (hclose : (Cursor.mk (lastOf (some o) us) rest finish).Closes (t.span.column + 1))
    (hend : c.endsStatement = true)
    (helse : Settles (elseBranch e s t.span.column) ⟨lastOf (some o) us, rest, finish⟩ (.ok r) c) :
    Settles Parser.statement ⟨previous, t :: (ts ++ o :: (us ++ rest)), finish⟩ (.ok r) c := by
  obtain ⟨u, vs, rfl, -⟩ := derives_head he
  have hstop : (Cursor.mk (lastOf (some t) (u :: vs)) (o :: (us ++ rest)) finish).Stops
      Nonterminal.expression.continues := Cursor.stops_cons (by rw [ho]; rfl)
  have hcondition := reads_nested (reads_of_derives he) (List.cons_ne_nil u vs)
    (isChain_left hline) hstop
  have hthen := hbody .ifBranch (lastOf (some t) (u :: vs)) rest finish (startsLine_behind hline)
    hclose
  have hrest := hthen.bind (f := fun n s => elseBranch e s t.span.column n) helse
  have hwhole := hcondition.bind (f := fun n e =>
    Parser.body (Parser.statement n) .ifBranch t.span.column n >>= fun s =>
      elseBranch e s t.span.column n) hrest
  exact settles_keyword ht rfl hend hwhole

theorem readsStatement_if (ht : t.kind = .ifKeyword) (he : Derives .expression ts e)
    (ho : o.kind = .colon) (hbody : ReadsBody o us s t.span.column)
    (hline : (t :: (ts ++ [o])).IsChain Token.Joins) :
    ReadsStatement (t :: (ts ++ o :: us)) (.ifElse e s none) t.span.column := by
  intro previous rest finish hclose hnoElse
  simp only [lastOf, lastOf_append] at hclose ⊢
  have hnone : Parser.takeElse? t.span.column ⟨lastOf (some o) us, rest, finish⟩ =
      some (.ok none, ⟨lastOf (some o) us, rest, finish⟩) := by
    apply Parser.takeElse?_none
    intro l hl hkind
    obtain ⟨hstarts, -⟩ := hclose l hl
    exact ⟨hstarts, fun hcolumn => hnoElse l hl hcolumn hkind⟩
  have helse : Settles (elseBranch e s t.span.column) ⟨lastOf (some o) us, rest, finish⟩
      (.ok (.ifElse e s none)) ⟨lastOf (some o) us, rest, finish⟩ :=
    Settles.bind (.of_forall fun _ => hnone) (.pure _)
  rw [List.cons_append, List.append_assoc, List.cons_append]
  exact settles_ifElse ht he ho hbody hline hclose hclose.endsStatement helse

theorem readsStatement_ifElse {l o' : Token} {r : Statement} (ht : t.kind = .ifKeyword)
    (he : Derives .expression ts e) (ho : o.kind = .colon)
    (hbody : ReadsBody o us s t.span.column) (hline : (t :: (ts ++ [o])).IsChain Token.Joins)
    (hl : l.kind = .elseKeyword) (hcolumn : l.span.column = t.span.column)
    (hnext : ∀ p ∈ o :: us, p.span.endLine < l.span.line) (hjoins : l.Joins o')
    (helse : ReadsBody o' vs r t.span.column) :
    ReadsStatement (t :: (ts ++ o :: (us ++ l :: o' :: vs))) (.ifElse e s (some r))
      t.span.column := by
  intro previous rest finish hclose _
  simp only [lastOf, lastOf_append] at hclose ⊢
  have hstarts : (Cursor.mk (lastOf none (o :: us)) (l :: o' :: (vs ++ rest)) finish).startsLine =
      true := startsLine_of_lines hnext
  have htake : Parser.takeElse? t.span.column
      ⟨lastOf (some o) us, l :: o' :: (vs ++ rest), finish⟩ =
      some (.ok (some l), ⟨some l, o' :: (vs ++ rest), finish⟩) :=
    Parser.takeElse?_apply hl (.inr hcolumn)
  have hbranch := helse .elseBranch (some l) rest finish (Cursor.startsLine_of_joins hjoins) hclose
  rw [← hcolumn] at hbranch
  have hthen : (Cursor.mk (lastOf (some o) us) (l :: o' :: (vs ++ rest)) finish).Closes
      (t.span.column + 1) := by
    intro u hu
    cases hu
    exact ⟨hstarts, by omega, by rw [hl]; decide⟩
  have hboth : Settles (elseBranch e s t.span.column)
      ⟨lastOf (some o) us, l :: o' :: (vs ++ rest), finish⟩ (.ok (.ifElse e s (some r)))
      ⟨lastOf (some o') vs, rest, finish⟩ :=
    Settles.bind (.of_forall fun _ => htake) (hbranch.bind (.pure _))
  simp only [List.cons_append, List.append_assoc]
  exact settles_ifElse ht he ho hbody hline hthen hclose.endsStatement hboth

end Conditionals

section Definitions

variable {xs seen : List String} {function : String} {p : Token}

theorem settles_parameter {c : Cursor} {r : Except SyntaxError (List String)}
    (ht : t.kind = .identifier) (hjoins : p.Joins t) (hnew : t.lexeme ∉ seen)
    (h : Settles (fun n => do
      if ← Parser.accept .comma then
        return t.lexeme :: (← Parser.parameters function n (t.lexeme :: seen))
      else return [t.lexeme]) ⟨some t, ts, finish⟩ r c) :
    Settles (fun n => Parser.parameters function n seen) ⟨some p, t :: ts, finish⟩ r c := by
  have hline : (Cursor.mk (some p) (t :: ts) finish).startsLine = false :=
    Cursor.startsLine_of_joins hjoins
  have hcontains : seen.contains t.lexeme = false := by simpa using hnew
  apply Settles.of_succ
  apply h.congr
  intro n
  rw [Parser.parameters, bind_eq_ok (Parser.expect_apply ht hline), hcontains]
  rfl

theorem settles_parameters (h : Names ts xs) (hnodup : xs.Nodup) (hseen : ∀ x ∈ xs, x ∉ seen)
    (hline : (p :: ts).IsChain Token.Joins) (hrest : ∀ u ∈ rest.head?, u.kind ≠ .comma) :
    Settles (fun n => Parser.parameters function n seen) ⟨some p, ts ++ rest, finish⟩ (.ok xs)
      ⟨lastOf (some p) ts, rest, finish⟩ := by
  induction h generalizing p seen with
  | @last t ht =>
    apply settles_parameter ht (List.isChain_cons_cons.1 hline).1 (hseen t.lexeme (by simp))
    exact Settles.bind (.of_forall fun _ => Parser.accept_none hrest) (.pure _)
  | @cons t c ts xs ht hc _ ih =>
    obtain ⟨hfresh, hnodup⟩ := List.nodup_cons.1 hnodup
    have hlater : ∀ x ∈ xs, x ∉ t.lexeme :: seen := by
      intro x hx
      rw [List.mem_cons, not_or]
      constructor
      · rintro rfl
        exact hfresh hx
      · exact hseen x (List.mem_cons_of_mem _ hx)
    have hnames := ih hnodup hlater hline.tail.tail
    apply settles_parameter ht (List.isChain_cons_cons.1 hline).1 (hseen t.lexeme (by simp))
    exact Settles.bind (.of_forall fun _ => Parser.accept_apply hc) (hnames.bind (.pure _))

theorem settles_parameterList (h : ts = [] ∧ xs = [] ∨ Names ts xs) (hnodup : xs.Nodup)
    (ho : o.kind = .rparen) (hline : (p :: (ts ++ [o])).IsChain Token.Joins) :
    Settles (fun n => Parser.untilParen (Parser.parameters function n []) .parenAfterParameters)
      ⟨some p, ts ++ o :: rest, finish⟩ (.ok xs) ⟨some o, rest, finish⟩ := by
  have hclose : (Cursor.mk (lastOf (some p) ts) (o :: rest) finish).startsLine = false :=
    startsLine_behind hline
  refine settles_untilParen ?_ ho hclose
  obtain ⟨rfl, rfl⟩ | hnames := h
  · apply Settles.of_forall
    intro n
    simp [Parser.unlessParen, bind_apply, Cursor.nextIs, ho, lastOf]
  · have hmore : (Cursor.mk (some p) (ts ++ o :: rest) finish).nextIs .rparen = false := by
      cases hnames with
      | last ht => simp [Cursor.nextIs, ht]
      | cons ht _ _ => simp [Cursor.nextIs, ht]
    have hcomma : ∀ u ∈ (o :: rest).head?, u.kind ≠ .comma := by
      intro u hu
      cases hu
      rw [ho]
      decide
    have hparameters : Settles (fun n => Parser.parameters function n [])
        ⟨some p, ts ++ o :: rest, finish⟩ (.ok xs) ⟨lastOf (some p) ts, o :: rest, finish⟩ :=
      settles_parameters hnames hnodup (by simp) (isChain_left hline) hcomma
    apply hparameters.congr
    intro n
    rw [Parser.unlessParen, bind_eq_ok (read_apply _ _), hmore]
    rfl

theorem readsStatement_define {x l r : Token} (ht : t.kind = .defKeyword)
    (hx : x.kind = .identifier) (hl : l.kind = .lparen)
    (hnames : ts = [] ∧ xs = [] ∨ Names ts xs) (hnodup : xs.Nodup) (hr : r.kind = .rparen)
    (hline : (t :: x :: l :: (ts ++ [r, o])).IsChain Token.Joins)
    (hbody : ReadsBody o us s t.span.column) :
    ReadsStatement (t :: x :: l :: (ts ++ r :: o :: us)) (.define x.lexeme xs s)
      t.span.column := by
  intro previous rest finish hclose _
  simp only [lastOf, lastOf_append] at hclose ⊢
  have hname : Parser.expect .identifier .functionName
      ⟨some t, x :: l :: (ts ++ r :: o :: (us ++ rest)), finish⟩ =
      some (.ok x, ⟨some x, l :: (ts ++ r :: o :: (us ++ rest)), finish⟩) :=
    Parser.expect_apply hx (Cursor.startsLine_of_joins (List.isChain_cons_cons.1 hline).1)
  have hopen : Parser.expect .lparen .parenAfterName
      ⟨some x, l :: (ts ++ r :: o :: (us ++ rest)), finish⟩ =
      some (.ok l, ⟨some l, ts ++ r :: o :: (us ++ rest), finish⟩) :=
    Parser.expect_apply hl (Cursor.startsLine_of_joins (List.isChain_cons_cons.1 hline.tail).1)
  have hparens : (l :: (ts ++ [r]) ++ [o]).IsChain Token.Joins := by
    simpa using hline.tail.tail
  have hlist : Settles
      (fun n => Parser.untilParen (Parser.parameters x.lexeme n []) .parenAfterParameters)
      ⟨some l, ts ++ r :: o :: (us ++ rest), finish⟩ (.ok xs)
      ⟨some r, o :: (us ++ rest), finish⟩ :=
    settles_parameterList hnames hnodup hr hparens.left_of_append
  have hcolon : (Cursor.mk (lastOf (some l) (ts ++ [r])) (o :: (us ++ rest)) finish).startsLine =
      false := startsLine_behind hparens
  rw [lastOf_append] at hcolon
  have hwhole := hbody (.function x.lexeme) (some r) rest finish hcolon hclose
  have hdefine : Settles (fun n => Parser.defStatement (Parser.statement n) t.span.column n)
      ⟨some t, x :: l :: (ts ++ r :: o :: (us ++ rest)), finish⟩ (.ok (.define x.lexeme xs s))
      ⟨lastOf (some o) us, rest, finish⟩ :=
    Settles.bind (.of_forall fun _ => hname) (Settles.bind (.of_forall fun _ => hopen)
      (hlist.bind (hwhole.bind (.pure _))))
  simp only [List.cons_append, List.append_assoc]
  exact settles_keyword ht rfl hclose.endsStatement hdefine

end Definitions

end IntScript.Grammar
