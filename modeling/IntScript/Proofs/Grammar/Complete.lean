import IntScript.Proofs.Action.Settles
import IntScript.Proofs.Grammar.Bound
import IntScript.Proofs.Grammar.Derives
import IntScript.Proofs.Grammar.Steps
import Mathlib.Data.List.Chain

/-!
# What derives an expression is read as one

Tokens that derive a tree and do not leave their line are taken whole, and give that tree, if nothing
follows that would go on with them. The chains of binary operators are read from the left as far as they
reach, so for a level the statement is about all that may be read afterwards.
-/

namespace IntScript.Grammar

open IntScript.Action

namespace Level

def below : Level → Parser Expression → Parser Expression → Nat → Parser Expression
  | comparison, first, operand, n => Parser.sum first operand n
  | sum, first, operand, n => Parser.product first operand n
  | product, first, _, _ => first

def reader : Level → Parser Expression → Parser Expression → Nat → Parser Expression
  | comparison => Parser.comparison
  | sum => Parser.sum
  | product => Parser.product

theorem reader_eq (l : Level) (first operand : Parser Expression) (n : Nat) :
    l.reader first operand n = Parser.chain l.operator? (l.below first operand n)
      (l.below operand operand n) n := by
  cases l with
  | comparison => rfl
  | sum => rfl
  | product => rfl

theorem below_le (l : Level) {first first' operand operand' : Parser Expression}
    (hfirst : first ≤ first') (hoperand : operand ≤ operand') {m n : Nat} (hmn : m ≤ n) :
    l.below first operand m ≤ l.below first' operand' n := by
  have hproduct := Parser.chain_le productOperator? hoperand hoperand hmn
  have hfirstProduct := Parser.chain_le productOperator? hfirst hoperand hmn
  cases l with
  | comparison => exact Parser.chain_le sumOperator? hfirstProduct hproduct hmn
  | sum => exact hfirstProduct
  | product => exact hfirst

end Level

namespace Parser

theorem apply_of_settles {α : Type} {p : Nat → Parser α} {k : α → Nat} {c c' : Cursor}
    {r : Except SyntaxError α} (hle : ∀ {m n}, m ≤ n → p m ≤ p n)
    (hp : ∀ {n}, c.size < n → Advances c.size (p n) k) (h : Settles p c r c') {n : Nat}
    (hn : c.size < n) : p n c = some (r, c') := by
  obtain ⟨m, hm⟩ := Filter.eventually_atTop.1 h
  rw [eq_of_bounds hle hp hn (show c.size < m + c.size + 1 by omega)]
  exact hm _ (by omega)

def unary (n : Nat) : Parser Expression := unaryHere (expression n) n

def operand (n : Nat) : Parser Expression := operandOnLine (unary n)

theorem unary_le {m n : Nat} (hmn : m ≤ n) : unary m ≤ unary n :=
  unaryHere_le (expression_le hmn) hmn

theorem operand_le {m n : Nat} (hmn : m ≤ n) : operand m ≤ operand n :=
  operandOnLine_le (unary_le hmn)

end Parser

/-- Tokens that derive this are read as it, when they stand on one line and nothing goes on with them.
For a level that is so for whatever is read next, so that its chain can grow to the left. -/
def Reads : {α : Type} → Nonterminal α → List Token → α → Prop
  | _, .expression, ts, e => ∀ previous rest finish, ts.IsChain Token.Joins →
      (Cursor.mk (lastOf previous ts) rest finish).Stops (Nonterminal.expression.continues) →
      Settles Parser.expressionHere ⟨previous, ts ++ rest, finish⟩ (.ok e)
        ⟨lastOf previous ts, rest, finish⟩
  | _, .level l, ts, e => ∀ (first : Nat → Parser Expression) previous rest finish r c,
      ts.IsChain Token.Joins →
      (∀ n, first n ⟨previous, ts ++ rest, finish⟩ = Parser.unary n ⟨previous, ts ++ rest, finish⟩) →
      (Cursor.mk (lastOf previous ts) rest finish).Stops l.operand.continues →
      Settles (fun n => Parser.chainFrom l.operator? (l.below (Parser.operand n) (Parser.operand n) n) n e)
        ⟨lastOf previous ts, rest, finish⟩ r c →
      Settles (fun n => l.reader (first n) (Parser.operand n) n) ⟨previous, ts ++ rest, finish⟩ r c
  | _, .unary, ts, e => ∀ previous rest finish, ts.IsChain Token.Joins →
      (Cursor.mk (lastOf previous ts) rest finish).Stops (Nonterminal.unary.continues) →
      Settles Parser.unary ⟨previous, ts ++ rest, finish⟩ (.ok e) ⟨lastOf previous ts, rest, finish⟩
  | _, .primary, ts, e => ∀ previous rest finish, ts.IsChain Token.Joins →
      (Cursor.mk (lastOf previous ts) rest finish).Stops (Nonterminal.primary.continues) →
      Settles (fun n => Parser.primary (Parser.expression n) n) ⟨previous, ts ++ rest, finish⟩ (.ok e)
        ⟨lastOf previous ts, rest, finish⟩
  | _, .items, ts, es => ∀ previous rest finish, (previous :: ts).IsChain Token.Joins →
      (Cursor.mk (lastOf previous ts) rest finish).Stops (Nonterminal.expression.continues) →
      (∀ t ∈ rest.head?, t.kind ≠ .comma) →
      Settles (fun n => Parser.commaSeparated (Parser.expression n) n)
        ⟨some previous, ts ++ rest, finish⟩ (.ok es) ⟨lastOf previous ts, rest, finish⟩

variable {α : Type} {ts us rest : List Token} {e : Expression} {finish : Position}

theorem lastOf_joins {p o : Token} (h : (p :: (ts ++ o :: us)).IsChain Token.Joins) :
    ∃ q, lastOf (some p) ts = some q ∧ q.Joins o := by
  induction ts generalizing p with
  | nil => exact ⟨p, rfl, (List.isChain_cons_cons.1 h).1⟩
  | cons t ts ih => exact ih (List.isChain_cons_cons.1 h).2

theorem startsLine_behind {p o : Token} (h : (p :: (ts ++ o :: us)).IsChain Token.Joins) :
    (Cursor.mk (lastOf (some p) ts) (o :: rest) finish).startsLine = false := by
  obtain ⟨q, hq, hjoins⟩ := lastOf_joins h
  rw [hq]
  exact Cursor.startsLine_of_joins hjoins

theorem isChain_left {p : Token} (h : (p :: (ts ++ us)).IsChain Token.Joins) :
    (p :: ts).IsChain Token.Joins := by
  rw [← List.cons_append] at h
  exact h.left_of_append

theorem isChain_right {p : Token} (h : (p :: (ts ++ us)).IsChain Token.Joins) :
    us.IsChain Token.Joins := by
  rw [← List.cons_append] at h
  exact h.right_of_append

theorem settles_chainFrom {level : TokenKind → Option BinaryOperator} {p : Nat → Parser Expression}
    {c : Cursor} (h : c.Stops fun kind => (level kind).isSome) :
    Settles (fun n => Parser.chainFrom level (p n) n e) c (.ok e) c := by
  apply Settles.of_succ
  apply Settles.of_forall
  intro n
  rw [Parser.chainFrom, bind_eq_ok (Parser.takeOperator?_stops h)]
  rfl

theorem reads_below {l : Level} (h : Reads l.operand ts e) (first : Nat → Parser Expression)
    {previous : Option Token} (hline : ts.IsChain Token.Joins)
    (hfirst : ∀ n, first n ⟨previous, ts ++ rest, finish⟩ =
      Parser.unary n ⟨previous, ts ++ rest, finish⟩)
    (hstop : (Cursor.mk (lastOf previous ts) rest finish).Stops l.operand.continues) :
    Settles (fun n => l.below (first n) (Parser.operand n) n) ⟨previous, ts ++ rest, finish⟩ (.ok e)
      ⟨lastOf previous ts, rest, finish⟩ := by
  cases l with
  | comparison =>
    apply h first previous rest finish _ _ hline hfirst
    · exact hstop.mono fun _ => Level.continues_of_operand (l := .sum)
    · exact settles_chainFrom (hstop.mono fun _ => Level.continues_of_operator? (l := .sum))
  | sum =>
    apply h first previous rest finish _ _ hline hfirst
    · exact hstop.mono fun _ => Level.continues_of_operand (l := .product)
    · exact settles_chainFrom (hstop.mono fun _ => Level.continues_of_operator? (l := .product))
  | product => exact (h previous rest finish hline hstop).congr hfirst

theorem reads_operand {l : Level} (h : Reads l.operand ts e) : Reads (.level l) ts e := by
  intro first previous rest finish r c hline hfirst hstop hrest
  have hbelow := reads_below h first hline hfirst hstop
  apply (hbelow.bind hrest).congr
  intro n
  rw [Level.reader_eq]
  rfl

theorem reads_binary {l : Level} {o : Token} {op : BinaryOperator} {left right : Expression}
    (hleft : Reads (.level l) ts left) (ho : l.operator? o.kind = some op)
    (hright : Reads l.operand us right) (hts : ts ≠ []) (hus : us ≠ []) :
    Reads (.level l) (ts ++ o :: us) (.binary op left right) := by
  obtain ⟨t, ts, rfl⟩ := List.exists_cons_of_ne_nil hts
  obtain ⟨u, us, rfl⟩ := List.exists_cons_of_ne_nil hus
  intro first previous rest finish r c hline hfirst hstop hrest
  have hoperator : (Cursor.mk (lastOf (some t) ts) (o :: u :: us ++ rest) finish).startsLine = false :=
    startsLine_behind hline
  have htail : (o :: u :: us).IsChain Token.Joins := isChain_right hline
  have hoperand : (Cursor.mk (some o) (u :: us ++ rest) finish).startsLine = false :=
    Cursor.startsLine_of_joins (List.isChain_cons_cons.1 htail).1
  rw [lastOf_append] at hstop hrest
  have hbelow := reads_below hright Parser.operand htail.tail
    (fun n => Parser.operandOnLine_apply hoperand) hstop
  rw [List.append_assoc] at hfirst ⊢
  apply hleft first previous _ finish r c (isChain_left hline) hfirst
  · exact Cursor.stops_cons (Level.not_continues_operand ho)
  · apply Settles.of_succ
    have hgrown := hrest.mono (q := fun n => Parser.chainFrom l.operator?
      (l.below (Parser.operand (n + 1)) (Parser.operand (n + 1)) (n + 1)) n
      (.binary op left right)) fun n => Parser.chainFrom_le _
        (l.below_le (Parser.operand_le n.le_succ) (Parser.operand_le n.le_succ) n.le_succ) le_rfl _
    have hboth := hbelow.succ.bind (f := fun n right => Parser.chainFrom l.operator?
      (l.below (Parser.operand (n + 1)) (Parser.operand (n + 1)) (n + 1)) n
      (.binary op left right)) hgrown
    exact Settles.bind (.of_forall fun n => Parser.takeOperator?_apply ho hoperator) hboth

theorem assignmentAhead_eq_false {previous : Option Token} (htarget : NoTarget ts) (hts : ts ≠ [])
    (hstop : (Cursor.mk (lastOf previous ts) rest finish).Stops Nonterminal.expression.continues) :
    (Cursor.mk previous (ts ++ rest) finish).assignmentAhead = false := by
  have hand (t s : Token) (us : List Token) : (Cursor.mk previous (t :: s :: us) finish).assignmentAhead
      = (t.kind = .identifier && s.kind = .assign && s.span.line = t.span.endLine) := rfl
  match ts, rest with
  | [t], [] => rfl
  | [t], s :: rest =>
    by_cases hs : s.kind = .assign ∧ s.span.line = t.span.endLine
    · have hno := hstop s rfl (Cursor.startsLine_of_joins hs.2)
      rw [hs.1] at hno
      exact absurd hno (by decide)
    · rw [List.singleton_append, hand]
      rw [not_and] at hs
      simpa using fun _ => hs
  | t :: s :: ts, rest =>
    have hs := htarget t s ts rfl
    rw [List.cons_append, List.cons_append, hand]
    simpa using fun ht hassign => absurd hassign (hs ht)

theorem reads_expression (h : Reads (.level .comparison) ts e) (hts : ts ≠ [])
    (htarget : NoTarget ts) : Reads .expression ts e := by
  intro previous rest finish hline hstop
  have hahead := assignmentAhead_eq_false htarget hts hstop
  have hcontinues : ∀ kind, Level.comparison.continues kind = true →
      Nonterminal.expression.continues kind = true := by
    intro kind hkind
    simp [Nonterminal.continues, hkind]
  have hcomparison := h Parser.unary previous rest finish _ _ hline (fun _ => rfl)
    (hstop.mono fun kind hkind => hcontinues _ (Level.continues_of_operand (l := .comparison) hkind))
    (settles_chainFrom (hstop.mono fun kind hkind =>
      hcontinues _ (Level.continues_of_operator? (l := .comparison) hkind)))
  have hgrown := hcomparison.mono (q := fun n =>
    Parser.comparison (Parser.unaryHere (Parser.expression n) (n + 1))
      (Parser.operandOnLine (Parser.unaryHere (Parser.expression n) (n + 1))) (n + 1)) fun n => by
    have hunary := Parser.unaryHere_le (p := Parser.expression n) le_rfl n.le_succ
    exact Parser.comparison_le hunary (Parser.operandOnLine_le hunary) n.le_succ
  apply Settles.of_succ
  exact Settles.bind (.of_forall fun n => Parser.takeTarget_apply hahead) hgrown

theorem reads_nested {p : Token} (h : Reads .expression ts e) (hts : ts ≠ [])
    (hline : (p :: ts).IsChain Token.Joins)
    (hstop : (Cursor.mk (lastOf (some p) ts) rest finish).Stops Nonterminal.expression.continues) :
    Settles Parser.expression ⟨some p, ts ++ rest, finish⟩ (.ok e)
      ⟨lastOf (some p) ts, rest, finish⟩ := by
  obtain ⟨t, ts, rfl⟩ := List.exists_cons_of_ne_nil hts
  have hfirst : (Cursor.mk (some p) (t :: ts ++ rest) finish).startsLine = false :=
    Cursor.startsLine_of_joins (List.isChain_cons_cons.1 hline).1
  apply (h (some p) rest finish hline.tail hstop).congr
  intro n
  exact Parser.operandOnLine_apply hfirst

theorem reads_assign {t s : Token} (ht : t.kind = .identifier) (hs : s.kind = .assign)
    (h : Reads .expression ts e) (hts : ts ≠ []) :
    Reads .expression (t :: s :: ts) (.assign t.lexeme e) := by
  intro previous rest finish hline hstop
  have hjoins : s.span.line = t.span.endLine := (List.isChain_cons_cons.1 hline).1
  have htarget : Parser.takeTarget ⟨previous, t :: s :: ts ++ rest, finish⟩ =
      some (.ok (some t.lexeme), ⟨some s, ts ++ rest, finish⟩) := by
    simp [Parser.takeTarget, Cursor.assignmentAhead, ht, hs, hjoins]
  have hvalue := reads_nested h hts hline.tail hstop
  apply Settles.of_succ
  exact Settles.bind (.of_forall fun n => htarget) (hvalue.bind (.pure _))

theorem reads_unary (h : Reads .primary ts e) (hhead : ∀ t ∈ ts.head?, t.kind ≠ .minus)
    (hts : ts ≠ []) : Reads .unary ts e := by
  intro previous rest finish hline hstop
  have hminus : ∀ t ∈ (ts ++ rest).head?, t.kind ≠ .minus := by
    rw [List.head?_append_of_ne_nil _ hts]
    exact hhead
  have hprimary := h previous rest finish hline hstop
  apply Settles.of_succ
  exact Settles.bind (.of_forall fun n => Parser.accept_none hminus) hprimary.succ

theorem reads_negate {t : Token} (ht : t.kind = .minus) (h : Reads .unary ts e) (hts : ts ≠ []) :
    Reads .unary (t :: ts) (.negate e) := by
  obtain ⟨u, ts, rfl⟩ := List.exists_cons_of_ne_nil hts
  intro previous rest finish hline hstop
  have hfirst : (Cursor.mk (some t) (u :: ts ++ rest) finish).startsLine = false :=
    Cursor.startsLine_of_joins (List.isChain_cons_cons.1 hline).1
  have hoperand := h (some t) rest finish hline.tail hstop
  have hgrown := hoperand.mono (q := fun n => Parser.unaryHere (Parser.expression (n + 1)) n)
    fun n => Parser.unaryHere_le (Parser.expression_le n.le_succ) le_rfl
  have honLine := hgrown.congr (q := fun n =>
    Parser.operandOnLine (Parser.unaryHere (Parser.expression (n + 1)) n))
    fun n => Parser.operandOnLine_apply hfirst
  apply Settles.of_succ
  exact Settles.bind (.of_forall fun n => Parser.accept_apply ht) (honLine.bind (.pure _))

theorem reads_integer {t : Token} {value : Word} (ht : t.kind = .integer)
    (hvalue : Word.ofDecimal? t.lexeme.toList = some value) :
    Reads .primary [t] (.integer value) := by
  intro previous rest finish hline hstop
  apply Settles.of_forall
  intro n
  rw [List.singleton_append, Parser.primary_apply (by rw [ht]; rfl), ht]
  dsimp only
  rw [Parser.integerValue, hvalue]
  rfl

theorem reads_text {t : Token} (ht : t.kind = .string) : Reads .primary [t] (.text t.lexeme) := by
  intro previous rest finish hline hstop
  apply Settles.of_forall
  intro n
  rw [List.singleton_append, Parser.primary_apply (by rw [ht]; rfl), ht]
  rfl

theorem reads_var {t : Token} (ht : t.kind = .identifier) :
    Reads .primary [t] (.var t.lexeme) := by
  intro previous rest finish hline hstop
  have hnone : Parser.takeOnLine? .lparen ⟨some t, rest, finish⟩ =
      some (.ok none, ⟨some t, rest, finish⟩) := Parser.takeOnLine?_stops hstop
  apply Settles.of_forall
  intro n
  rw [List.singleton_append, Parser.primary_apply (by rw [ht]; rfl), ht]
  exact bind_eq_ok hnone

theorem settles_call {t o : Token} {args : List Expression} {previous : Option Token} {c : Cursor}
    (ht : t.kind = .identifier) (ho : o.kind = .lparen) (hjoins : t.Joins o)
    (h : Settles (fun n => Parser.untilParen (Parser.commaSeparated (Parser.expression n) n)
      .parenAfterArguments) ⟨some o, rest, finish⟩ (.ok args) c) :
    Settles (fun n => Parser.primary (Parser.expression n) n) ⟨previous, t :: o :: rest, finish⟩
      (.ok (.call t.lexeme args)) c := by
  have hopen : Parser.takeOnLine? .lparen ⟨some t, o :: rest, finish⟩ =
      some (.ok (some o), ⟨some o, rest, finish⟩) :=
    Parser.takeOnLine?_apply ho (Cursor.startsLine_of_joins hjoins)
  have hcall := h.bind (f := fun _ args => pure (Expression.call t.lexeme args)) (.pure _)
  have hrest : Settles (fun n => Parser.variableOrCall (Parser.expression n) t.lexeme n)
      ⟨some t, o :: rest, finish⟩ (.ok (.call t.lexeme args)) c :=
    Settles.bind (.of_forall fun _ => hopen) hcall
  apply hrest.congr
  intro n
  rw [Parser.primary_apply (by rw [ht]; rfl), ht]

theorem settles_untilParen {α : Type} {items : Nat → Parser (List α)} {found : List α}
    {expected : Expectation} {c : Cursor} {previous : Option Token} {t : Token}
    (h : Settles (fun n => Parser.unlessParen (items n)) c (.ok found) ⟨previous, t :: rest, finish⟩)
    (ht : t.kind = .rparen) (hline : (Cursor.mk previous (t :: rest) finish).startsLine = false) :
    Settles (fun n => Parser.untilParen (items n) expected) c (.ok found)
      ⟨some t, rest, finish⟩ := by
  apply h.bind
  exact Settles.bind (.of_forall fun _ => Parser.expect_apply ht hline) (.pure _)

theorem reads_callEmpty {t o c : Token} (ht : t.kind = .identifier) (ho : o.kind = .lparen)
    (hc : c.kind = .rparen) : Reads .primary [t, o, c] (.call t.lexeme []) := by
  intro previous rest finish hline hstop
  obtain ⟨hopen, hline⟩ := List.isChain_cons_cons.1 hline
  obtain ⟨hclose, -⟩ := List.isChain_cons_cons.1 hline
  apply settles_call ht ho hopen
  apply settles_untilParen _ hc (Cursor.startsLine_of_joins hclose)
  apply Settles.of_forall
  intro n
  simp [Parser.unlessParen, bind_apply, Cursor.nextIs, hc]

theorem reads_call {t o c : Token} {args : List Expression} (ht : t.kind = .identifier)
    (ho : o.kind = .lparen) (hargs : Reads .items ts args) (hc : c.kind = .rparen)
    (hhead : ∃ u us, ts = u :: us ∧ u.kind ≠ .rparen) :
    Reads .primary (t :: o :: (ts ++ [c])) (.call t.lexeme args) := by
  intro previous rest finish hline hstop
  obtain ⟨hopen, hline⟩ := List.isChain_cons_cons.1 hline
  have hclose : (Cursor.mk (lastOf (some o) ts) (c :: rest) finish).startsLine = false :=
    startsLine_behind hline
  have hcomma : ∀ u ∈ (c :: rest).head?, u.kind ≠ .comma := by
    intro u hu
    cases hu
    rw [hc]
    decide
  have hitems := hargs o (c :: rest) finish (isChain_left hline)
    (Cursor.stops_cons (by rw [hc]; rfl)) hcomma
  have hparen : (Cursor.mk (some o) (ts ++ (c :: rest)) finish).nextIs .rparen = false := by
    obtain ⟨u, us, rfl, hu⟩ := hhead
    simpa [Cursor.nextIs] using hu
  rw [List.cons_append, List.cons_append, List.append_assoc, List.singleton_append]
  apply settles_call ht ho hopen
  rw [lastOf, lastOf, lastOf_append]
  apply settles_untilParen _ hc hclose
  apply hitems.congr
  intro n
  rw [Parser.unlessParen, bind_eq_ok (read_apply _ _), hparen]
  rfl

theorem reads_parens {o c : Token} (ho : o.kind = .lparen) (h : Reads .expression ts e)
    (hts : ts ≠ []) (hc : c.kind = .rparen) : Reads .primary (o :: (ts ++ [c])) e := by
  intro previous rest finish hline hstop
  have hclose : (Cursor.mk (lastOf (some o) ts) (c :: rest) finish).startsLine = false :=
    startsLine_behind hline
  have hend : (Cursor.mk (lastOf (some o) ts) (c :: rest) finish).Stops
      Nonterminal.expression.continues := Cursor.stops_cons (by rw [hc]; rfl)
  have hnested := reads_nested h hts (isChain_left hline) hend
  have hboth := hnested.bind (f := fun _ e => do
    let _ ← Parser.expect .rparen .parenAfterExpression
    return e) (Settles.bind (.of_forall fun _ => Parser.expect_apply hc hclose) (.pure _))
  rw [List.cons_append, List.append_assoc, lastOf, lastOf_append]
  apply hboth.congr
  intro n
  rw [Parser.primary_apply (by rw [ho]; rfl), ho]
  rfl

theorem reads_item (h : Reads .expression ts e) (hts : ts ≠ []) : Reads .items ts [e] := by
  intro previous rest finish hline hstop hcomma
  have hnested := reads_nested h hts hline hstop
  apply Settles.of_succ
  exact hnested.succ.bind (Settles.bind (.of_forall fun _ => Parser.accept_none hcomma) (.pure _))

theorem reads_items {c : Token} {es : List Expression} (h : Reads .expression ts e) (hts : ts ≠ [])
    (hc : c.kind = .comma) (hes : Reads .items us es) : Reads .items (ts ++ c :: us) (e :: es) := by
  intro previous rest finish hline hstop hcomma
  have hend : (Cursor.mk (lastOf (some previous) ts) (c :: us ++ rest) finish).Stops
      Nonterminal.expression.continues := Cursor.stops_cons (by rw [hc]; rfl)
  have hnested := reads_nested h hts (isChain_left hline) hend
  rw [lastOf_append] at hstop ⊢
  have htail : (c :: us).IsChain Token.Joins := isChain_right hline
  have hrest := hes c rest finish htail hstop hcomma
  have hgrown := hrest.mono (q := fun n =>
    Parser.commaSeparated (Parser.expression (n + 1)) n) fun n =>
    Parser.commaSeparated_le (Parser.expression_le n.le_succ) le_rfl
  rw [List.append_assoc]
  apply Settles.of_succ
  exact hnested.succ.bind (Settles.bind (.of_forall fun _ => Parser.accept_apply hc)
    (hgrown.bind (.pure _)))

theorem reads_of_derives {N : Nonterminal α} {a : α} (h : Derives N ts a) : Reads N ts a := by
  have hne {β : Type} {M : Nonterminal β} {us : List Token} {b : β} (hM : Derives M us b) :
      us ≠ [] := by
    obtain ⟨t, vs, rfl, -⟩ := derives_head hM
    exact List.cons_ne_nil t vs
  induction h with
  | assign ht hs he ih => exact reads_assign ht hs ih (hne he)
  | expression h ih => exact reads_expression ih (hne h) (noTarget_of_derives h trivial)
  | binary hleft ho hright ihleft ihright =>
    exact reads_binary ihleft ho ihright (hne hleft) (hne hright)
  | operand _ ih => exact reads_operand ih
  | negate ht he ih => exact reads_negate ht ih (hne he)
  | unary h ih =>
    obtain ⟨t, us, rfl, ht⟩ := derives_head h
    apply reads_unary ih _ (List.cons_ne_nil t us)
    intro u hu hminus
    cases hu
    rw [hminus] at ht
    cases ht
  | integer ht hvalue => exact reads_integer ht hvalue
  | text ht => exact reads_text ht
  | var ht => exact reads_var ht
  | callEmpty ht ho hc => exact reads_callEmpty ht ho hc
  | call ht ho hargs hc ih =>
    obtain ⟨u, us, rfl, hu⟩ := derives_head hargs
    apply reads_call ht ho ih hc
    refine ⟨u, us, rfl, fun hparen => ?_⟩
    rw [hparen] at hu
    cases hu
  | parens ho he hc ih => exact reads_parens ho ih (hne he) hc
  | item h ih => exact reads_item ih (hne h)
  | items he hc _ ih ihrest => exact reads_items ih (hne he) hc ihrest

end IntScript.Grammar
