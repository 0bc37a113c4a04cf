import IntScript.Grammar.Program
import IntScript.Proofs.Grammar.Steps
import IntScript.Proofs.Tree.WellFormed

/-!
# The shape of what parsers give

Whatever the tokens are, the trees that parsers give are well formed over the names and literals of the
tokens ahead. Their errors never ask for a top-level statement: only the end of a program does that.
-/

namespace IntScript.Grammar

def Fault.IsDedent : Fault → Prop
  | .unexpectedToken .topLevelStatement _ => True
  | _ => False

namespace Parser

open IntScript.Action

variable {α β : Type} (V : Vocabulary)

def Covered (t : Token) : Prop :=
  (t.kind = .identifier → V.name t.lexeme) ∧
    (t.kind = .integer → ∀ value, Word.ofDecimal? t.lexeme.toList = some value → V.literal value)

def Ahead (c : Cursor) : Prop := ∀ t ∈ c.ahead, Covered V t

/-- Over covered tokens the values are in `Q`, and the tokens ahead stay covered. -/
def Gives (p : Parser α) (Q : α → Prop) : Prop :=
  Triple (Ahead V) p (fun a c => Q a ∧ Ahead V c) (fun e _ => ¬ e.fault.IsDedent)

variable {V} {p : Parser α} {Q : α → Prop}

theorem Gives.mono {R : α → Prop} (h : Gives V p R) (hQ : ∀ a, R a → Q a) : Gives V p Q := by
  apply Triple.conseq h
  · exact fun _ hc => hc
  · exact fun a c hc => ⟨hQ a hc.1, hc.2⟩
  · exact fun _ _ he => he

theorem Gives.any (h : Gives V p Q) : Gives V p fun _ => True :=
  h.mono fun _ _ => trivial

theorem gives_pure {a : α} (h : Q a) : Gives V (pure a : Parser α) Q :=
  Triple.pure fun _ hc => ⟨h, hc⟩

theorem gives_bind {q : Parser β} {R : β → Prop} {f : β → Parser α} (hq : Gives V q R)
    (hf : ∀ b, R b → Gives V (f b) Q) : Gives V (q >>= f) Q := by
  apply Triple.bind hq
  intro b c hc
  exact hf b hc.1 c hc.2

theorem gives_read (f : Cursor → α) : Gives V (Action.read f) fun _ => True :=
  Triple.read fun _ hc => ⟨trivial, hc⟩

theorem gives_fail {e : SyntaxError} (h : ¬ e.fault.IsDedent) :
    Gives V (Action.fail e : Parser α) Q :=
  Triple.fail fun _ _ => h

theorem gives_failHere {fault : Fault} (h : ¬ fault.IsDedent) :
    Gives V (failHere fault : Parser α) Q := by
  intro c _ r c' hp
  cases hp
  exact h

theorem gives_unexpected {expected : Expectation} (h : expected ≠ .topLevelStatement) :
    Gives V (unexpected expected : Parser α) Q := by
  intro c _ r c' hp
  cases hp
  cases expected <;> first | exact fun hd => hd | exact absurd rfl h

theorem gives_take? (f : Cursor → Token → Option α) :
    Gives V (take? f) fun o => ∀ a, o = some a → ∃ c t, Covered V t ∧ f c t = some a := by
  rintro ⟨previous, _ | ⟨t, ts⟩, finish⟩ hc r c' hp
  · cases hp
    exact ⟨fun a ha => (nomatch ha), hc⟩
  · have ht : Covered V t := hc t (by simp)
    rw [take?] at hp
    dsimp only at hp
    cases hf : f ⟨previous, t :: ts, finish⟩ t with
    | none =>
      rw [hf] at hp
      cases hp
      exact ⟨fun a ha => (nomatch ha), hc⟩
    | some a =>
      rw [hf] at hp
      cases hp
      refine ⟨fun b hb => ?_, fun u hu => hc u (List.mem_cons_of_mem _ hu)⟩
      rw [← hb]
      exact ⟨_, t, ht, hf⟩

theorem gives_accept (kind : TokenKind) : Gives V (accept kind) fun _ => True :=
  gives_bind (gives_take? _) fun _ _ => gives_pure trivial

theorem gives_takeOnLine? (kind : TokenKind) :
    Gives V (takeOnLine? kind) fun o => ∀ t, o = some t → Covered V t ∧ t.kind = kind := by
  apply (gives_take? _).mono
  intro o ho t ht
  obtain ⟨c, u, hu, hf⟩ := ho t ht
  simp only [Option.ite_none_right_eq_some, Option.some.injEq] at hf
  obtain ⟨⟨hkind, -⟩, rfl⟩ := hf
  exact ⟨hu, hkind⟩

theorem gives_expect (kind : TokenKind) {expected : Expectation}
    (h : expected ≠ .topLevelStatement) :
    Gives V (expect kind expected) fun t => Covered V t ∧ t.kind = kind := by
  refine gives_bind (gives_takeOnLine? kind) fun o ho => ?_
  cases o with
  | none => exact gives_unexpected h
  | some t => exact gives_pure (ho t rfl)

theorem gives_takeTarget : Gives V takeTarget fun o => ∀ name, o = some name → V.name name := by
  rintro ⟨previous, _ | ⟨t, _ | ⟨e, ts⟩⟩, finish⟩ hc r c' hp
  · cases hp
    exact ⟨fun a ha => (nomatch ha), hc⟩
  · cases hp
    exact ⟨fun a ha => (nomatch ha), hc⟩
  · rw [takeTarget] at hp
    dsimp only at hp
    split at hp
    next hahead =>
      cases hp
      have hkind : t.kind = .identifier := by
        simp only [Cursor.assignmentAhead, Bool.and_eq_true, decide_eq_true_eq] at hahead
        exact hahead.1.1
      refine ⟨fun name hname => ?_, fun u hu => hc u (by simp [hu])⟩
      cases hname
      exact (hc t (by simp)).1 hkind
    next =>
      cases hp
      exact ⟨fun a ha => (nomatch ha), hc⟩

theorem gives_operandOnLine (h : Gives V p Q) : Gives V (operandOnLine p) Q := by
  refine gives_bind (gives_read _) fun b _ => ?_
  cases b with
  | false => exact h
  | true => exact gives_unexpected (by decide)

theorem gives_commaSeparated (h : Gives V p Q) (n : Nat) :
    Gives V (commaSeparated p n) fun as => ∀ a ∈ as, Q a := by
  induction n with
  | zero => exact Triple.stuck
  | succ n ih =>
    refine gives_bind h fun a ha => gives_bind (gives_accept _) fun b _ => ?_
    cases b with
    | false =>
      apply gives_pure
      simpa using ha
    | true =>
      refine gives_bind ih fun as has => gives_pure ?_
      simpa using ⟨ha, has⟩

theorem gives_untilParen {items : Parser (List α)} {R : List α → Prop} (h : Gives V items R)
    (hnil : R []) (expected : Expectation) (hexpected : expected ≠ .topLevelStatement) :
    Gives V (untilParen items expected) R := by
  have hitems : Gives V (unlessParen items) R := by
    refine gives_bind (gives_read _) fun b _ => ?_
    cases b with
    | false => exact h
    | true => exact gives_pure hnil
  exact gives_bind hitems fun as has => gives_bind (gives_expect _ hexpected) fun _ _ =>
    gives_pure has

section Expressions

variable {operand first nested : Parser Expression}

theorem gives_integerValue {t : Token} (ht : Covered V t) (hkind : t.kind = .integer) :
    Gives V (integerValue t) (Expression.WellFormed V) := by
  rw [integerValue]
  split
  next value hvalue => exact gives_pure (.integer (ht.2 hkind value hvalue))
  next => exact gives_fail fun h => h

theorem gives_variableOrCall (h : Gives V nested (Expression.WellFormed V)) {name : String}
    (hname : V.name name) (n : Nat) :
    Gives V (variableOrCall nested name n) (Expression.WellFormed V) := by
  refine gives_bind (gives_takeOnLine? _) fun o _ => ?_
  cases o with
  | none => exact gives_pure (.var hname)
  | some t =>
    have hargs := gives_untilParen (gives_commaSeparated h n) (by simp) .parenAfterArguments
      (by decide)
    exact gives_bind hargs fun args h => gives_pure (.call hname h)

theorem gives_primary (h : Gives V nested (Expression.WellFormed V)) (n : Nat) :
    Gives V (primary nested n) (Expression.WellFormed V) := by
  refine gives_bind (gives_take? _) fun o ho => ?_
  cases o with
  | none => exact gives_unexpected (by decide)
  | some t =>
    obtain ⟨c, u, hu, hf⟩ := ho t rfl
    simp only [Option.ite_none_right_eq_some, Option.some.injEq] at hf
    obtain ⟨-, rfl⟩ := hf
    dsimp only
    split
    next hkind => exact gives_integerValue hu hkind
    next => exact gives_pure (.text _)
    next hkind => exact gives_variableOrCall h (hu.1 hkind) n
    next =>
      exact gives_bind h fun e he => gives_bind (gives_expect _ (by decide)) fun _ _ =>
        gives_pure he

theorem gives_unaryHere (h : Gives V nested (Expression.WellFormed V)) (n : Nat) :
    Gives V (unaryHere nested n) (Expression.WellFormed V) := by
  induction n with
  | zero => exact Triple.stuck
  | succ n ih =>
    refine gives_bind (gives_accept _) fun b _ => ?_
    cases b with
    | false => exact gives_primary h _
    | true => exact gives_bind (gives_operandOnLine ih) fun e he => gives_pure (.negate he)

theorem gives_chain (level : TokenKind → Option BinaryOperator)
    (hfirst : Gives V first (Expression.WellFormed V))
    (h : Gives V operand (Expression.WellFormed V)) (n : Nat) :
    Gives V (chain level first operand n) (Expression.WellFormed V) := by
  have hfrom (n : Nat) : ∀ left, left.WellFormed V →
      Gives V (chainFrom level operand n left) (Expression.WellFormed V) := by
    induction n with
    | zero => exact fun _ _ => Triple.stuck
    | succ n ih =>
      intro left hleft
      refine gives_bind (gives_take? _).any fun o _ => ?_
      cases o with
      | none => exact gives_pure hleft
      | some op => exact gives_bind h fun right hright => ih _ (.binary op hleft hright)
  exact gives_bind hfirst fun left hleft => hfrom n left hleft

theorem gives_comparison (hfirst : Gives V first (Expression.WellFormed V))
    (h : Gives V operand (Expression.WellFormed V)) (n : Nat) :
    Gives V (comparison first operand n) (Expression.WellFormed V) := by
  have hproduct := gives_chain productOperator? h h n
  have hsum := gives_chain sumOperator? hproduct hproduct n
  have hfirstSum := gives_chain sumOperator? (gives_chain productOperator? hfirst h n) hproduct n
  exact gives_chain comparisonOperator? hfirstSum hsum n

theorem gives_expressionHere (n : Nat) :
    Gives V (expressionHere n) (Expression.WellFormed V) := by
  induction n with
  | zero => exact Triple.stuck
  | succ n ih =>
    have hnested := gives_operandOnLine ih
    have hunary := gives_unaryHere hnested (n + 1)
    refine gives_bind gives_takeTarget fun o ho => ?_
    cases o with
    | none => exact gives_comparison hunary (gives_operandOnLine hunary) _
    | some name => exact gives_bind hnested fun e he => gives_pure (.assign (ho name rfl) he)

theorem gives_expression (n : Nat) : Gives V (expression n) (Expression.WellFormed V) :=
  gives_operandOnLine (gives_expressionHere n)

end Expressions

section Statements

variable {line : Parser Statement}

theorem gives_unlessEnd (h : Gives V p Q) :
    Gives V (unlessEnd p) fun o => ∀ a ∈ o, Q a := by
  refine gives_bind (gives_read _) fun b _ => ?_
  cases b with
  | false =>
    refine gives_bind h fun a ha => gives_pure ?_
    simpa using ha
  | true =>
    apply gives_pure
    simp

theorem gives_linesAt (h : Gives V line (Statement.WellFormed V .line)) (column n : Nat) :
    Gives V (linesAt line column n) fun ss => ∀ s ∈ ss, s.WellFormed V .line := by
  induction n with
  | zero => exact Triple.stuck
  | succ n ih =>
    refine gives_bind (gives_read _) fun fit _ => ?_
    cases fit with
    | behind =>
      apply gives_pure
      simp
    | deeper => exact gives_failHere fun h => h
    | within =>
      refine gives_bind h fun s hs => gives_bind ih fun ss hss => gives_pure ?_
      simpa using ⟨hs, hss⟩

theorem linesAt_ne_nil {c c' : Cursor} {n : Nat} {ss : List Statement} (hend : c.atEnd = false)
    (h : linesAt line c.position.column n c = some (.ok ss, c')) : ss ≠ [] := by
  cases n with
  | zero => cases h
  | succ n =>
    have hread : (Action.read (·.fit c.position.column) : Parser Cursor.Fit) c =
        some (.ok .within, c) := by rw [read_apply, Cursor.fit_position hend]
    rw [linesAt, bind_eq_ok hread] at h
    rcases bind_eq_some_iff.1 h with ⟨e, -, he⟩ | ⟨s, c₁, -, hs⟩
    · cases he
    rcases bind_eq_some_iff.1 hs with ⟨e, -, he⟩ | ⟨rest, c₂, -, hrest⟩
    · cases he
    cases hrest
    simp

theorem gives_indentedBlock (h : Gives V line (Statement.WellFormed V .line))
    (construct : Construct) (header n : Nat) :
    Gives V (indentedBlock line construct header n) (Statement.WellFormed V .body) := by
  intro c hc r c' hp
  rw [indentedBlock, bind_eq_ok (read_apply _ _)] at hp
  split at hp
  next =>
    have hfail : Gives V (failHere (.expectedIndentedBlock construct))
        (Statement.WellFormed V .body) := gives_failHere fun hd => hd
    exact hfail c hc r c' hp
  next hcolumn =>
    have hend : c.atEnd = false := by simp_all
    rw [bind_eq_ok (read_apply _ _)] at hp
    rcases bind_eq_some_iff.1 hp with ⟨e, he, rfl⟩ | ⟨ss, c₁, hss, hpure⟩
    · exact (gives_linesAt h _ _).error hc he
    · cases hpure
      have hlines := (gives_linesAt h _ _).ok hc hss
      exact ⟨.block (linesAt_ne_nil hend hss) hlines.1, hlines.2⟩

theorem gives_body (h : Gives V line (Statement.WellFormed V .line)) (construct : Construct)
    (header n : Nat) : Gives V (body line construct header n) (Statement.WellFormed V .body) := by
  refine gives_bind (gives_takeOnLine? _) fun _ _ => gives_bind (gives_read _) fun b _ => ?_
  cases b with
  | false => exact h.mono fun s hs => .inline hs
  | true => exact gives_indentedBlock h _ _ _

theorem gives_ifStatement (h : Gives V line (Statement.WellFormed V .line)) (header n : Nat) :
    Gives V (ifStatement line header n) (Statement.WellFormed V .line) := by
  refine gives_bind (gives_expression n) fun condition hcondition =>
    gives_bind (gives_body h _ _ _) fun thenBranch hthen =>
      gives_bind (gives_take? _).any fun o _ => ?_
  cases o with
  | none =>
    apply gives_pure
    exact .ifElse hcondition hthen (by simp)
  | some t =>
    refine gives_bind (gives_body h _ _ _) fun elseBranch helse => gives_pure ?_
    exact .ifElse hcondition hthen (by simpa using helse)

theorem gives_parameters (function : String) (n : Nat) (seen : List String) :
    Gives V (parameters function n seen) fun names =>
      (∀ x ∈ names, V.name x ∧ x ∉ seen) ∧ names.Nodup := by
  induction n generalizing seen with
  | zero => exact Triple.stuck
  | succ n ih =>
    refine gives_bind (gives_expect _ (by decide)) fun t ⟨ht, hkind⟩ => ?_
    split
    next => exact gives_fail fun h => h
    next hseen =>
      have hname : V.name t.lexeme ∧ t.lexeme ∉ seen := ⟨ht.1 hkind, by simpa using hseen⟩
      refine gives_bind (gives_accept _) fun b _ => ?_
      cases b with
      | false =>
        apply gives_pure
        simpa using hname
      | true =>
        refine gives_bind (ih (t.lexeme :: seen)) fun names ⟨hnames, hnodup⟩ => gives_pure ?_
        simp only [List.mem_cons, not_or] at hnames
        constructor
        · intro x hx
          rcases List.mem_cons.1 hx with rfl | hx
          · exact hname
          · exact ⟨(hnames x hx).1, (hnames x hx).2.2⟩
        · exact List.nodup_cons.2 ⟨fun hmem => (hnames _ hmem).2.1 rfl, hnodup⟩

theorem gives_defStatement (h : Gives V line (Statement.WellFormed V .line)) (header n : Nat) :
    Gives V (defStatement line header n) (Statement.WellFormed V .line) := by
  refine gives_bind (gives_expect _ (by decide)) fun name ⟨hname, hkind⟩ =>
    gives_bind (gives_expect _ (by decide)) fun _ _ => ?_
  have hnames := gives_untilParen (gives_parameters (V := V) name.lexeme n []) (by simp)
    .parenAfterParameters (by decide)
  refine gives_bind hnames fun names ⟨hmem, hnodup⟩ =>
    gives_bind (gives_body h _ _ _) fun body hbody => gives_pure ?_
  exact .define (hname.1 hkind) (fun x hx => (hmem x hx).1) hnodup hbody

theorem gives_plainStatement (n : Nat) :
    Gives V (plainStatement n) (Statement.WellFormed V .line) := by
  refine gives_bind gives_takeTarget fun o ho => ?_
  cases o with
  | none => exact gives_bind (gives_expressionHere n) fun e he => gives_pure (.expression he)
  | some name =>
    exact gives_bind (gives_expression n) fun e he => gives_pure (.assign (ho name rfl) he)

theorem gives_openStatement (h : Gives V line (Statement.WellFormed V .line)) (n : Nat) :
    Gives V (openStatement line n) (Statement.WellFormed V .line) := by
  refine gives_bind (gives_take? _).any fun o _ => ?_
  cases o with
  | none => exact gives_plainStatement n
  | some t =>
    dsimp only
    split
    next =>
      have hitems := gives_unlessEnd (gives_commaSeparated (gives_expression (V := V) n) n)
      refine gives_bind hitems fun items hitems => gives_pure (.print ?_)
      cases items with
      | none => simp
      | some items => simpa using hitems
    next => exact gives_ifStatement h _ n
    next => exact gives_defStatement h _ n
    next =>
      exact gives_bind (gives_unlessEnd (gives_expression n)) fun value hvalue =>
        gives_pure (.giveBack hvalue)

theorem gives_statement (n : Nat) : Gives V (statement n) (Statement.WellFormed V .line) := by
  induction n with
  | zero => exact Triple.stuck
  | succ n ih =>
    have hend : Gives V endOfStatement fun _ => True := by
      refine gives_bind (gives_read _) fun b _ => ?_
      cases b with
      | false => exact gives_unexpected (by decide)
      | true => exact gives_pure trivial
    exact gives_bind (gives_openStatement ih _) fun s hs => gives_bind hend fun _ _ =>
      gives_pure hs

end Statements

end Parser

end IntScript.Grammar
