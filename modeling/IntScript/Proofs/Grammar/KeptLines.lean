import IntScript.Proofs.Grammar.Taken

/-!
# Keeping to the line

Whether it gives a value or fails, what reads a part of a statement has moved on over tokens that go on with
the line. Where a statement begins, the first token may begin a line.
-/

namespace IntScript.Grammar

open IntScript.Action

namespace Parser

variable {α β : Type} {p q : Parser α} {c : Cursor} {t : Token}

/-- Whatever the answer at the cursor, the tokens up to where it leaves off go on with the line. -/
def KeepsLine (p : Parser α) (c : Cursor) : Prop :=
  ∀ r c', p c = some (r, c') → ∃ ts, c.Passes ts c' ∧ OnLine c.previous ts

def OwnsLine (p : Parser α) (c : Cursor) : Prop :=
  ∀ r c', p c = some (r, c') → ∃ ts, c.Passes ts c' ∧ OwnLine ts

theorem KeepsLine.takes (h : KeepsLine p c) : Takes p c fun ts _ => OnLine c.previous ts :=
  fun a c' hp => h (.ok a) c' hp

theorem OwnsLine.takes (h : OwnsLine p c) : Takes p c fun ts _ => OwnLine ts :=
  fun a c' hp => h (.ok a) c' hp

theorem KeepsLine.owns (h : KeepsLine p c) : OwnsLine p c := by
  intro r c' hp
  obtain ⟨ts, hpass, hline⟩ := h r c' hp
  exact ⟨ts, hpass, hline.ownLine⟩

theorem keepsLine_pure (a : α) : KeepsLine (pure a) c := by
  intro r c' hp
  cases hp
  exact ⟨[], .refl c, trivial⟩

theorem keepsLine_stuck : KeepsLine (stuck : Parser α) c := by
  intro r c' hp
  cases hp

theorem keepsLine_fail (e : SyntaxError) : KeepsLine (fail e : Parser α) c := by
  intro r c' hp
  cases hp
  exact ⟨[], .refl c, trivial⟩

theorem keepsLine_failHere (fault : Fault) : KeepsLine (failHere fault : Parser α) c :=
  keepsLine_fail ⟨fault, c.position⟩

theorem keepsLine_unexpected (expected : Expectation) : KeepsLine (unexpected expected : Parser α) c :=
  keepsLine_failHere (.unexpectedToken expected c.found)

theorem keepsLine_read (f : Cursor → α) : KeepsLine (Action.read f) c := by
  intro r c' hp
  cases hp
  exact ⟨[], .refl c, trivial⟩

theorem KeepsLine.bind {q : Parser β} {f : β → Parser α} (hq : KeepsLine q c)
    (hf : ∀ b c', q c = some (.ok b, c') → KeepsLine (f b) c') : KeepsLine (q >>= f) c := by
  intro r c'' hp
  rcases bind_eq_some_iff.1 hp with ⟨e, he, -⟩ | ⟨b, c', hb, hr⟩
  · exact hq _ c'' he
  · obtain ⟨ts, hpass, hline⟩ := hq _ c' hb
    obtain ⟨us, hpass', hline'⟩ := hf b c' hb r c'' hr
    rw [hpass.previous] at hline'
    exact ⟨ts ++ us, hpass.trans hpass', hline.append hline'⟩

theorem OwnsLine.bind {q : Parser β} {f : β → Parser α} (hq : OwnsLine q c)
    (hf : ∀ b c', q c = some (.ok b, c') → KeepsLine (f b) c') : OwnsLine (q >>= f) c := by
  intro r c'' hp
  rcases bind_eq_some_iff.1 hp with ⟨e, he, -⟩ | ⟨b, c', hb, hr⟩
  · exact hq _ c'' he
  · obtain ⟨ts, hpass, howns⟩ := hq _ c' hb
    obtain ⟨us, hpass', hline⟩ := hf b c' hb r c'' hr
    rw [hpass.previous] at hline
    refine ⟨ts ++ us, hpass.trans hpass', ?_⟩
    by_cases hnil : ts = []
    · subst hnil
      exact hline.ownLine
    · exact howns.append hnil hline

theorem keepsLine_read_bind {g : Cursor → β} {f : β → Parser α} (h : KeepsLine (f (g c)) c) :
    KeepsLine (Action.read g >>= f) c :=
  (keepsLine_read g).bind fun b c' hread => by
    cases hread
    exact h

theorem take?_eq_some {f : Cursor → Token → Option α} {r : Except SyntaxError (Option α)} {c' : Cursor}
    (h : take? f c = some (r, c')) : c' = c ∧ r = .ok none ∨
      ∃ t ts a, c.ahead = t :: ts ∧ f c t = some a ∧ c' = ⟨some t, ts, c.finish⟩ ∧ r = .ok (some a) := by
  obtain ⟨previous, _ | ⟨t, ts⟩, finish⟩ := c
  · cases h
    exact .inl ⟨rfl, rfl⟩
  · rw [take?] at h
    dsimp only at h
    split at h
    next =>
      cases h
      exact .inl ⟨rfl, rfl⟩
    next a ha =>
      cases h
      exact .inr ⟨t, ts, a, rfl, ha, rfl, rfl⟩

theorem keepsLine_take? {f : Cursor → Token → Option α}
    (h : ∀ t ts a, c.ahead = t :: ts → f c t = some a → OnLine c.previous [t]) :
    KeepsLine (take? f) c := by
  intro r c' hp
  obtain ⟨rfl, -⟩ | ⟨t, ts, a, hahead, ha, rfl, -⟩ := take?_eq_some hp
  · exact ⟨[], .refl _, trivial⟩
  · exact ⟨[t], ⟨hahead, rfl, rfl⟩, h t ts a hahead ha⟩

theorem ownsLine_take? (f : Cursor → Token → Option α) : OwnsLine (take? f) c := by
  intro r c' hp
  obtain ⟨rfl, -⟩ | ⟨t, ts, a, hahead, -, rfl, -⟩ := take?_eq_some hp
  · exact ⟨[], .refl _, nofun⟩
  · refine ⟨[t], ⟨hahead, rfl, rfl⟩, ?_⟩
    rintro u us heq
    cases heq
    trivial

theorem ownsLine_target {f : Option String → Parser α} (h : c.assignmentAhead = true)
    (hf : ∀ name c', KeepsLine (f (some name)) c') : OwnsLine (takeTarget >>= f) c := by
  obtain ⟨t, e, d, hpass⟩ := exists_target h
  have howns : OwnLine [t, e] := by
    obtain ⟨previous, ahead, finish⟩ := c
    obtain rfl : ahead = t :: e :: d.ahead := hpass.ahead
    simp only [Cursor.assignmentAhead, Bool.and_eq_true, decide_eq_true_eq] at h
    rintro u us heq
    cases heq
    exact ⟨.inl (Nat.le_of_eq h.2), trivial⟩
  intro r c' hp
  rw [bind_eq_ok (takeTarget_passes hpass h)] at hp
  obtain ⟨us, hpass', hline⟩ := hf t.lexeme d r c' hp
  rw [hpass.previous] at hline
  exact ⟨[t, e] ++ us, hpass.trans hpass', howns.append (List.cons_ne_nil t [e]) hline⟩

theorem onLine_of_startsLine {ts : List Token} (hline : c.startsLine = false)
    (hahead : c.ahead = t :: ts) : OnLine c.previous [t] := by
  obtain ⟨p, hprevious, hgoes⟩ := c.goesOn_of_startsLine hline hahead
  rw [hprevious]
  exact ⟨hgoes, trivial⟩

theorem keepsLine_takeOnLine? (kind : TokenKind) : KeepsLine (takeOnLine? kind) c := by
  refine keepsLine_take? fun t ts u hahead hu => onLine_of_startsLine ?_ hahead
  exact (Option.ite_none_right_eq_some.1 hu).1.2

theorem keepsLine_expect (kind : TokenKind) (expected : Expectation) :
    KeepsLine (expect kind expected) c := by
  refine (keepsLine_takeOnLine? kind).bind fun o c' _ => ?_
  cases o with
  | none => exact keepsLine_unexpected _
  | some t => exact keepsLine_pure t

theorem keepsLine_takeOperator? (level : TokenKind → Option BinaryOperator) :
    KeepsLine (takeOperator? level) c := by
  refine keepsLine_take? fun t ts op hahead hop => onLine_of_startsLine ?_ hahead
  exact Bool.eq_false_iff.2 (Option.ite_none_left_eq_some.1 hop).1

theorem keepsLine_accept_comma (h : c.previous = some t) : KeepsLine (accept .comma) c := by
  refine KeepsLine.bind (keepsLine_take? fun u us v _ hv => ?_) fun o c' _ => keepsLine_pure _
  rw [h]
  exact ⟨.inr (Option.ite_none_right_eq_some.1 hv).1, trivial⟩

theorem keepsLine_operandOnLine (h : OwnsLine p c) : KeepsLine (operandOnLine p) c := by
  apply keepsLine_read_bind
  cases hline : c.startsLine with
  | true => exact keepsLine_unexpected _
  | false =>
    intro r c' hp
    obtain ⟨ts, hpass, howns⟩ := h r c' hp
    refine ⟨ts, hpass, ?_⟩
    cases ts with
    | nil => trivial
    | cons t ts =>
      obtain ⟨p, hprevious, hgoes⟩ := c.goesOn_of_startsLine hline hpass.ahead
      rw [hprevious]
      exact ⟨hgoes, howns t ts rfl⟩

section Expressions

variable {nested operand : Parser Expression}

theorem exists_previous {N : Nonterminal α} (h : ReadsOff N p) {a : α} {c' : Cursor}
    (hp : p c = some (.ok a, c')) : ∃ t, c'.previous = some t := by
  -- Behind an item stands its last token.
  obtain ⟨ts, hpass, hderives, -⟩ := h c a c' hp
  obtain ⟨t, us, rfl, -⟩ := derives_head hderives
  rw [hpass.previous, lastOf_cons_eq_getLast]
  exact ⟨_, rfl⟩

theorem keepsLine_commaSeparated (hreads : ReadsOff .expression operand)
    (h : ∀ c, KeepsLine operand c) (n : Nat) : KeepsLine (commaSeparated operand n) c := by
  induction n generalizing c with
  | zero => exact keepsLine_stuck
  | succ n ih =>
    refine (h c).bind fun e c₁ he => ?_
    obtain ⟨t, ht⟩ := exists_previous hreads he
    refine (keepsLine_accept_comma ht).bind fun more c₂ _ => ?_
    cases more with
    | false => exact keepsLine_pure _
    | true => exact ih.bind fun es c₃ _ => keepsLine_pure _

theorem keepsLine_untilParen {items : Parser (List α)} (h : KeepsLine items c)
    (expected : Expectation) : KeepsLine (untilParen items expected) c := by
  have hitems : KeepsLine (unlessParen items) c := by
    apply keepsLine_read_bind
    split
    · exact keepsLine_pure _
    · exact h
  refine hitems.bind fun found c₁ _ => ?_
  exact (keepsLine_expect _ _).bind fun _ c₂ _ => keepsLine_pure _

theorem keepsLine_variableOrCall (hreads : ReadsOff .expression nested)
    (h : ∀ c, KeepsLine nested c) (name : String) (n : Nat) :
    KeepsLine (variableOrCall nested name n) c := by
  refine (keepsLine_takeOnLine? _).bind fun o c₁ _ => ?_
  cases o with
  | none => exact keepsLine_pure _
  | some t =>
    exact (keepsLine_untilParen (keepsLine_commaSeparated hreads h n) _).bind fun args c₂ _ =>
      keepsLine_pure _

theorem ownsLine_primary (hreads : ReadsOff .expression nested) (h : ∀ c, KeepsLine nested c)
    (n : Nat) : OwnsLine (primary nested n) c := by
  refine (ownsLine_take? _).bind fun o c₁ _ => ?_
  cases o with
  | none => exact keepsLine_unexpected _
  | some t =>
    dsimp only
    split
    · unfold integerValue
      split
      · exact keepsLine_pure _
      · exact keepsLine_fail _
    · exact keepsLine_pure _
    · exact keepsLine_variableOrCall hreads h _ n
    · exact (h c₁).bind fun e c₂ _ => (keepsLine_expect _ _).bind fun _ c₃ _ => keepsLine_pure _

theorem ownsLine_unaryHere (hreads : ReadsOff .expression nested) (h : ∀ c, KeepsLine nested c)
    (n : Nat) : OwnsLine (unaryHere nested n) c := by
  induction n generalizing c with
  | zero => exact keepsLine_stuck.owns
  | succ n ih =>
    by_cases hminus : ∀ t ∈ c.ahead.head?, t.kind ≠ .minus
    · have hplain : unaryHere nested (n + 1) c = primary nested (n + 1) c := by
        rw [unaryHere, bind_eq_ok (accept_none hminus)]
        rfl
      intro r c' hp
      rw [hplain] at hp
      exact ownsLine_primary hreads h (n + 1) r c' hp
    · obtain ⟨previous, _ | ⟨t, ts⟩, finish⟩ := c
      · exact absurd nofun hminus
      · have hkind : t.kind = .minus := by simpa using hminus
        have haccept : OwnsLine (accept .minus) ⟨previous, t :: ts, finish⟩ :=
          (ownsLine_take? _).bind fun o c' _ => keepsLine_pure _
        refine haccept.bind fun negative c₁ hnegative => ?_
        rw [accept_apply hkind] at hnegative
        cases hnegative
        exact (keepsLine_operandOnLine ih).bind fun e c₂ _ => keepsLine_pure _

theorem keepsLine_chainFrom (level : TokenKind → Option BinaryOperator)
    (h : ∀ c, KeepsLine operand c) (n : Nat) (left : Expression) :
    KeepsLine (chainFrom level operand n left) c := by
  induction n generalizing c left with
  | zero => exact keepsLine_stuck
  | succ n ih =>
    refine (keepsLine_takeOperator? level).bind fun o c₁ _ => ?_
    cases o with
    | none => exact keepsLine_pure _
    | some op => exact (h c₁).bind fun right c₂ _ => ih _

theorem keepsLine_chain (level : TokenKind → Option BinaryOperator) {first : Parser Expression}
    (hfirst : KeepsLine first c) (h : ∀ c, KeepsLine operand c) (n : Nat) :
    KeepsLine (chain level first operand n) c :=
  hfirst.bind fun left _ _ => keepsLine_chainFrom level h n left

theorem ownsLine_chain (level : TokenKind → Option BinaryOperator) {first : Parser Expression}
    (hfirst : OwnsLine first c) (h : ∀ c, KeepsLine operand c) (n : Nat) :
    OwnsLine (chain level first operand n) c :=
  hfirst.bind fun left _ _ => keepsLine_chainFrom level h n left

theorem ownsLine_comparison {first : Parser Expression} (hfirst : OwnsLine first c)
    (h : ∀ c, KeepsLine operand c) (n : Nat) : OwnsLine (comparison first operand n) c := by
  have hproduct (c : Cursor) : KeepsLine (product operand operand n) c :=
    keepsLine_chain _ (h c) h n
  have hsum (c : Cursor) : KeepsLine (sum operand operand n) c :=
    keepsLine_chain _ (hproduct c) hproduct n
  exact ownsLine_chain _ (ownsLine_chain _ (ownsLine_chain _ hfirst h n) hproduct n) hsum n

theorem ownsLine_expressionHere (n : Nat) : OwnsLine (expressionHere n) c := by
  induction n generalizing c with
  | zero => exact keepsLine_stuck.owns
  | succ n ih =>
    have hreads := readsOff_operandOnLine (readsOffHere_expressionHere n)
    have hnested (c : Cursor) : KeepsLine (operandOnLine (expressionHere n)) c :=
      keepsLine_operandOnLine ih
    have hunary (c : Cursor) : OwnsLine (unaryHere (operandOnLine (expressionHere n)) (n + 1)) c :=
      ownsLine_unaryHere hreads hnested (n + 1)
    cases htarget : c.assignmentAhead with
    | false =>
      intro r c' hp
      rw [expressionHere, bind_eq_ok (takeTarget_apply htarget)] at hp
      exact ownsLine_comparison (hunary c) (fun c => keepsLine_operandOnLine (hunary c)) (n + 1) r c' hp
    | true =>
      exact ownsLine_target htarget fun name d =>
        (hnested d).bind fun e c₁ _ => keepsLine_pure _

theorem keepsLine_expression (n : Nat) : KeepsLine (expression n) c :=
  keepsLine_operandOnLine (ownsLine_expressionHere n)

end Expressions

section Statements

theorem keepsLine_parameters (function : String) (n : Nat) (seen : List String) :
    KeepsLine (parameters function n seen) c := by
  induction n generalizing c seen with
  | zero => exact keepsLine_stuck
  | succ n ih =>
    refine (keepsLine_expect _ _).bind fun t c₁ ht => ?_
    split
    · exact keepsLine_fail _
    · obtain ⟨ts, hpass, rfl, -⟩ := takes_expect _ _ t c₁ ht
      refine (keepsLine_accept_comma hpass.previous).bind fun more c₂ _ => ?_
      cases more with
      | false => exact keepsLine_pure _
      | true => exact (ih _).bind fun names c₃ _ => keepsLine_pure _

theorem keepsLine_parameterList (function : String) (n : Nat) :
    KeepsLine (untilParen (parameters function n []) .parenAfterParameters) c :=
  keepsLine_untilParen (keepsLine_parameters function n []) _

theorem keepsLine_unlessEnd {items : Parser α} (h : KeepsLine items c) :
    KeepsLine (unlessEnd items) c := by
  apply keepsLine_read_bind
  split
  · exact keepsLine_pure _
  · exact h.bind fun a c₁ _ => keepsLine_pure _

theorem keepsLine_printStatement (n : Nat) : KeepsLine (printStatement n) c := by
  have hitems : KeepsLine (commaSeparated (expression n) n) c :=
    keepsLine_commaSeparated (readsOff_expression n) (fun c => keepsLine_expression n) n
  exact (keepsLine_unlessEnd hitems).bind fun o c₁ _ => keepsLine_pure _

theorem keepsLine_returnStatement (n : Nat) : KeepsLine (returnStatement n) c :=
  (keepsLine_unlessEnd (keepsLine_expression n)).bind fun _ _ _ => keepsLine_pure _

theorem ownsLine_plainStatement (n : Nat) : OwnsLine (plainStatement n) c := by
  cases htarget : c.assignmentAhead with
  | false =>
    intro r c' hp
    rw [plainStatement, bind_eq_ok (takeTarget_apply htarget)] at hp
    exact (ownsLine_expressionHere n).bind (fun e c₁ _ => keepsLine_pure _) r c' hp
  | true =>
    exact ownsLine_target htarget fun name d =>
      (keepsLine_expression n).bind fun e c₁ _ => keepsLine_pure _

def Stalls (p : Parser α) (c : Cursor) : Prop :=
  ∀ r c', p c = some (r, c') → c' = c ∧ ∃ e, r = .error e

theorem stalls_unexpected (expected : Expectation) : Stalls (unexpected expected : Parser α) c := by
  intro r c' hp
  cases hp
  exact ⟨rfl, _, rfl⟩

theorem stalls_failHere (fault : Fault) : Stalls (failHere fault : Parser α) c := by
  intro r c' hp
  cases hp
  exact ⟨rfl, _, rfl⟩

theorem Stalls.bind {q : Parser β} {f : β → Parser α} (h : Stalls q c) : Stalls (q >>= f) c := by
  intro r c' hp
  rcases bind_eq_some_iff.1 hp with ⟨e, he, rfl⟩ | ⟨b, d, hb, -⟩
  · exact ⟨(h _ c' he).1, e, rfl⟩
  · obtain ⟨-, e, he⟩ := h _ d hb
    cases he

theorem stalls_plainStatement (h : ∀ t ∈ c.ahead.head?, t.kind ≠ .minus ∧ beginsOperand t.kind = false)
    (n : Nat) : Stalls (plainStatement n) c := by
  have hprimary (nested : Parser Expression) (m : Nat) : Stalls (primary nested m) c := by
    have hnone : take? (fun _ t => if beginsOperand t.kind then some t else none) c = some (.ok none, c) := by
      obtain ⟨previous, _ | ⟨t, ts⟩, finish⟩ := c
      · rfl
      · have hkind := (h t rfl).2
        simp [take?, hkind]
    intro r c' hp
    rw [primary, bind_eq_ok hnone] at hp
    exact stalls_unexpected _ r c' hp
  have hunary (nested : Parser Expression) (m : Nat) : Stalls (unaryHere nested (m + 1)) c := by
    intro r c' hp
    rw [unaryHere, bind_eq_ok (accept_none fun t ht => (h t ht).1)] at hp
    exact hprimary nested (m + 1) r c' hp
  have htarget : c.assignmentAhead = false := by
    obtain ⟨previous, _ | ⟨t, _ | ⟨u, ts⟩⟩, finish⟩ := c
    · rfl
    · rfl
    · have hkind : t.kind ≠ .identifier := by
        intro hkind
        have hnot := (h t rfl).2
        rw [hkind] at hnot
        cases hnot
      simp [Cursor.assignmentAhead, hkind]
  have hexpression : Stalls (expressionHere n) c := by
    cases n with
    | zero =>
      intro r c' hp
      cases hp
    | succ n =>
      intro r c' hp
      rw [expressionHere, bind_eq_ok (takeTarget_apply htarget)] at hp
      -- Its first operand is the first one on all three levels.
      exact (((hunary _ n).bind).bind).bind r c' hp
  intro r c' hp
  rw [plainStatement, bind_eq_ok (takeTarget_apply htarget)] at hp
  exact hexpression.bind r c' hp

end Statements

end Parser

end IntScript.Grammar
