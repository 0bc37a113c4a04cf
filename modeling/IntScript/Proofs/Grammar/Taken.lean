import IntScript.Proofs.Grammar.Derives
import IntScript.Proofs.Grammar.Steps

/-!
# What expressions take

A parser that gives a value has moved on over some tokens. What is read as an expression derives it, and
stays on its line: only its first token may begin one, if it is read where a statement begins. There is one
exception. A comma is taken without a look at where it stands.
-/

namespace IntScript

/-- The second token is on the line on which the first one ends, or it is a comma. -/
def Token.GoesOn (t u : Token) : Prop := u.span.line ≤ t.span.endLine ∨ u.kind = .comma

namespace Grammar

open IntScript.Action

/-- Behind the token taken last, each of these goes on with the one before it. -/
def OnLine : Option Token → List Token → Prop
  | _, [] => True
  | none, _ :: _ => False
  | some p, t :: ts => p.GoesOn t ∧ OnLine (some t) ts

def OwnLine (ts : List Token) : Prop := ∀ t us, ts = t :: us → OnLine (some t) us

variable {α β : Type} {previous : Option Token} {ts us : List Token} {c c' c'' : Cursor}

theorem onLine_append :
    OnLine previous (ts ++ us) ↔ OnLine previous ts ∧ OnLine (lastOf previous ts) us := by
  induction ts generalizing previous with
  | nil => simp [OnLine, lastOf]
  | cons t ts ih =>
    cases previous with
    | none => simp [OnLine]
    | some p => simp only [List.cons_append, OnLine, lastOf, ih, and_assoc]

theorem OnLine.ownLine (h : OnLine previous ts) : OwnLine ts := by
  rintro t us rfl
  cases previous with
  | none => exact h.elim
  | some p => exact h.2

theorem OwnLine.append (hne : ts ≠ []) (h : OwnLine ts) (hus : OnLine (lastOf previous ts) us) :
    OwnLine (ts ++ us) := by
  obtain ⟨t, ts, rfl⟩ := List.exists_cons_of_ne_nil hne
  intro u vs heq
  cases heq
  exact onLine_append.2 ⟨h t ts rfl, hus⟩

theorem OnLine.append (h : OnLine previous ts) (hus : OnLine (lastOf previous ts) us) :
    OnLine previous (ts ++ us) :=
  onLine_append.2 ⟨h, hus⟩

/-- From one cursor to the other these tokens are taken. -/
structure Cursor.Passes (c : Cursor) (ts : List Token) (c' : Cursor) : Prop where
  ahead : c.ahead = ts ++ c'.ahead
  previous : c'.previous = lastOf c.previous ts
  finish : c'.finish = c.finish

theorem Cursor.Passes.refl (c : Cursor) : c.Passes [] c := ⟨rfl, rfl, rfl⟩

theorem Cursor.Passes.eq (h : c.Passes [] c') : c' = c := by
  obtain ⟨previous, ahead, finish⟩ := c
  obtain ⟨previous', ahead', finish'⟩ := c'
  obtain ⟨hahead, hprevious, hfinish⟩ := h
  obtain rfl : ahead = ahead' := hahead
  obtain rfl : previous' = previous := hprevious
  obtain rfl : finish' = finish := hfinish
  rfl

theorem Cursor.Passes.atEnd_eq (h : c.Passes [] c') : c'.atEnd = c.atEnd := by
  rw [h.eq]

theorem Cursor.Passes.trans (h : c.Passes ts c') (h' : c'.Passes us c'') :
    c.Passes (ts ++ us) c'' where
  ahead := by rw [h.ahead, h'.ahead, List.append_assoc]
  previous := by rw [h'.previous, h.previous, lastOf_append]
  finish := h'.finish.trans h.finish

theorem Cursor.passes_advance {previous : Option Token} {t : Token} {ts : List Token}
    {finish : Position} :
    (Cursor.mk previous (t :: ts) finish).Passes [t] ⟨some t, ts, finish⟩ := ⟨rfl, rfl, rfl⟩

theorem Cursor.goesOn_of_startsLine {t : Token} (hline : c.startsLine = false)
    (hahead : c.ahead = t :: ts) : ∃ p, c.previous = some p ∧ p.GoesOn t := by
  obtain ⟨_ | p, ahead, finish⟩ := c
  · cases hline
  · obtain rfl : ahead = t :: ts := hahead
    have hle : ¬ p.span.endLine < t.span.line := of_decide_eq_false hline
    exact ⟨p, rfl, .inl (Nat.not_lt.1 hle)⟩

namespace Parser

/-- If the parser gives a value at the cursor, it has taken tokens that are as `Q` says of the value. -/
def Takes (p : Parser α) (c : Cursor) (Q : List Token → α → Prop) : Prop :=
  ∀ a c', p c = some (.ok a, c') → ∃ ts, c.Passes ts c' ∧ Q ts a

variable {p : Parser α} {Q : List Token → α → Prop}

theorem Takes.mono {R : List Token → α → Prop} (h : Takes p c R)
    (hRQ : ∀ ts a, R ts a → Q ts a) : Takes p c Q := by
  intro a c' hp
  obtain ⟨ts, hpass, hR⟩ := h a c' hp
  exact ⟨ts, hpass, hRQ ts a hR⟩

theorem takes_pure {a : α} (h : Q [] a) : Takes (pure a) c Q := by
  intro b c' hp
  cases hp
  exact ⟨[], .refl c, h⟩

theorem takes_stuck : Takes (stuck : Parser α) c Q := by
  intro a c' hp
  cases hp

theorem takes_fail {e : SyntaxError} : Takes (fail e) c Q := by
  intro a c' hp
  cases hp

theorem takes_failHere {fault : Fault} : Takes (failHere fault) c Q := by
  intro a c' hp
  cases hp

theorem takes_unexpected {expected : Expectation} : Takes (unexpected expected) c Q := by
  intro a c' hp
  cases hp

theorem takes_bind {q : Parser β} {R : List Token → β → Prop} {f : β → Parser α}
    (hq : Takes q c R)
    (hf : ∀ ts b c', c.Passes ts c' → R ts b → Takes (f b) c' fun us a => Q (ts ++ us) a) :
    Takes (q >>= f) c Q := by
  intro a c'' hp
  rcases bind_eq_some_iff.1 hp with ⟨e, -, he⟩ | ⟨b, c', hb, ha⟩
  · cases he
  · obtain ⟨ts, hpass, hR⟩ := hq b c' hb
    obtain ⟨us, hpass', hQ⟩ := hf ts b c' hpass hR a c'' ha
    exact ⟨ts ++ us, hpass.trans hpass', hQ⟩

theorem takes_read {g : Cursor → β} {f : β → Parser α} (h : Takes (f (g c)) c Q) :
    Takes (Action.read g >>= f) c Q := by
  intro a c' hp
  rw [bind_eq_ok (read_apply _ _)] at hp
  exact h a c' hp

theorem takes_take? (f : Cursor → Token → Option α) :
    Takes (take? f) c fun ts o => o = none ∧ ts = [] ∨
      ∃ t a, ts = [t] ∧ c.ahead.head? = some t ∧ f c t = some a ∧ o = some a := by
  obtain ⟨previous, _ | ⟨t, rest⟩, finish⟩ := c
  · intro o c' hp
    cases hp
    exact ⟨[], .refl _, .inl ⟨rfl, rfl⟩⟩
  · intro o c' hp
    rw [take?] at hp
    dsimp only at hp
    split at hp
    next =>
      cases hp
      exact ⟨[], .refl _, .inl ⟨rfl, rfl⟩⟩
    next a ha =>
      cases hp
      exact ⟨[t], Cursor.passes_advance, .inr ⟨t, a, rfl, rfl, ha, rfl⟩⟩

theorem takes_accept (kind : TokenKind) :
    Takes (accept kind) c fun ts b => b = false ∧ ts = [] ∨
      b = true ∧ ∃ t, ts = [t] ∧ t.kind = kind := by
  apply takes_bind (takes_take? _)
  rintro ts o c' - (⟨rfl, rfl⟩ | ⟨t, u, rfl, -, hf, rfl⟩)
  · exact takes_pure (.inl ⟨rfl, rfl⟩)
  · have hkind : t.kind = kind := (Option.ite_none_right_eq_some.1 hf).1
    exact takes_pure (.inr ⟨rfl, t, rfl, hkind⟩)

theorem takes_takeOnLine? (kind : TokenKind) :
    Takes (takeOnLine? kind) c fun ts o => o = none ∧ ts = [] ∨
      ∃ t, o = some t ∧ ts = [t] ∧ t.kind = kind ∧ OnLine c.previous [t] := by
  apply (takes_take? _).mono
  rintro ts o (⟨rfl, rfl⟩ | ⟨t, u, rfl, hhead, hf, rfl⟩)
  · exact .inl ⟨rfl, rfl⟩
  · obtain ⟨⟨hkind, hline⟩, hu⟩ := Option.ite_none_right_eq_some.1 hf
    cases hu
    obtain ⟨rest, hahead⟩ := List.head?_eq_some_iff.1 hhead
    obtain ⟨p, hprevious, hgoes⟩ := c.goesOn_of_startsLine hline hahead
    rw [hprevious]
    exact .inr ⟨t, rfl, rfl, hkind, hgoes, trivial⟩

theorem takes_expect (kind : TokenKind) (expected : Expectation) :
    Takes (expect kind expected) c fun ts t =>
      ts = [t] ∧ t.kind = kind ∧ OnLine c.previous [t] := by
  apply takes_bind (takes_takeOnLine? kind)
  rintro ts o c' - (⟨rfl, rfl⟩ | ⟨t, rfl, rfl, hkind, hline⟩)
  · exact takes_unexpected
  · exact takes_pure ⟨rfl, hkind, hline⟩

theorem exists_target (h : c.assignmentAhead = true) : ∃ t e c', c.Passes [t, e] c' := by
  obtain ⟨previous, _ | ⟨t, _ | ⟨e, ts⟩⟩, finish⟩ := c
  · cases h
  · cases h
  · exact ⟨t, e, ⟨some e, ts, finish⟩, rfl, rfl, rfl⟩

theorem takeTarget_passes {t e : Token} (hpass : c.Passes [t, e] c') (h : c.assignmentAhead = true) :
    takeTarget c = some (.ok (some t.lexeme), c') := by
  obtain ⟨previous, ahead, finish⟩ := c
  obtain ⟨previous', ahead', finish'⟩ := c'
  obtain ⟨hahead, hprevious, hfinish⟩ := hpass
  obtain rfl : ahead = t :: e :: ahead' := hahead
  obtain rfl : previous' = some e := hprevious
  obtain rfl : finish' = finish := hfinish
  rw [takeTarget, h]
  rfl

theorem takes_takeTarget :
    Takes takeTarget c fun ts o => o = none ∧ ts = [] ∨
      ∃ t s, ts = [t, s] ∧ t.kind = .identifier ∧ s.kind = .assign ∧ OwnLine [t, s] ∧
        o = some t.lexeme := by
  obtain ⟨previous, _ | ⟨t, _ | ⟨s, rest⟩⟩, finish⟩ := c
  · intro o c' hp
    cases hp
    exact ⟨[], .refl _, .inl ⟨rfl, rfl⟩⟩
  · intro o c' hp
    cases hp
    exact ⟨[], .refl _, .inl ⟨rfl, rfl⟩⟩
  · intro o c' hp
    rw [takeTarget] at hp
    dsimp only at hp
    split at hp
    next hahead =>
      cases hp
      simp only [Cursor.assignmentAhead, Bool.and_eq_true, decide_eq_true_eq] at hahead
      obtain ⟨⟨ht, hs⟩, hline⟩ := hahead
      refine ⟨[t, s], ⟨rfl, rfl, rfl⟩, .inr ⟨t, s, rfl, ht, hs, ?_, rfl⟩⟩
      rintro u us heq
      cases heq
      exact ⟨.inl (Nat.le_of_eq hline), trivial⟩
    next =>
      cases hp
      exact ⟨[], .refl _, .inl ⟨rfl, rfl⟩⟩

def ReadsOff (N : Nonterminal α) (p : Parser α) : Prop :=
  ∀ c, Takes p c fun ts a => Derives N ts a ∧ OnLine c.previous ts

def ReadsOffHere (N : Nonterminal α) (p : Parser α) : Prop :=
  ∀ c, Takes p c fun ts a => Derives N ts a ∧ OwnLine ts

variable {N : Nonterminal α}

theorem ReadsOff.here (h : ReadsOff N p) : ReadsOffHere N p :=
  fun c => (h c).mono fun _ _ ⟨hderives, hline⟩ => ⟨hderives, hline.ownLine⟩

theorem readsOff_operandOnLine (h : ReadsOffHere N p) : ReadsOff N (operandOnLine p) := by
  intro c
  apply takes_read
  cases hline : c.startsLine with
  | true => exact takes_unexpected
  | false =>
    intro a c' hp
    obtain ⟨ts, hpass, hderives, howns⟩ := h c a c' hp
    refine ⟨ts, hpass, hderives, ?_⟩
    obtain ⟨t, us, rfl, -⟩ := derives_head hderives
    obtain ⟨p, hprevious, hgoes⟩ := c.goesOn_of_startsLine hline hpass.ahead
    rw [hprevious]
    exact ⟨hgoes, howns t us rfl⟩

theorem readsOff_commaSeparated {item : Parser Expression} (h : ReadsOff .expression item)
    (n : Nat) : ReadsOff .items (commaSeparated item n) := by
  induction n with
  | zero => exact fun c => takes_stuck
  | succ n ih =>
    intro c
    apply takes_bind (h c)
    rintro ts e c₁ hpass ⟨he, hline⟩
    apply takes_bind (takes_accept _)
    rintro vs b c₂ hpass₂ (⟨rfl, rfl⟩ | ⟨rfl, o, rfl, ho⟩)
    · apply takes_pure
      simpa using ⟨.item he, hline⟩
    · apply takes_bind (ih c₂)
      rintro us es c₃ - ⟨hes, hline₃⟩
      apply takes_pure
      obtain ⟨t, ts', rfl, -⟩ := derives_head he
      have hlast := lastOf_cons_eq_getLast c.previous t ts'
      have hcomma : OnLine (lastOf c.previous (t :: ts')) (o :: us) := by
        rw [hlast]
        refine ⟨.inr ho, ?_⟩
        rwa [hpass₂.previous] at hline₃
      simpa using ⟨Derives.items he ho hes, hline.append hcomma⟩

theorem takes_untilParen {items : Parser (List α)} {R : List Token → List α → Prop}
    (h : Takes items c fun us as => OnLine c.previous us ∧ R us as) (hnil : R [] [])
    (expected : Expectation) :
    Takes (untilParen items expected) c fun ts as => OnLine c.previous ts ∧
      ∃ us o, ts = us ++ [o] ∧ o.kind = .rparen ∧ R us as := by
  have hitems : Takes (unlessParen items) c fun us as => OnLine c.previous us ∧ R us as := by
    apply takes_read
    split
    · exact takes_pure ⟨trivial, hnil⟩
    · exact h
  apply takes_bind hitems
  rintro us as c₁ hpass ⟨hline, has⟩
  apply takes_bind (takes_expect _ _)
  rintro vs o c₂ - ⟨rfl, ho, hclose⟩
  apply takes_pure
  rw [hpass.previous] at hclose
  rw [List.append_nil]
  exact ⟨hline.append hclose, us, o, rfl, ho, has⟩

theorem takes_arguments {nested : Parser Expression} (h : ReadsOff .expression nested)
    (n : Nat) (expected : Expectation) :
    Takes (untilParen (commaSeparated nested n) expected) c fun ts args =>
      OnLine c.previous ts ∧ ∃ us o, ts = us ++ [o] ∧ o.kind = .rparen ∧
        (us = [] ∧ args = [] ∨ Derives .items us args) := by
  apply takes_untilParen _ (.inl ⟨rfl, rfl⟩)
  apply (readsOff_commaSeparated h n c).mono
  rintro us args ⟨hargs, hline⟩
  exact ⟨hline, .inr hargs⟩

theorem readsOffHere_primary {nested : Parser Expression} (h : ReadsOff .expression nested)
    (n : Nat) : ReadsOffHere .primary (primary nested n) := by
  intro c
  apply takes_bind (takes_take? _)
  rintro ts o c₁ hpass (⟨rfl, rfl⟩ | ⟨t, u, rfl, -, hf, rfl⟩)
  · exact takes_unexpected
  · obtain ⟨hbegins, hu⟩ := Option.ite_none_right_eq_some.1 hf
    cases hu
    have hone : OwnLine [t] := by
      rintro u us heq
      cases heq
      trivial
    dsimp only
    split
    next hkind =>
      unfold integerValue
      split
      next value hvalue =>
        apply takes_pure
        exact ⟨.integer hkind hvalue, hone⟩
      next => exact takes_fail
    next hkind =>
      apply takes_pure
      exact ⟨.text hkind, hone⟩
    next hkind =>
      apply takes_bind (takes_takeOnLine? _)
      rintro vs o c₂ hpass₂ (⟨rfl, rfl⟩ | ⟨o, rfl, rfl, ho, hopen⟩)
      · apply takes_pure
        exact ⟨.var hkind, hone⟩
      · apply takes_bind (takes_arguments h n _)
        rintro ws args c₃ - ⟨hline, us, r, rfl, hr, hargs⟩
        apply takes_pure
        rw [hpass₂.previous] at hline
        rw [hpass.previous] at hopen hline
        have howns : OwnLine (t :: o :: (us ++ [r])) := by
          intro u vs heq
          cases heq
          exact onLine_append.2 ⟨hopen, hline⟩
        simp only [List.append_nil, List.cons_append, List.nil_append]
        rcases hargs with ⟨rfl, rfl⟩ | hargs
        · exact ⟨.callEmpty hkind ho hr, howns⟩
        · exact ⟨.call hkind ho hargs hr, howns⟩
    next hinteger hstring hidentifier =>
      have hkind : t.kind = .lparen := by
        cases hkind : t.kind <;> rw [hkind] at hbegins <;>
          first | rfl | contradiction
      apply takes_bind (h c₁)
      rintro us e c₂ hpass₂ ⟨he, hline⟩
      apply takes_bind (takes_expect _ _)
      rintro vs r c₃ - ⟨rfl, hr, hclose⟩
      apply takes_pure
      rw [hpass₂.previous] at hclose
      rw [hpass.previous] at hline hclose
      refine ⟨by simpa using Derives.parens hkind he hr, ?_⟩
      intro u vs heq
      cases heq
      simpa [lastOf] using hline.append hclose

theorem readsOffHere_unaryHere {nested : Parser Expression} (h : ReadsOff .expression nested)
    (n : Nat) : ReadsOffHere .unary (unaryHere nested n) := by
  induction n with
  | zero => exact fun c => takes_stuck
  | succ n ih =>
    intro c
    apply takes_bind (takes_accept _)
    rintro ts b c₁ hpass (⟨rfl, rfl⟩ | ⟨rfl, t, rfl, ht⟩)
    · apply (readsOffHere_primary h _ c₁).mono
      rintro us e ⟨he, hline⟩
      exact ⟨.unary he, hline⟩
    · apply takes_bind (readsOff_operandOnLine ih c₁)
      rintro us e c₂ - ⟨he, hline⟩
      apply takes_pure
      rw [hpass.previous] at hline
      refine ⟨by simpa using Derives.negate ht he, ?_⟩
      intro u vs heq
      cases heq
      simpa [lastOf] using hline

theorem takes_takeOperator? (level : TokenKind → Option BinaryOperator) :
    Takes (takeOperator? level) c fun ts o => o = none ∧ ts = [] ∨
      ∃ t op, o = some op ∧ ts = [t] ∧ level t.kind = some op ∧ OnLine c.previous [t] := by
  apply (takes_take? _).mono
  rintro ts o (⟨rfl, rfl⟩ | ⟨t, op, rfl, hhead, hf, rfl⟩)
  · exact .inl ⟨rfl, rfl⟩
  · cases hline : c.startsLine with
    | true =>
      rw [hline] at hf
      cases hf
    | false =>
      rw [hline] at hf
      obtain ⟨rest, hahead⟩ := List.head?_eq_some_iff.1 hhead
      obtain ⟨p, hprevious, hgoes⟩ := c.goesOn_of_startsLine hline hahead
      rw [hprevious]
      exact .inr ⟨t, op, rfl, rfl, hf, hgoes, trivial⟩

theorem takes_chainFrom {l : Level} {operand : Parser Expression} (h : ReadsOff l.operand operand)
    (n : Nat) {left : Expression} (hleft : Derives (.level l) ts left) :
    Takes (chainFrom l.operator? operand n left) c fun us e =>
      Derives (.level l) (ts ++ us) e ∧ OnLine c.previous us := by
  -- What is taken is collected in `ts`, so that the chain grows to the left.
  induction n generalizing c ts left with
  | zero => exact takes_stuck
  | succ n ih =>
    apply takes_bind (takes_takeOperator? _)
    rintro vs o c₁ hpass (⟨rfl, rfl⟩ | ⟨o, op, rfl, rfl, hop, hline⟩)
    · apply takes_pure
      simpa using ⟨hleft, trivial⟩
    · apply takes_bind (h c₁)
      rintro us right c₂ hpass₂ ⟨hright, hline₂⟩
      apply (ih (Derives.binary hleft hop hright)).mono
      rintro ws e ⟨he, hline₃⟩
      rw [hpass₂.previous, hpass.previous] at hline₃
      rw [hpass.previous] at hline₂
      refine ⟨by simpa using he, ?_⟩
      simpa using hline.append (hline₂.append hline₃)

theorem takes_chain {l : Level} {first operand : Parser Expression} {Line : List Token → Prop}
    (happend : ∀ ts us, ts ≠ [] → Line ts → OnLine (lastOf c.previous ts) us → Line (ts ++ us))
    (hfirst : Takes first c fun ts e => Derives l.operand ts e ∧ Line ts)
    (h : ReadsOff l.operand operand) (n : Nat) :
    Takes (chain l.operator? first operand n) c fun ts e => Derives (.level l) ts e ∧ Line ts := by
  apply takes_bind hfirst
  rintro ts left c₁ hpass ⟨hleft, hline⟩
  apply (takes_chainFrom h n (Derives.operand hleft)).mono
  rintro us e ⟨he, hline₁⟩
  rw [hpass.previous] at hline₁
  obtain ⟨t, ts', hts, -⟩ := derives_head hleft
  exact ⟨he, happend ts us (by rw [hts]; exact List.cons_ne_nil t ts') hline hline₁⟩

theorem takes_comparison {first operand : Parser Expression} {Line : List Token → Prop}
    (happend : ∀ ts us, ts ≠ [] → Line ts → OnLine (lastOf c.previous ts) us → Line (ts ++ us))
    (hfirst : Takes first c fun ts e => Derives .unary ts e ∧ Line ts)
    (h : ReadsOff .unary operand) (n : Nat) :
    Takes (comparison first operand n) c fun ts e =>
      Derives (.level .comparison) ts e ∧ Line ts := by
  have honLine (c : Cursor) (ts us : List Token) (_ : ts ≠ []) (hts : OnLine c.previous ts)
      (hus : OnLine (lastOf c.previous ts) us) : OnLine c.previous (ts ++ us) := hts.append hus
  have hproduct : ReadsOff (.level .product) (product operand operand n) :=
    fun c => takes_chain (l := .product) (honLine c) (h c) h n
  have hsum : ReadsOff (.level .sum) (sum operand operand n) :=
    fun c => takes_chain (l := .sum) (honLine c) (hproduct c) hproduct n
  have hfirstProduct := takes_chain (l := .product) happend hfirst h n
  have hfirstSum := takes_chain (l := .sum) happend hfirstProduct hproduct n
  exact takes_chain (l := .comparison) happend hfirstSum hsum n

theorem readsOffHere_expressionHere (n : Nat) : ReadsOffHere .expression (expressionHere n) := by
  induction n with
  | zero => exact fun c => takes_stuck
  | succ n ih =>
    have hnested := readsOff_operandOnLine ih
    have hunary := readsOffHere_unaryHere hnested (n + 1)
    intro c
    apply takes_bind takes_takeTarget
    rintro ts o c₁ hpass (⟨rfl, rfl⟩ | ⟨t, s, rfl, ht, hs, howns, rfl⟩)
    · have hcomparison := takes_comparison (fun _ _ hne hts hus => hts.append hne hus)
        (hunary c₁) (readsOff_operandOnLine hunary) (n + 1)
      apply hcomparison.mono
      rintro us e ⟨he, hline⟩
      exact ⟨.expression he, hline⟩
    · apply takes_bind (hnested c₁)
      rintro us e c₂ - ⟨he, hline⟩
      apply takes_pure
      rw [hpass.previous] at hline
      refine ⟨by simpa using Derives.assign ht hs he, ?_⟩
      simpa using howns.append (List.cons_ne_nil t [s]) hline

theorem readsOff_expression (n : Nat) : ReadsOff .expression (expression n) :=
  readsOff_operandOnLine (readsOffHere_expressionHere n)

end Parser

end Grammar

end IntScript
