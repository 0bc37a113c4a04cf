import IntScript.Proofs.Grammar.Alike
import Mathlib.Data.List.Chain

/-!
# The same words in a longer line

What is read from a line is read from any other line that says the same up to a colon or an `else`. Only
where a statement may end without an operand, or take an `else` itself, does what follows matter.
-/

namespace IntScript

structure Token.Says (t u : Token) : Prop where
  kind : u.kind = t.kind
  lexeme : u.lexeme = t.lexeme

namespace Grammar

open IntScript.Action

def closesLine : TokenKind → Bool
  | .colon | .elseKeyword => true
  | _ => false

/-- Ahead of the second cursor is a line with the words of the first one and then the tail. In front of an
`else`, no `if` is ahead, and the last word is not one that an operand may follow or not. -/
structure Along (tail : List Token) (c c' : Cursor) : Prop where
  words : ∃ us, List.Forall₂ Token.Says c.ahead us ∧ c'.ahead = us ++ tail
  line : c.ahead.IsChain Token.Joins
  line' : c'.ahead.IsChain Token.Joins
  closes : ∀ t ∈ tail.head?, closesLine t.kind = true
  plain : (∃ t ∈ tail.head?, t.kind = .elseKeyword) → (∀ t ∈ c.ahead, t.kind ≠ .ifKeyword) ∧
    ∀ t ∈ lastOf c.previous c.ahead, t.kind ≠ .print ∧ t.kind ≠ .returnKeyword

structure Within (tail : List Token) (c c' : Cursor) : Prop extends Along tail c c' where
  goesOn : c.atEnd = false → c.startsLine = false
  goesOn' : c'.atEnd = false → c'.startsLine = false

variable {α α' β β' : Type} {tail : List Token} {c c' d d' : Cursor} {R : α → α' → Prop}
  {S : β → β' → Prop}

theorem advance_of_cons {t : Token} {ts : List Token} (h : c.ahead = t :: ts) :
    c.advance = ⟨some t, ts, c.finish⟩ := by
  rw [Cursor.advance, h]

theorem startsLine_behind_one {t : Token} {ts : List Token} {finish : Position}
    (hline : (t :: ts).IsChain Token.Joins) (hend : (Cursor.mk (some t) ts finish).atEnd = false) :
    (Cursor.mk (some t) ts finish).startsLine = false := by
  cases ts with
  | nil => cases hend
  | cons u ts => exact Cursor.startsLine_of_joins (List.isChain_cons_cons.1 hline).1

theorem Along.cases (h : Along tail c c') :
    (∃ t ts u us, c.ahead = t :: ts ∧ c'.ahead = u :: us ∧ t.Says u ∧ Within tail c.advance c'.advance) ∨
      c.ahead = [] ∧ c'.ahead = tail := by
  obtain ⟨⟨us, hsame, hahead'⟩, hline, hline', hcloses, hplain⟩ := h
  cases hahead : c.ahead with
  | nil =>
    rw [hahead] at hsame
    cases hsame
    exact .inr ⟨rfl, hahead'⟩
  | cons t ts =>
    rw [hahead] at hsame hline hplain
    cases hsame with
    | @cons _ u _ us htu hrest =>
      rw [hahead'] at hline'
      refine .inl ⟨t, ts, u, us ++ tail, rfl, hahead', htu, ?_⟩
      rw [advance_of_cons hahead, advance_of_cons hahead']
      refine ⟨⟨⟨us, hrest, rfl⟩, hline.tail, hline'.tail, hcloses, fun helse => ?_⟩,
        startsLine_behind_one hline, startsLine_behind_one hline'⟩
      obtain ⟨hnoIf, hlast⟩ := hplain helse
      exact ⟨fun v hv => hnoIf v (List.mem_cons_of_mem t hv), hlast⟩

theorem Along.tail_ne (h : Along tail c c') {kind : TokenKind} (hkind : closesLine kind = false) :
    ∀ t ∈ tail.head?, t.kind ≠ kind := by
  rintro t ht rfl
  rw [h.closes t ht] at hkind
  cases hkind

theorem Along.atEnd_eq (h : Along tail c c') (hend : c.atEnd = false) : c'.atEnd = false := by
  obtain ⟨-, -, u, us, -, hahead', -⟩ | ⟨hahead, -⟩ := h.cases
  · rw [Cursor.atEnd, hahead']
    rfl
  · rw [Cursor.atEnd, hahead] at hend
    cases hend

theorem Along.nextIs_eq (h : Along tail c c') {kind : TokenKind} (hkind : closesLine kind = false) :
    c'.nextIs kind = c.nextIs kind := by
  obtain ⟨t, ts, u, us, hahead, hahead', hsame, -⟩ | ⟨hahead, hahead'⟩ := h.cases
  · rw [Cursor.nextIs, Cursor.nextIs, hahead, hahead']
    exact congrArg (fun found => decide (found = kind)) hsame.kind
  · have htail := h.tail_ne hkind
    rw [Cursor.nextIs, Cursor.nextIs, hahead, hahead']
    cases tail with
    | nil => rfl
    | cons t ts => exact decide_eq_false (htail t rfl)

theorem Along.assignmentAhead_eq (h : Along tail c c') : c'.assignmentAhead = c.assignmentAhead := by
  have hline := h.line
  have hline' := h.line'
  rw [Cursor.assignmentAhead, Cursor.assignmentAhead]
  obtain ⟨t, ts, u, us, hahead, hahead', hsame, hnext⟩ | ⟨hahead, hahead'⟩ := h.cases
  · have hcases := hnext.toAlong.cases
    rw [advance_of_cons hahead, advance_of_cons hahead'] at hcases
    rw [hahead] at hline ⊢
    rw [hahead'] at hline' ⊢
    obtain ⟨v, vs, w, ws, hts, hus, hsame₂, -⟩ | ⟨hts, hus⟩ := hcases
    · obtain rfl : ts = v :: vs := hts
      obtain rfl : us = w :: ws := hus
      have hjoins : v.span.line = t.span.endLine := (List.isChain_cons_cons.1 hline).1
      have hjoins' : w.span.line = u.span.endLine := (List.isChain_cons_cons.1 hline').1
      simp [hsame.kind, hsame₂.kind, hjoins, hjoins']
    · obtain rfl : ts = [] := hts
      obtain rfl : us = tail := hus
      have htail : ∀ w ∈ us.head?, w.kind ≠ .assign := h.tail_ne rfl
      cases us with
      | nil => rfl
      | cons w ws => simp [htail w rfl]
  · have htail : ∀ u ∈ tail.head?, u.kind ≠ .identifier := h.tail_ne rfl
    rw [hahead, hahead']
    cases tail with
    | nil => rfl
    | cons u us =>
      cases us with
      | nil => rfl
      | cons w ws => simp [htail u rfl]

/-- A value of the first run is one of the second too, up to where its tokens stand. -/
def Carries (tail : List Token) (R : α → α' → Prop) (p : Parser α) (p' : Parser α') (c c' : Cursor) :
    Prop :=
  ∀ a d, p c = some (.ok a, d) → ∃ a' d', p' c' = some (.ok a', d') ∧ R a a' ∧ Within tail d d'

namespace Parser

theorem carries_pure {a : α} {a' : α'} (h : Within tail c c') (ha : R a a') :
    Carries tail R (pure a) (pure a') c c' := by
  intro b d hb
  cases hb
  exact ⟨a', c', rfl, ha, h⟩

theorem carries_bind {p : Parser α} {p' : Parser α'} {f : α → Parser β} {f' : α' → Parser β'}
    (h : Carries tail R p p' c c')
    (hf : ∀ a a' d d', R a a' → Within tail d d' → Carries tail S (f a) (f' a') d d') :
    Carries tail S (p >>= f) (p' >>= f') c c' := by
  intro b x hb
  rcases bind_eq_some_iff.1 hb with ⟨e, -, he⟩ | ⟨a, d, ha, hrest⟩
  · cases he
  · obtain ⟨a', d', ha', hR, hwithin⟩ := h a d ha
    obtain ⟨b', x', hb', hS, hx⟩ := hf a a' d d' hR hwithin b x hrest
    exact ⟨b', x', (bind_eq_ok ha').trans hb', hS, hx⟩

theorem carries_read {f : Cursor → α} {f' : Cursor → α'} {g : α → Parser β} {g' : α' → Parser β'}
    (h : Carries tail S (g (f c)) (g' (f' c')) c c') :
    Carries tail S (Action.read f >>= g) (Action.read f' >>= g') c c' := by
  intro b d hb
  rw [bind_eq_ok (read_apply _ _)] at hb ⊢
  exact h b d hb

theorem carries_stuck {p' : Parser α'} : Carries tail R stuck p' c c' := by
  intro a d ha
  cases ha

theorem carries_unexpected {p' : Parser α'} (expected : Expectation) :
    Carries tail R (unexpected expected) p' c c' := by
  intro a d ha
  cases ha

section Tokens

theorem carries_takeHere {f : Cursor → Token → Option α} {f' : Cursor → Token → Option α'}
    {k : Option α → Parser β} {k' : Option α' → Parser β'} (h : Along tail c c')
    (hf : ∀ t u, t.Says u → c.atEnd = false → Option.Rel R (f c t) (f' c' u))
    (htail : ∀ t ∈ tail.head?, f' c' t = none) (hnone : Carries tail S (k none) (k' none) c c')
    (hsome : ∀ t ts a a', c.ahead = t :: ts → f c t = some a → R a a' →
      Within tail c.advance c'.advance → Carries tail S (k (some a)) (k' (some a')) c.advance c'.advance) :
    Carries tail S (take? f >>= k) (take? f' >>= k') c c' := by
  intro b x hb
  rcases h.cases with ⟨t, ts, u, us, hahead, hahead', htu, hwithin⟩ | ⟨hahead, hahead'⟩
  · have hrel := hf t u htu (by rw [Cursor.atEnd, hahead]; rfl)
    simp only [bind_apply, take?, hahead] at hb
    simp only [bind_apply, take?, hahead']
    generalize hft : f c t = o at hb hrel
    generalize f' c' u = o' at hrel
    cases hrel with
    | none => exact hnone b x hb
    | some ha => exact hsome t ts _ _ hahead hft ha hwithin b x hb
  · simp only [bind_apply, take?, hahead] at hb
    have hstay : take? f' c' = some (.ok none, c') := by
      rw [take?, hahead']
      cases tail with
      | nil => rfl
      | cons t ts =>
        dsimp only
        rw [htail t rfl]
    rw [bind_eq_ok hstay]
    exact hnone b x hb

theorem carries_take? {f : Cursor → Token → Option α} {f' : Cursor → Token → Option α'}
    (h : Within tail c c') (hf : ∀ t u, t.Says u → c.atEnd = false → Option.Rel R (f c t) (f' c' u))
    (htail : ∀ t ∈ tail.head?, f' c' t = none) :
    Carries tail (Option.Rel R) (take? f) (take? f') c c' := by
  rw [← bind_pure (take? f), ← bind_pure (take? f')]
  exact carries_takeHere h.toAlong hf htail (carries_pure h .none)
    fun t ts a a' _ _ ha hnext => carries_pure hnext (.some ha)

variable {kind : TokenKind}

theorem carries_takeOnLine? (h : Within tail c c') (htail : ∀ t ∈ tail.head?, t.kind ≠ kind) :
    Carries tail (Option.Rel Token.Says) (takeOnLine? kind) (takeOnLine? kind) c c' := by
  apply carries_take? h
  · intro t u htu hend
    rw [htu.kind, h.goesOn hend, h.goesOn' (h.atEnd_eq hend)]
    split
    · exact .some htu
    · exact .none
  · intro t ht
    rw [if_neg]
    exact fun hkind => htail t ht hkind.1

theorem carries_expect (h : Within tail c c') (expected : Expectation) (hkind : closesLine kind = false) :
    Carries tail Token.Says (expect kind expected) (expect kind expected) c c' := by
  apply carries_bind (carries_takeOnLine? h (h.tail_ne hkind))
  rintro o o' d d' hrel hwithin
  cases hrel with
  | none => exact carries_unexpected expected
  | some hsame => exact carries_pure hwithin hsame

theorem carries_acceptHere {k : Bool → Parser β} {k' : Bool → Parser β'} (h : Along tail c c')
    (hkind : closesLine kind = false) (hfalse : Carries tail S (k false) (k' false) c c')
    (htrue : ∀ d d', Within tail d d' → Carries tail S (k true) (k' true) d d') :
    Carries tail S (accept kind >>= k) (accept kind >>= k') c c' := by
  rw [accept, bind_assoc, bind_assoc]
  refine carries_takeHere (R := Token.Says) h (fun t u htu _ => ?_) (fun t ht => ?_) hfalse
    fun _ _ _ _ _ _ _ hnext => htrue _ _ hnext
  · rw [htu.kind]
    split
    · exact .some htu
    · exact .none
  · exact if_neg (h.tail_ne hkind t ht)

theorem carries_takeOperator? (h : Within tail c c') {level : TokenKind → Option BinaryOperator}
    (hlevel : ∀ kind, closesLine kind = true → level kind = none) :
    Carries tail (Option.Rel Eq) (takeOperator? level) (takeOperator? level) c c' := by
  apply carries_take? h
  · intro t u htu hend
    rw [htu.kind, h.goesOn hend, h.goesOn' (h.atEnd_eq hend)]
    cases level t.kind with
    | none => exact .none
    | some op => exact .some rfl
  · intro t ht
    rw [hlevel t.kind (h.closes t ht), ite_self]

end Tokens

section Expressions

variable {p : Parser α}

def Carried (tail : List Token) (p : Parser α) : Prop := ∀ c c', Within tail c c' → Carries tail Eq p p c c'

def CarriedHere (tail : List Token) (p : Parser α) : Prop :=
  ∀ c c', Along tail c c' → Carries tail Eq p p c c'

theorem carried_operandOnLine (h : CarriedHere tail p) (hfails : FailsAtEnd p) :
    Carried tail (operandOnLine p) := by
  intro c c' hwithin
  apply carries_read
  cases hend : c.atEnd with
  | false =>
    rw [hwithin.goesOn hend, hwithin.goesOn' (hwithin.atEnd_eq hend)]
    exact h c c' hwithin.toAlong
  | true =>
    intro a d ha
    split at ha
    · cases ha
    · obtain ⟨-, e, he, -⟩ := hfails c hend _ _ ha
      cases he

theorem carried_commaSeparated (h : Carried tail p) (n : Nat) : Carried tail (commaSeparated p n) := by
  induction n with
  | zero => exact fun c c' _ => carries_stuck
  | succ n ih =>
    intro c c' hwithin
    apply carries_bind (h c c' hwithin)
    rintro a _ d d' rfl hnext
    apply carries_acceptHere hnext.toAlong rfl
    · exact carries_pure hnext rfl
    · intro d₁ d₁' hnext₁
      apply carries_bind (ih d₁ d₁' hnext₁)
      rintro as _ d₂ d₂' rfl hnext₂
      exact carries_pure hnext₂ rfl

theorem carried_untilParen {items : Parser (List α)} (h : Carried tail items) (expected : Expectation) :
    Carried tail (untilParen items expected) := by
  intro c c' hwithin
  have hitems : Carries tail Eq (unlessParen items) (unlessParen items) c c' := by
    apply carries_read
    rw [hwithin.nextIs_eq rfl]
    split
    · exact carries_pure hwithin rfl
    · exact h c c' hwithin
  apply carries_bind hitems
  rintro as _ d d' rfl hnext
  apply carries_bind (carries_expect hnext expected rfl)
  rintro t u d₁ d₁' - hnext₁
  exact carries_pure hnext₁ rfl

theorem carried_variableOrCall {nested : Parser Expression} (h : Carried tail nested) (name : String)
    (n : Nat) : Carried tail (variableOrCall nested name n) := by
  intro c c' hwithin
  apply carries_bind (carries_takeOnLine? hwithin (hwithin.tail_ne rfl))
  rintro o o' d d' hrel hnext
  cases hrel with
  | none => exact carries_pure hnext rfl
  | some =>
    apply carries_bind (carried_untilParen (carried_commaSeparated h n) _ d d' hnext)
    rintro args _ d₁ d₁' rfl hnext₁
    exact carries_pure hnext₁ rfl

theorem carriedHere_primary {nested : Parser Expression} (h : Carried tail nested) (n : Nat) :
    CarriedHere tail (primary nested n) := by
  intro c c' halong
  refine carries_takeHere (R := Token.Says) halong (fun t u htu _ => ?_) (fun t ht => ?_)
    (carries_unexpected _) ?_
  · rw [htu.kind]
    split
    · exact .some htu
    · exact .none
  · have hcloses := halong.closes t ht
    rw [if_neg]
    intro hbegins
    cases hkind : t.kind <;> rw [hkind] at hcloses hbegins <;> contradiction
  · intro _ _ t u _ _ hsame hnext
    dsimp only
    rw [hsame.kind, hsame.lexeme]
    split
    · unfold integerValue
      rw [hsame.lexeme]
      split
      · exact carries_pure hnext rfl
      · intro e x he
        cases he
    · exact carries_pure hnext rfl
    · exact carried_variableOrCall h t.lexeme n _ _ hnext
    · apply carries_bind (h _ _ hnext)
      rintro e _ d₁ d₁' rfl hnext₁
      apply carries_bind (carries_expect hnext₁ _ rfl)
      rintro v w d₂ d₂' - hnext₂
      exact carries_pure hnext₂ rfl

theorem carriedHere_unaryHere {nested : Parser Expression} (h : Carried tail nested) (n : Nat) :
    CarriedHere tail (unaryHere nested n) := by
  induction n with
  | zero => exact fun c c' _ => carries_stuck
  | succ n ih =>
    intro c c' halong
    have hnested := carried_operandOnLine ih (failsAtEnd_unaryHere nested n)
    apply carries_acceptHere halong rfl
    · exact carriedHere_primary h _ c c' halong
    · intro d d' hnext
      apply carries_bind (hnested d d' hnext)
      rintro e _ d₁ d₁' rfl hnext₁
      exact carries_pure hnext₁ rfl

theorem carried_chainFrom {operand : Parser Expression} (h : Carried tail operand)
    {level : TokenKind → Option BinaryOperator} (hlevel : ∀ kind, closesLine kind = true → level kind = none)
    (n : Nat) (left : Expression) : Carried tail (chainFrom level operand n left) := by
  induction n generalizing left with
  | zero => exact fun c c' _ => carries_stuck
  | succ n ih =>
    intro c c' hwithin
    apply carries_bind (carries_takeOperator? hwithin hlevel)
    rintro o o' d d' hrel hnext
    cases hrel with
    | none => exact carries_pure hnext rfl
    | some hop =>
      obtain rfl := hop
      apply carries_bind (h d d' hnext)
      rintro right _ d₁ d₁' rfl hnext₁
      exact ih _ d₁ d₁' hnext₁

theorem carries_chain {first operand : Parser Expression} (hfirst : Carries tail Eq first first c c')
    (h : Carried tail operand) {level : TokenKind → Option BinaryOperator}
    (hlevel : ∀ kind, closesLine kind = true → level kind = none) (n : Nat) :
    Carries tail Eq (chain level first operand n) (chain level first operand n) c c' := by
  apply carries_bind hfirst
  rintro left _ d d' rfl hnext
  exact carried_chainFrom h hlevel n left d d' hnext

theorem carries_comparison {first operand : Parser Expression}
    (hfirst : Carries tail Eq first first c c') (h : Carried tail operand) (n : Nat) :
    Carries tail Eq (comparison first operand n) (comparison first operand n) c c' := by
  have hproducts : ∀ kind, closesLine kind = true → productOperator? kind = none := by
    rintro (_ | _) hkind <;> first | rfl | cases hkind
  have hsums : ∀ kind, closesLine kind = true → sumOperator? kind = none := by
    rintro (_ | _) hkind <;> first | rfl | cases hkind
  have hcomparisons : ∀ kind, closesLine kind = true → comparisonOperator? kind = none := by
    rintro (_ | _) hkind <;> first | rfl | cases hkind
  have hproduct : Carried tail (product operand operand n) :=
    fun c c' hwithin => carries_chain (h c c' hwithin) h hproducts n
  have hsum : Carried tail (sum operand operand n) :=
    fun c c' hwithin => carries_chain (hproduct c c' hwithin) hproduct hsums n
  exact carries_chain (carries_chain (carries_chain hfirst h hproducts n) hproduct hsums n) hsum
    hcomparisons n

theorem takeTarget_eq_some (h : c.assignmentAhead = true) : ∃ t v vs, c.ahead = t :: v :: vs ∧
    takeTarget c = some (.ok (some t.lexeme), c.advance.advance) := by
  obtain ⟨previous, _ | ⟨t, _ | ⟨v, vs⟩⟩, finish⟩ := c
  · cases h
  · cases h
  · refine ⟨t, v, vs, rfl, ?_⟩
    rw [takeTarget, h]
    rfl

theorem carries_takeTarget {f : Option String → Parser β} {f' : Option String → Parser β'}
    (h : Along tail c c') (hnone : Carries tail S (f none) (f' none) c c')
    (hsome : ∀ name d d', Within tail d d' → Carries tail S (f (some name)) (f' (some name)) d d') :
    Carries tail S (takeTarget >>= f) (takeTarget >>= f') c c' := by
  intro b x hb
  have hsame := h.assignmentAhead_eq
  cases htarget : c.assignmentAhead with
  | false =>
    rw [bind_eq_ok (takeTarget_apply htarget)] at hb
    rw [bind_eq_ok (takeTarget_apply (hsame.trans htarget))]
    exact hnone b x hb
  | true =>
    obtain ⟨t, v, vs, hahead, htake⟩ := takeTarget_eq_some htarget
    obtain ⟨u, w, ws, hahead', htake'⟩ := takeTarget_eq_some (hsame.trans htarget)
    obtain ⟨t₁, ts₁, u₁, us₁, ht, hu, htu, hnext⟩ | ⟨hnil, -⟩ := h.cases
    · obtain ⟨-, -, -, -, -, -, -, hnext₂⟩ | ⟨hnil, -⟩ := hnext.toAlong.cases
      · cases hahead.symm.trans ht
        cases hahead'.symm.trans hu
        rw [bind_eq_ok htake] at hb
        rw [bind_eq_ok htake', htu.lexeme]
        exact hsome _ _ _ hnext₂ b x hb
      · rw [advance_of_cons hahead] at hnil
        cases hnil
    · rw [hnil] at hahead
      cases hahead

theorem carriedHere_expressionHere (n : Nat) : CarriedHere tail (expressionHere n) := by
  induction n with
  | zero => exact fun c c' _ => carries_stuck
  | succ n ih =>
    intro c c' halong
    have hnested := carried_operandOnLine ih (failsAtEnd_expressionHere n)
    have hunary := carriedHere_unaryHere hnested (n + 1)
    apply carries_takeTarget halong
    · exact carries_comparison (hunary c c' halong)
        (carried_operandOnLine hunary (failsAtEnd_unaryHere _ _)) _
    · intro name d d' hnext
      apply carries_bind (hnested d d' hnext)
      rintro e _ d₁ d₁' rfl hnext₁
      exact carries_pure hnext₁ rfl

theorem carried_expression (n : Nat) : Carried tail (expression n) :=
  carried_operandOnLine (carriedHere_expressionHere n) (failsAtEnd_expressionHere n)

end Expressions

end Parser

end Grammar

end IntScript
