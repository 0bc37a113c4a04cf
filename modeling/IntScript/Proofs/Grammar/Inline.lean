import IntScript.Proofs.Grammar.Appended
import IntScript.Proofs.Grammar.Bare
import IntScript.Proofs.Grammar.SameLine

/-!
# Both branches on one line

A statement that fills a line is read as the branch of an `if` too, and an `else` may follow it there, unless
it has an `if` in it or ends with a `print` or a `return` that have no operands.
-/

namespace IntScript

namespace Grammar

open IntScript.Action

variable {α : Type} {tail : List Token} {c c' d d' : Cursor} {p : Parser Statement} {t : Token}

theorem Along.tail_eq_nil_of_if (h : Along tail c c') (helse : ∀ t ∈ tail.head?, t.kind = .elseKeyword)
    (ht : t ∈ c.ahead) (hkind : t.kind = .ifKeyword) : tail = [] := by
  cases tail with
  | nil => rfl
  | cons u us => exact absurd hkind ((h.plain ⟨u, rfl, helse u rfl⟩).1 t ht)

theorem Along.tail_eq_nil_of_last (h : Along tail c c') (helse : ∀ t ∈ tail.head?, t.kind = .elseKeyword)
    (ht : t ∈ lastOf c.previous c.ahead) (hkind : t.kind = .print ∨ t.kind = .returnKeyword) :
    tail = [] := by
  cases tail with
  | nil => rfl
  | cons u us =>
    obtain ⟨hprint, hreturn⟩ := (h.plain ⟨u, rfl, helse u rfl⟩).2 t ht
    exact (hkind.elim hprint hreturn).elim

theorem Within.endsStatement_eq (h : Within tail c c') (hend : c.atEnd = true → tail = []) :
    c'.endsStatement = c.endsStatement := by
  cases hc : c.atEnd with
  | false =>
    have hc' := h.atEnd_eq hc
    rw [Cursor.endsStatement, Cursor.endsStatement, hc, hc', h.goesOn hc, h.goesOn' hc']
  | true =>
    have hc' : c'.atEnd = true := by
      obtain ⟨t, ts, -, -, hahead, -⟩ | ⟨-, hahead'⟩ := h.toAlong.cases
      · rw [Cursor.atEnd, hahead] at hc
        cases hc
      · rw [Cursor.atEnd, hahead', hend hc]
        rfl
    rw [Cursor.endsStatement, Cursor.endsStatement, hc, hc', Bool.true_or, Bool.true_or]

namespace Parser

theorem carries_unlessEnd {items : Parser α} (hwithin : Within tail c c') (h : Carried tail items)
    (hend : c.atEnd = true → tail = []) :
    Carries tail Eq (unlessEnd items) (unlessEnd items) c c' := by
  apply carries_read
  rw [hwithin.endsStatement_eq hend]
  split
  · exact carries_pure hwithin rfl
  · apply carries_bind (h c c' hwithin)
    rintro a _ d d' rfl hnext
    exact carries_pure hnext rfl

theorem carries_printStatement (hwithin : Within tail c c') (hend : c.atEnd = true → tail = []) (n : Nat) :
    Carries tail Eq (printStatement n) (printStatement n) c c' := by
  apply carries_bind (carries_unlessEnd hwithin (carried_commaSeparated (carried_expression n) n) hend)
  rintro o _ d d' rfl hnext
  exact carries_pure hnext rfl

theorem carries_returnStatement (hwithin : Within tail c c') (hend : c.atEnd = true → tail = []) (n : Nat) :
    Carries tail Eq (returnStatement n) (returnStatement n) c c' := by
  apply carries_bind (carries_unlessEnd hwithin (carried_expression n) hend)
  rintro o _ d d' rfl hnext
  exact carries_pure hnext rfl

theorem carriedHere_plainStatement (n : Nat) : CarriedHere tail (plainStatement n) := by
  intro c c' halong
  apply carries_takeTarget halong
  · apply carries_bind (carriedHere_expressionHere n c c' halong)
    rintro e _ d d' rfl hnext
    exact carries_pure hnext rfl
  · intro name d d' hnext
    apply carries_bind (carried_expression n d d' hnext)
    rintro e _ d₁ d₁' rfl hnext₁
    exact carries_pure hnext₁ rfl

theorem carried_parameters (function : String) (n : Nat) (seen : List String) :
    Carried tail (parameters function n seen) := by
  induction n generalizing seen with
  | zero => exact fun c c' _ => carries_stuck
  | succ n ih =>
    intro c c' hwithin
    apply carries_bind (carries_expect hwithin _ rfl)
    rintro t u d d' hsame hnext
    rw [hsame.lexeme]
    split
    · intro names x hx
      cases hx
    · apply carries_acceptHere hnext.toAlong rfl
      · exact carries_pure hnext rfl
      · intro d₁ d₁' hnext₁
        apply carries_bind (ih _ d₁ d₁' hnext₁)
        rintro names _ d₂ d₂' rfl hnext₂
        exact carries_pure hnext₂ rfl

section Bodies

variable (helse : ∀ t ∈ tail.head?, t.kind = .elseKeyword)
include helse

theorem carries_body (h : CarriedHere tail p) (hwithin : Within tail c c')
    (construct construct' : Construct) (header header' n : Nat) :
    Carries tail Eq (body p construct header n) (body p construct' header' n) c c' := by
  -- There is no block on the line.
  have hcolon : ∀ t ∈ tail.head?, t.kind ≠ .colon := fun t ht => by rw [helse t ht]; decide
  apply carries_bind (carries_takeOnLine? hwithin hcolon)
  rintro o o' d d' - hnext
  apply carries_read
  cases hend : d.atEnd with
  | true =>
    intro s x hs
    have hended : d.endsStatement = true := by rw [Cursor.endsStatement, hend, Bool.true_or]
    rw [hended, if_pos rfl, indentedBlock, bind_eq_ok (read_apply _ _), hend] at hs
    cases hs
  | false =>
    have hgoes : d.endsStatement = false := by rw [Cursor.endsStatement, hend, hnext.goesOn hend]; rfl
    have hgoes' : d'.endsStatement = false :=
      (hnext.endsStatement_eq fun h => by rw [hend] at h; cases h).trans hgoes
    rw [hgoes, hgoes', if_neg Bool.false_ne_true, if_neg Bool.false_ne_true]
    exact h d d' hnext.toAlong

theorem carries_defStatement (h : CarriedHere tail p) (hwithin : Within tail c c')
    (header header' n : Nat) :
    Carries tail Eq (defStatement p header n) (defStatement p header' n) c c' := by
  apply carries_bind (carries_expect hwithin _ rfl)
  rintro name name' d d' hname hnext
  rw [hname.lexeme]
  apply carries_bind (carries_expect hnext _ rfl)
  rintro o o' d₁ d₁' - hnext₁
  apply carries_bind (carried_untilParen (carried_parameters name.lexeme n []) _ d₁ d₁' hnext₁)
  rintro names _ d₂ d₂' rfl hnext₂
  apply carries_bind (carries_body helse h hnext₂ _ _ header header' n)
  rintro s _ d₃ d₃' rfl hnext₃
  exact carries_pure hnext₃ rfl

end Bodies

theorem carries_ifStatement (h : CarriedHere [] p) (hwithin : Within [] c c') (header header' n : Nat) :
    Carries [] Eq (ifStatement p header n) (ifStatement p header' n) c c' := by
  have hnothing : ∀ t ∈ ([] : List Token).head?, t.kind = .elseKeyword := nofun
  apply carries_bind (carried_expression n c c' hwithin)
  rintro condition _ d d' rfl hnext
  apply carries_bind (carries_body hnothing h hnext _ _ header header' n)
  rintro thenBranch _ d₁ d₁' rfl hnext₁
  refine carries_bind (R := Option.Rel Token.Says) (carries_take? hnext₁ (fun t u hsame hend => ?_) nofun) ?_
  · rw [hsame.kind, hnext₁.goesOn hend, hnext₁.goesOn' (hnext₁.atEnd_eq hend)]
    simp only [true_or, and_true]
    split
    · exact .some hsame
    · exact .none
  · rintro o o' d₂ d₂' hrel hnext₂
    cases hrel with
    | none => exact carries_pure hnext₂ rfl
    | some hsame =>
      apply carries_bind (carries_body hnothing h hnext₂ _ _ _ _ n)
      rintro elseBranch _ d₃ d₃' rfl hnext₃
      exact carries_pure hnext₃ rfl

section Statements

variable (helse : ∀ t ∈ tail.head?, t.kind = .elseKeyword)
include helse

theorem carriedHere_openStatement (h : CarriedHere tail p) (n : Nat) :
    CarriedHere tail (openStatement p n) := by
  intro c c' halong
  refine carries_takeHere (R := Token.Says) halong (fun t u hsame _ => ?_) (fun t ht => ?_)
    (carriedHere_plainStatement n c c' halong) ?_
  · rw [hsame.kind]
    split
    · exact .some hsame
    · exact .none
  · rw [helse t ht]
    rfl
  · rintro t ts a u hahead ha hsame hnext
    obtain ⟨hbegins, rfl⟩ : beginsStatement t.kind = true ∧ t = a := by simpa using ha
    have hmem : t ∈ c.ahead := by rw [hahead]; exact List.mem_cons_self
    have hend (hkind : t.kind = .print ∨ t.kind = .returnKeyword) (hend : c.advance.atEnd = true) :
        tail = [] := by
      apply hnext.toAlong.tail_eq_nil_of_last helse _ hkind
      rw [advance_of_cons hahead] at hend ⊢
      rw [List.isEmpty_iff.1 hend]
      rfl
    dsimp only
    rw [hsame.kind]
    split
    next hkind => exact carries_printStatement hnext (hend (.inl hkind)) n
    next hkind =>
      obtain rfl := halong.tail_eq_nil_of_if helse hmem hkind
      exact carries_ifStatement h hnext _ _ n
    next => exact carries_defStatement helse h hnext _ _ n
    next hprint hif hdef =>
      have hkind : t.kind = .returnKeyword := by
        cases hkind : t.kind <;> rw [hkind] at hbegins <;> first | rfl | contradiction
      exact carries_returnStatement hnext (hend (.inr hkind)) n

theorem carries_endOfStatement (hwithin : Within tail c c') :
    Carries tail Eq endOfStatement endOfStatement c c' := by
  apply carries_read
  have hended (h : (c.endsStatement || c.nextIs .elseKeyword) = true) :
      (c'.endsStatement || c'.nextIs .elseKeyword) = true := by
    obtain ⟨t, ts, u, us, hahead, hahead', hsame, -⟩ | ⟨hahead, hahead'⟩ := hwithin.toAlong.cases
    · have hend : c.atEnd = false := by rw [Cursor.atEnd, hahead]; rfl
      rw [Cursor.endsStatement, hend, hwithin.goesOn hend, Cursor.nextIs, hahead] at h
      have hkind : t.kind = .elseKeyword := of_decide_eq_true h
      have hnext : c'.nextIs .elseKeyword = true := by
        rw [Cursor.nextIs, hahead']
        exact decide_eq_true (hsame.kind.trans hkind)
      rw [hnext, Bool.or_true]
    · cases tail with
      | nil => rw [Cursor.endsStatement, Cursor.atEnd, hahead']; rfl
      | cons u us =>
        have hnext : c'.nextIs .elseKeyword = true := by
          rw [Cursor.nextIs, hahead']
          exact decide_eq_true (helse u rfl)
        rw [hnext, Bool.or_true]
  cases hc : c.endsStatement || c.nextIs .elseKeyword with
  | true =>
    rw [hended hc]
    exact carries_pure hwithin rfl
  | false =>
    intro _ d hd
    cases hd

theorem carriedHere_statement (n : Nat) : CarriedHere tail (statement n) := by
  induction n with
  | zero => exact fun c c' _ => carries_stuck
  | succ n ih =>
    intro c c' halong
    apply carries_bind (carriedHere_openStatement helse ih (n + 1) c c' halong)
    rintro s _ d d' rfl hnext
    apply carries_bind (carries_endOfStatement helse hnext)
    rintro _ _ d₁ d₁' - hnext₁
    exact carries_pure hnext₁ rfl

end Statements

end Parser

section Line

variable {cs ss ts us : List Token} {e : Expression} {s r : Statement}

theorem settles_statement_of_ofTokens (h : Statement.ofTokens ts = .ok (.block [s])) :
    ∃ d, Settles Parser.statement (.ofTokens ts) (.ok s) d ∧ d.atEnd = true ∧
      (Cursor.ofTokens ts).atEnd = false := by
  obtain ⟨d, hread, hd⟩ := Cursor.exists_readTo_of_program (fun _ => rfl) h
  cases hread with
  | step hend hnext hrest =>
    cases hrest with
    | refl =>
      have hfit := Cursor.fit_of_topLevelStatement hend hnext
      exact ⟨d, Cursor.settles_statement_of_within hend hfit hnext, hd, hend⟩

theorem Cursor.program_of_statement (h : Settles Parser.statement c (.ok s) d)
    (hc : c.atEnd = false) (hd : d.atEnd = true) : c.program = (.ok (.block [s]), d) := by
  have hlines : Lines c.position.column c (.ok [s]) d :=
    lines_step (fit_position hc) h (lines_behind (fit_of_atEnd hd))
  apply program_of_settles
  apply Settles.bind (.of_forall fun _ => read_apply _ _)
  apply hlines.bind
  apply Settles.bind (.of_forall fun _ => read_apply _ _)
  rw [hd]
  exact .pure _

theorem Along.ahead_of_atEnd (h : Along tail d d') (hd : d.atEnd = true) : d'.ahead = tail := by
  obtain ⟨t, ts, -, -, hahead, -⟩ | ⟨-, hahead'⟩ := h.cases
  · rw [Cursor.atEnd, hahead] at hd
    cases hd
  · exact hahead'

section Places

variable {previous : Option Token} {finish : Position} {o : Token}
  (hwords : List.Forall₂ Token.Says c.ahead cs) (hline : c.ahead.IsChain Token.Joins)
include hwords hline

theorem along_colon (hline' : (cs ++ o :: us).IsChain Token.Joins) (ho : o.kind = .colon) :
    Along (o :: us) c ⟨previous, cs ++ o :: us, finish⟩ := by
  refine ⟨⟨cs, hwords, rfl⟩, hline, hline', ?_, ?_⟩
  · rintro _ ⟨⟩
    rw [ho]
    rfl
  · rintro ⟨_, ⟨⟩, hkind⟩
    rw [ho] at hkind
    cases hkind

theorem along_else (hline' : (cs ++ o :: us).IsChain Token.Joins) (ho : o.kind = .elseKeyword)
    (hnoIf : ∀ t ∈ c.ahead, t.kind ≠ .ifKeyword)
    (hlast : ∀ t ∈ lastOf c.previous c.ahead, t.kind ≠ .print ∧ t.kind ≠ .returnKeyword) :
    Along (o :: us) c ⟨previous, cs ++ o :: us, finish⟩ := by
  refine ⟨⟨cs, hwords, rfl⟩, hline, hline', ?_, fun _ => ⟨hnoIf, hlast⟩⟩
  rintro _ ⟨⟩
  rw [ho]
  rfl

theorem along_end (hline' : cs.IsChain Token.Joins) : Along [] c ⟨previous, cs, finish⟩ := by
  refine ⟨⟨cs, hwords, (List.append_nil cs).symm⟩, hline, hline', ?_, ?_⟩
  · rintro _ ⟨⟩
  · rintro ⟨_, ⟨⟩, -⟩

end Places

theorem settles_expression_of_along {n : Nat} {i : Token} {finish : Position}
    (h : Parser.expressionHere n c = some (.ok e, d)) (hd : d.atEnd = true)
    (halong : Along tail c ⟨some i, us, finish⟩)
    (hstarts : (Cursor.mk (some i) us finish).startsLine = false) :
    ∃ d', Settles Parser.expression ⟨some i, us, finish⟩ (.ok e) d' ∧ d'.ahead = tail ∧
      (d'.atEnd = false → d'.startsLine = false) := by
  obtain ⟨_, d', hread, rfl, hwithin⟩ := Parser.carriedHere_expressionHere n c _ halong e d h
  refine ⟨d', ?_, hwithin.ahead_of_atEnd hd, hwithin.goesOn'⟩
  apply Settles.of_le Parser.expression_le
  rw [Parser.expression, Parser.operandOnLine_apply hstarts]
  exact hread

theorem settles_body_of_along {o : Token} {previous : Option Token} {finish : Position}
    (h : Settles Parser.statement c (.ok s) d) (hc : c.atEnd = false) (hd : d.atEnd = true)
    (halong : Along tail c ⟨some o, us, finish⟩) (helse : ∀ t ∈ tail.head?, t.kind = .elseKeyword)
    (ho : o.kind = .colon) (hline : (o :: us).IsChain Token.Joins)
    (hstarts : (Cursor.mk previous (o :: us) finish).startsLine = false) (construct : Construct)
    (header : Nat) : ∃ d', Settles (fun n => Parser.body (Parser.statement n) construct header n)
      ⟨previous, o :: us, finish⟩ (.ok s) d' ∧ d'.ahead = tail ∧
        (d'.atEnd = false → d'.startsLine = false) := by
  obtain ⟨n, hn⟩ := h.exists
  obtain ⟨_, d', hread, rfl, hwithin⟩ := Parser.carriedHere_statement helse n c _ halong s d hn
  refine ⟨d', ?_, hwithin.ahead_of_atEnd hd, hwithin.goesOn'⟩
  have hend : (Cursor.mk (some o) us finish).atEnd = false := halong.atEnd_eq hc
  have hinline : (Cursor.mk (some o) us finish).endsStatement = false := by
    rw [Cursor.endsStatement, hend, startsLine_behind_one hline hend]
    rfl
  apply Settles.bind (.of_forall fun _ => Parser.takeOnLine?_apply ho hstarts)
  apply Settles.bind (.of_forall fun _ => read_apply _ _)
  rw [hinline]
  exact .of_le Parser.statement_le hread

/-- A line with `if`, the words of the first list, a colon, those of the second one, `else`, a colon and
those of the third one. -/
inductive InlineBranches (cs ss ts : List Token) : List Token → Prop where
  | line {i o l o' : Token} {cs' ss' ts' : List Token} (hif : i.kind = .ifKeyword)
      (hcs : List.Forall₂ Token.Says cs cs') (ho : o.kind = .colon)
      (hss : List.Forall₂ Token.Says ss ss') (helse : l.kind = .elseKeyword) (ho' : o'.kind = .colon)
      (hts : List.Forall₂ Token.Says ts ts')
      (hline : (i :: (cs' ++ o :: (ss' ++ l :: o' :: ts'))).IsChain Token.Joins) :
      InlineBranches cs ss ts (i :: (cs' ++ o :: (ss' ++ l :: o' :: ts')))

theorem InlineBranches.ne_nil (h : InlineBranches cs ss ts us) : us ≠ [] := by
  cases h
  exact List.cons_ne_nil _ _

theorem InlineBranches.settles_statement {n : Nat} {c₁ c₂ c₃ d₁ d₂ d₃ : Cursor} (finish : Position)
    (hus : InlineBranches c₁.ahead c₂.ahead c₃.ahead us)
    (hcondition : Parser.expressionHere n c₁ = some (.ok e, d₁)) (hd₁ : d₁.atEnd = true)
    (hthen : Settles Parser.statement c₂ (.ok s) d₂) (hc₂ : c₂.atEnd = false) (hd₂ : d₂.atEnd = true)
    (helse : Settles Parser.statement c₃ (.ok r) d₃) (hc₃ : c₃.atEnd = false) (hd₃ : d₃.atEnd = true)
    (hline₁ : c₁.ahead.IsChain Token.Joins) (hline₂ : c₂.ahead.IsChain Token.Joins)
    (hline₃ : c₃.ahead.IsChain Token.Joins) (hnoIf : ∀ t ∈ c₂.ahead, t.kind ≠ .ifKeyword)
    (hlast : ∀ t ∈ lastOf c₂.previous c₂.ahead, t.kind ≠ .print ∧ t.kind ≠ .returnKeyword) :
    ∃ d, Settles Parser.statement ⟨none, us, finish⟩ (.ok (.ifElse e s (some r))) d ∧
      d.atEnd = true := by
  obtain @⟨i, o, l, o', cs, ss, ts, hif, hcs, ho, hss, hl, ho', hts, hline⟩ := hus
  have hafterIf := hline.tail
  have hcolon : (o :: (ss ++ l :: o' :: ts)).IsChain Token.Joins := hafterIf.right_of_append
  have hafterColon := hcolon.tail
  have hafterThen : (l :: o' :: ts).IsChain Token.Joins := hafterColon.right_of_append
  have hafterElse := hafterThen.tail
  obtain ⟨⟨p₁, _, f₁⟩, hreadCondition, rfl, hgoes₁⟩ := settles_expression_of_along hcondition hd₁
    (along_colon hcs hline₁ hafterIf ho) (startsLine_behind_one hline (by simp [Cursor.atEnd]))
  have helseNext : ∀ t ∈ (l :: o' :: ts).head?, t.kind = .elseKeyword := by
    rintro _ ⟨⟩
    exact hl
  obtain ⟨⟨p₂, _, f₂⟩, hreadThen, rfl, hgoes₂⟩ := settles_body_of_along hthen hc₂ hd₂
    (along_else hss hline₂ hafterColon hl hnoIf hlast) helseNext ho hcolon (hgoes₁ rfl) .ifBranch
    i.span.column
  have hjoins : l.Joins o' := (List.isChain_cons_cons.1 hafterThen).1
  obtain ⟨d, hreadElse, hd, -⟩ := settles_body_of_along helse hc₃ hd₃
    (along_end hts hline₃ hafterElse.tail) (by rintro _ ⟨⟩) ho' hafterElse
    (Cursor.startsLine_of_joins hjoins) .elseBranch l.span.column
  have hend : d.atEnd = true := by
    rw [Cursor.atEnd, hd]
    rfl
  refine ⟨d, settles_keyword hif rfl (by rw [Cursor.endsStatement, hend]; rfl) ?_, hend⟩
  apply Settles.bind hreadCondition
  apply Settles.bind hreadThen
  apply Settles.bind (.of_forall fun _ => Parser.takeElse?_apply hl (.inl (hgoes₂ rfl)))
  apply Settles.bind hreadElse
  exact .pure _

theorem exists_last_of_says {ws : List Token} {v : Token} (h : List.Forall₂ Token.Says (us ++ [v]) ws) :
    ∃ xs w, ws = xs ++ [w] ∧ v.Says w := by
  rw [← List.forall₂_reverse_iff, List.reverse_append] at h
  obtain ⟨w, xs, hsame, -, hws⟩ := List.forall₂_cons_left_iff.1 h
  exact ⟨xs.reverse, w, by rw [← List.reverse_inj, hws]; simp, hsame⟩

theorem InlineBranches.last {v : Token} (h : InlineBranches cs ss ts us) (hv : v ∈ ss.getLast?) :
    ∃ xs w l ws, us = xs ++ w :: l :: ws ∧ w.kind = v.kind ∧ l.kind = .elseKeyword ∧ w.Joins l := by
  obtain ⟨vs, rfl⟩ := List.getLast?_eq_some_iff.1 hv
  obtain @⟨i, o, l, o', cs, ss, ts, -, -, -, hss, hl, -, -, hline⟩ := h
  obtain ⟨xs, w, rfl, hsame⟩ := exists_last_of_says hss
  refine ⟨i :: (cs ++ o :: xs), w, l, o' :: ts, by simp, hsame.kind, hl, ?_⟩
  have hrest : (xs ++ [w] ++ l :: o' :: ts).IsChain Token.Joins := hline.tail.right_of_append.tail
  rw [List.append_assoc, List.singleton_append] at hrest
  exact (List.isChain_cons_cons.1 hrest.right_of_append).1

end Line

end Grammar

namespace Statement

open Grammar

variable {cs ss ts us : List Token} {e : Expression} {s r : Statement} {n : Nat} {d : Cursor}

/-- A line with an expression as the condition of an `if` and statements as both branches, the first of
them without an `if` in it, reads as they do on lines of their own, unless the first one ends with `print` or
`return`. Then the line is no program. -/
theorem ofTokens_inlineBranches
    (hcondition : Parser.expressionHere n (.ofTokens cs) = some (.ok e, d)) (hd : d.atEnd = true)
    (hthen : ofTokens ss = .ok (.block [s])) (helse : ofTokens ts = .ok (.block [r]))
    (hlines : ∀ vs ∈ [cs, ss, ts], (Cursor.ofTokens vs).ahead.IsChain Token.Joins)
    (hnoIf : ∀ t ∈ (Cursor.ofTokens ss).ahead, t.kind ≠ .ifKeyword)
    (hus : InlineBranches (Cursor.ofTokens cs).ahead (Cursor.ofTokens ss).ahead
      (Cursor.ofTokens ts).ahead (Cursor.ofTokens us).ahead) :
    if ∃ t ∈ (Cursor.ofTokens ss).ahead.getLast?, t.kind = .print ∨ t.kind = .returnKeyword then
      ∃ error, ofTokens us = .error error
    else ofTokens us = .ok (.block [.ifElse e s (some r)]) := by
  split
  next hbare =>
    obtain ⟨v, hv, hkind⟩ := hbare
    obtain ⟨xs, w, l, ws, hsplit, hw, hl, hjoins⟩ := hus.last hv
    cases hread : ofTokens us with
    | error error => exact ⟨error, rfl⟩
    | ok root =>
      have hbare : isBare w.kind = true := by rw [hw]; rcases hkind with h | h <;> rw [h] <;> rfl
      exact absurd hjoins (lt_of_bare hread hsplit hbare hl).ne'
  next hlast =>
    obtain ⟨d₂, hreadThen, hd₂, hc₂⟩ := settles_statement_of_ofTokens hthen
    obtain ⟨d₃, hreadElse, hd₃, hc₃⟩ := settles_statement_of_ofTokens helse
    have hoperands : ∀ t ∈ lastOf none (Cursor.ofTokens ss).ahead,
        t.kind ≠ .print ∧ t.kind ≠ .returnKeyword := by
      rw [lastOf_none]
      exact fun t ht => not_or.1 fun hkind => hlast ⟨t, ht, hkind⟩
    obtain ⟨c, hread, hc⟩ := hus.settles_statement (Cursor.ofTokens us).finish hcondition hd
      hreadThen hc₂ hd₂ hreadElse hc₃ hd₃ (hlines cs (by simp)) (hlines ss (by simp))
      (hlines ts (by simp)) hnoIf hoperands
    have hstart : (Cursor.ofTokens us).atEnd = false := List.isEmpty_eq_false_iff.2 hus.ne_nil
    exact congrArg Prod.fst (Cursor.program_of_statement hread hstart hc)

def branchesOnLine : List Token :=
  [⟨.ifKeyword, "if", ⟨0, 2, 1, 0, 1⟩⟩, ⟨.identifier, "a", ⟨3, 4, 1, 3, 1⟩⟩,
    ⟨.colon, ":", ⟨4, 5, 1, 4, 1⟩⟩, ⟨.defKeyword, "def", ⟨6, 9, 1, 6, 1⟩⟩,
    ⟨.identifier, "f", ⟨10, 11, 1, 10, 1⟩⟩, ⟨.lparen, "(", ⟨11, 12, 1, 11, 1⟩⟩,
    ⟨.rparen, ")", ⟨12, 13, 1, 12, 1⟩⟩, ⟨.colon, ":", ⟨13, 14, 1, 13, 1⟩⟩,
    ⟨.print, "print", ⟨15, 20, 1, 15, 1⟩⟩, ⟨.identifier, "b", ⟨21, 22, 1, 21, 1⟩⟩,
    ⟨.elseKeyword, "else", ⟨23, 27, 1, 23, 1⟩⟩, ⟨.colon, ":", ⟨27, 28, 1, 27, 1⟩⟩,
    ⟨.returnKeyword, "return", ⟨29, 35, 1, 29, 1⟩⟩]

theorem ofTokens_inlineBranches_function : ofTokens branchesOnLine =
    .ok (.block [.ifElse (.var "a") (.define "f" [] (.print [.var "b"])) (some (.giveBack none))]) := by
  have hcondition : Parser.expressionHere 2 (.ofTokens [⟨.identifier, "a", ⟨0, 1, 1, 0, 1⟩⟩]) =
      some (.ok (.var "a"), ⟨some ⟨.identifier, "a", ⟨0, 1, 1, 0, 1⟩⟩, [], ⟨1, 1⟩⟩) := rfl
  have hthen : ofTokens [⟨.defKeyword, "def", ⟨0, 3, 1, 0, 1⟩⟩, ⟨.identifier, "f", ⟨4, 5, 1, 4, 1⟩⟩,
      ⟨.lparen, "(", ⟨5, 6, 1, 5, 1⟩⟩, ⟨.rparen, ")", ⟨6, 7, 1, 6, 1⟩⟩, ⟨.colon, ":", ⟨7, 8, 1, 7, 1⟩⟩,
      ⟨.print, "print", ⟨9, 14, 1, 9, 1⟩⟩, ⟨.identifier, "b", ⟨15, 16, 1, 15, 1⟩⟩] =
      .ok (.block [.define "f" [] (.print [.var "b"])]) := by rfl
  have helse : ofTokens [⟨.returnKeyword, "return", ⟨0, 6, 1, 0, 1⟩⟩] =
      .ok (.block [.giveBack none]) := rfl
  have hsame {kind : TokenKind} {lexeme : String} (at₁ at₂ : Span) :
      Token.Says ⟨kind, lexeme, at₁⟩ ⟨kind, lexeme, at₂⟩ := ⟨rfl, rfl⟩
  apply (if_neg (by decide)).mp (ofTokens_inlineBranches hcondition rfl hthen helse ?_ ?_ ?_)
  · simp [Cursor.ofTokens, Token.Joins]
  · decide
  · refine @InlineBranches.line _ _ _ _ ⟨.colon, ":", ⟨4, 5, 1, 4, 1⟩⟩ _ _ [_] [_, _, _, _, _, _, _] [_]
      rfl ?_ rfl ?_ rfl rfl ?_ (by simp [Token.Joins]) <;>
    simp [hsame, Cursor.ofTokens]

def bareBranch : List Token :=
  [⟨.ifKeyword, "if", ⟨0, 2, 1, 0, 1⟩⟩, ⟨.identifier, "a", ⟨3, 4, 1, 3, 1⟩⟩,
    ⟨.colon, ":", ⟨4, 5, 1, 4, 1⟩⟩, ⟨.print, "print", ⟨6, 11, 1, 6, 1⟩⟩,
    ⟨.elseKeyword, "else", ⟨12, 16, 1, 12, 1⟩⟩, ⟨.colon, ":", ⟨16, 17, 1, 16, 1⟩⟩,
    ⟨.print, "print", ⟨18, 23, 1, 18, 1⟩⟩, ⟨.integer, "2", ⟨24, 25, 1, 24, 1⟩⟩,
    ⟨.eof, "", ⟨25, 25, 1, 25, 1⟩⟩]

/-- A `print` without operands takes the `else` for one. -/
theorem not_ofTokens_inlineBranches_bare :
    Token.tokenize "if a: print else: print 2" = .ok bareBranch ∧
      ofTokens bareBranch =
        .error ⟨.unexpectedToken .expression (.token .elseKeyword "else"), ⟨1, 12⟩⟩ ∧
      ¬ ∀ (cs ss ts us : List Token) (e : Expression) (s r : Statement) (n : Nat) (d : Cursor),
        Parser.expressionHere n (.ofTokens cs) = some (.ok e, d) → d.atEnd = true →
        ofTokens ss = .ok (.block [s]) → ofTokens ts = .ok (.block [r]) →
        (∀ vs ∈ [cs, ss, ts], (Cursor.ofTokens vs).ahead.IsChain Token.Joins) →
        (∀ t ∈ (Cursor.ofTokens ss).ahead, t.kind ≠ .ifKeyword) →
        InlineBranches (Cursor.ofTokens cs).ahead (Cursor.ofTokens ss).ahead
          (Cursor.ofTokens ts).ahead (Cursor.ofTokens us).ahead →
        ofTokens us = .ok (.block [.ifElse e s (some r)]) := by
  have hrejected : ofTokens bareBranch =
      .error ⟨.unexpectedToken .expression (.token .elseKeyword "else"), ⟨1, 12⟩⟩ := by rfl
  refine ⟨by cbv, hrejected, fun h => ?_⟩
  -- The parts are taken where they stand on the line.
  have hsame (t : Token) : t.Says t := ⟨rfl, rfl⟩
  have hread := h ((bareBranch.drop 1).take 1) ((bareBranch.drop 3).take 1) (bareBranch.drop 6)
    bareBranch (.var "a") (.print []) (.print [.integer 2]) 2 _ rfl rfl rfl rfl
    (by simp [bareBranch, Cursor.ofTokens, Token.Joins]) (by decide)
    (.line rfl (List.forall₂_same.2 fun t _ => hsame t) rfl (List.forall₂_same.2 fun t _ => hsame t) rfl
      rfl (List.forall₂_same.2 fun t _ => hsame t)
      (by simp [bareBranch, Cursor.ofTokens, Token.Joins]))
  rw [hrejected] at hread
  cases hread

end Statement

end IntScript
