import IntScript.Proofs.Grammar.LineStarts

/-!
# No `else` behind a bare keyword

A `print` or a `return` with something behind it on its line has operands. No operand begins with `else`, so
in a program none of the two stands directly in front of an `else` on the same line.
-/

namespace IntScript

namespace Grammar

open IntScript.Action

/-- Kinds of words that are statements of their own but may have operands. -/
def isBare : TokenKind → Bool
  | .print | .returnKeyword => true
  | _ => false

section Derived

variable {α : Type} {N : Nonterminal α} {ts : List Token} {a : α}

theorem Level.isBare_operator {l : Level} {kind : TokenKind} {op : BinaryOperator}
    (h : l.operator? kind = some op) : isBare kind = false := by
  cases l with
  | comparison => cases kind <;> first | rfl | cases h
  | sum => cases kind <;> first | rfl | cases h
  | product => cases kind <;> first | rfl | cases h

theorem derives_not_bare (h : Derives N ts a) : ∀ t ∈ ts, isBare t.kind = false := by
  induction h with
  | assign ht hs _ ih => simpa [ht, hs, isBare] using ih
  | expression _ ih => exact ih
  | binary _ ho _ ihleft ihright =>
    rw [List.forall_mem_append, List.forall_mem_cons]
    exact ⟨ihleft, Level.isBare_operator ho, ihright⟩
  | operand _ ih => exact ih
  | negate ht _ ih => simpa [ht, isBare] using ih
  | unary _ ih => exact ih
  | integer ht _ => simp [ht, isBare]
  | text ht => simp [ht, isBare]
  | var ht => simp [ht, isBare]
  | callEmpty ht ho hc => simp [ht, ho, hc, isBare]
  | call ht ho _ hc ih =>
    simp only [List.forall_mem_cons, List.forall_mem_append]
    simpa [ht, ho, hc, isBare] using ih
  | parens ho _ hc ih =>
    simp only [List.forall_mem_cons, List.forall_mem_append]
    simpa [ho, hc, isBare] using ih
  | item _ ih => exact ih
  | items _ hc _ ih ihrest =>
    rw [List.forall_mem_append, List.forall_mem_cons]
    exact ⟨ih, by simp [hc, isBare], ihrest⟩

end Derived

theorem suffix_of_append {α : Type} {a : α} {as bs cs : List α} (h : a :: as <:+ bs ++ cs)
    (hnot : a ∉ bs) : a :: as <:+ cs := by
  induction bs with
  | nil => exact h
  | cons b bs ih =>
    rw [List.cons_append, List.suffix_cons_iff] at h
    obtain heq | hsuffix := h
    · cases heq
      exact absurd List.mem_cons_self hnot
    · exact ih hsuffix fun hmem => hnot (List.mem_cons_of_mem b hmem)

namespace Parser

variable {α β : Type} {word : Token} {ws : List Token}

/-- In front of a word, nothing is read that reaches over it. -/
def StaysBefore (word : Token) (ws : List Token) (p : Parser α) : Prop :=
  ∀ c a d, word :: ws <:+ c.ahead → p c = some (.ok a, d) → word :: ws <:+ d.ahead

theorem stays_pure (a : α) : StaysBefore word ws (pure a) := by
  intro c b d hws h
  cases h
  exact hws

theorem stays_stuck : StaysBefore word ws (stuck : Parser α) := by
  intro c a d _ h
  cases h

theorem stays_fail (e : SyntaxError) : StaysBefore word ws (fail e : Parser α) := by
  intro c a d _ h
  cases h

theorem stays_unexpected (expected : Expectation) :
    StaysBefore word ws (unexpected expected : Parser α) := by
  intro c a d _ h
  cases h

theorem stays_failHere (fault : Fault) : StaysBefore word ws (failHere fault : Parser α) := by
  intro c a d _ h
  cases h

theorem stays_bind {q : Parser β} {f : β → Parser α} (hq : StaysBefore word ws q)
    (hf : ∀ b, StaysBefore word ws (f b)) : StaysBefore word ws (q >>= f) := by
  intro c a d hws h
  rcases bind_eq_some_iff.1 h with ⟨e, -, he⟩ | ⟨b, x, hb, ha⟩
  · cases he
  · exact hf b x a d (hq c b x hws hb) ha

theorem stays_read (f : Cursor → α) : StaysBefore word ws (Action.read f) := by
  intro c a d hws h
  cases h
  exact hws

theorem stays_unlessEnd {items : Parser α} (h : StaysBefore word ws items) :
    StaysBefore word ws (unlessEnd items) := by
  refine stays_bind (stays_read _) fun b => ?_
  cases b with
  | false => exact stays_bind h fun a => stays_pure _
  | true => exact stays_pure _

theorem stays_endOfStatement : StaysBefore word ws endOfStatement := by
  refine stays_bind (stays_read _) fun b => ?_
  cases b with
  | false => exact stays_unexpected _
  | true => exact stays_pure _

theorem stays_linesAt {p : Parser Statement} (h : StaysBefore word ws p) (column n : Nat) :
    StaysBefore word ws (linesAt p column n) := by
  induction n with
  | zero => exact stays_stuck
  | succ n ih =>
    refine stays_bind (stays_read _) fun fit => ?_
    cases fit with
    | within => exact stays_bind h fun s => stays_bind ih fun ss => stays_pure _
    | behind => exact stays_pure _
    | deeper => exact stays_failHere _

section Bare

variable (hbare : isBare word.kind = true)
include hbare

theorem stays_of_takes {p : Parser α}
    (h : ∀ c, Takes p c fun ts _ => ∀ t ∈ ts, isBare t.kind = false) : StaysBefore word ws p := by
  intro c a d hws hp
  obtain ⟨ts, hpass, hts⟩ := h c a d hp
  rw [hpass.ahead] at hws
  refine suffix_of_append hws fun hmem => ?_
  rw [hts word hmem] at hbare
  cases hbare

theorem stays_take? {f : Cursor → Token → Option α}
    (hf : ∀ c t a, f c t = some a → isBare t.kind = false) : StaysBefore word ws (take? f) := by
  refine stays_of_takes hbare fun c => (takes_take? f).mono ?_
  rintro ts o (⟨-, rfl⟩ | ⟨t, a, rfl, -, ha, -⟩)
  · exact List.forall_mem_nil _
  · exact List.forall_mem_singleton.2 (hf c t a ha)

theorem stays_accept {kind : TokenKind} (hkind : isBare kind = false) :
    StaysBefore word ws (accept kind) := by
  refine stays_bind (stays_take? hbare fun c t a ha => ?_) fun o => stays_pure _
  rw [(Option.ite_none_right_eq_some.1 ha).1]
  exact hkind

theorem stays_takeOnLine? {kind : TokenKind} (hkind : isBare kind = false) :
    StaysBefore word ws (takeOnLine? kind) := by
  refine stays_take? hbare fun c t a ha => ?_
  rw [(Option.ite_none_right_eq_some.1 ha).1.1]
  exact hkind

theorem stays_expect {kind : TokenKind} (hkind : isBare kind = false) (expected : Expectation) :
    StaysBefore word ws (expect kind expected) := by
  refine stays_bind (stays_takeOnLine? hbare hkind) fun o => ?_
  cases o with
  | none => exact stays_unexpected _
  | some t => exact stays_pure t

theorem stays_takeElse? (column : Nat) : StaysBefore word ws (takeElse? column) := by
  refine stays_take? hbare fun c t a ha => ?_
  rw [(Option.ite_none_right_eq_some.1 ha).1.1]
  rfl

theorem stays_takeTarget : StaysBefore word ws takeTarget := by
  refine stays_of_takes hbare fun c => takes_takeTarget.mono ?_
  rintro ts o (⟨-, rfl⟩ | ⟨t, s, rfl, ht, hs, -, -⟩)
  · exact List.forall_mem_nil _
  · simp [ht, hs, isBare]

theorem stays_expressionHere (n : Nat) : StaysBefore word ws (expressionHere n) :=
  stays_of_takes hbare fun c =>
    (readsOffHere_expressionHere n c).mono fun _ _ h => derives_not_bare h.1

theorem stays_expression (n : Nat) : StaysBefore word ws (expression n) :=
  stays_of_takes hbare fun c => (readsOff_expression n c).mono fun _ _ h => derives_not_bare h.1

theorem stays_items (n : Nat) : StaysBefore word ws (commaSeparated (expression n) n) :=
  stays_of_takes hbare fun c =>
    (readsOff_commaSeparated (readsOff_expression n) n c).mono fun _ _ h => derives_not_bare h.1

theorem stays_untilParen {items : Parser (List α)} (h : StaysBefore word ws items)
    (expected : Expectation) : StaysBefore word ws (untilParen items expected) := by
  have hitems : StaysBefore word ws (unlessParen items) := by
    refine stays_bind (stays_read _) fun b => ?_
    cases b with
    | false => exact h
    | true => exact stays_pure _
  exact stays_bind hitems fun as => stays_bind (stays_expect hbare rfl _) fun _ => stays_pure as

theorem stays_parameters (function : String) (n : Nat) (seen : List String) :
    StaysBefore word ws (parameters function n seen) := by
  induction n generalizing seen with
  | zero => exact stays_stuck
  | succ n ih =>
    refine stays_bind (stays_expect hbare rfl _) fun t => ?_
    split
    · exact stays_fail _
    · refine stays_bind (stays_accept hbare rfl) fun b => ?_
      cases b with
      | false => exact stays_pure _
      | true => exact stays_bind (ih _) fun names => stays_pure _

theorem stays_printStatement (n : Nat) : StaysBefore word ws (printStatement n) :=
  stays_bind (stays_unlessEnd (stays_items hbare n)) fun _ => stays_pure _

theorem stays_returnStatement (n : Nat) : StaysBefore word ws (returnStatement n) :=
  stays_bind (stays_unlessEnd (stays_expression hbare n)) fun _ => stays_pure _

theorem stays_plainStatement (n : Nat) : StaysBefore word ws (plainStatement n) := by
  refine stays_bind (stays_takeTarget hbare) fun o => ?_
  cases o with
  | none => exact stays_bind (stays_expressionHere hbare n) fun e => stays_pure _
  | some name => exact stays_bind (stays_expression hbare n) fun e => stays_pure _

section Statements

variable {p : Parser Statement} (h : StaysBefore word ws p)
include h

theorem stays_body (construct : Construct) (header n : Nat) :
    StaysBefore word ws (body p construct header n) := by
  refine stays_bind (stays_takeOnLine? hbare rfl) fun _ => stays_bind (stays_read _) fun b => ?_
  cases b with
  | false => exact h
  | true =>
    refine stays_bind (stays_read _) fun shallow => ?_
    cases shallow with
    | true => exact stays_failHere _
    | false =>
      exact stays_bind (stays_read _) fun column =>
        stays_bind (stays_linesAt h column n) fun ss => stays_pure _

theorem stays_ifStatement (header n : Nat) : StaysBefore word ws (ifStatement p header n) := by
  refine stays_bind (stays_expression hbare n) fun condition =>
    stays_bind (stays_body hbare h _ _ n) fun thenBranch =>
      stays_bind (stays_takeElse? hbare header) fun o => ?_
  cases o with
  | none => exact stays_pure _
  | some t => exact stays_bind (stays_body hbare h _ _ n) fun elseBranch => stays_pure _

theorem stays_defStatement (header n : Nat) : StaysBefore word ws (defStatement p header n) :=
  stays_bind (stays_expect hbare rfl _) fun name => stays_bind (stays_expect hbare rfl _) fun _ =>
    stays_bind (stays_untilParen hbare (stays_parameters hbare name.lexeme n []) _) fun _ =>
      stays_bind (stays_body hbare h _ _ n) fun _ => stays_pure _

theorem stays_afterKeyword (column n : Nat) (kind : TokenKind) :
    StaysBefore word ws (afterKeyword p column n kind) := by
  cases kind with
  | print => exact stays_printStatement hbare n
  | ifKeyword => exact stays_ifStatement hbare h column n
  | defKeyword => exact stays_defStatement hbare h column n
  | _ => exact stays_returnStatement hbare n

end Statements

end Bare

section Refused

variable {l : Token} {finish : Position} (hbare : isBare word.kind = true)
  (hl : l.kind = .elseKeyword) (hline : l.span.line ≤ word.span.endLine)
include hl hline

theorem unlessEnd_refuses {items : Parser α} {N : Nonterminal α} {r : Option α} {d : Cursor}
    (h : ReadsOff N items) :
    unlessEnd items ⟨some word, l :: ws, finish⟩ ≠ some (.ok r, d) := by
  intro hread
  have hended : (Cursor.mk (some word) (l :: ws) finish).endsStatement = false :=
    decide_eq_false (Nat.not_lt.2 hline)
  rw [unlessEnd, bind_eq_ok (read_apply _ _), hended] at hread
  rcases bind_eq_some_iff.1 hread with ⟨e, -, he⟩ | ⟨a, x, ha, -⟩
  · cases he
  · obtain ⟨ts, hpass, hderives, -⟩ := h _ a x ha
    obtain ⟨t, us, rfl, ht⟩ := derives_head hderives
    obtain ⟨rfl, -⟩ : l = t ∧ ws = us ++ x.ahead := List.cons.inj hpass.ahead
    rw [hl] at ht
    cases N <;> cases ht

include hbare

theorem afterKeyword_refuses {p : Parser Statement} {column n : Nat} {s : Statement} {d : Cursor} :
    afterKeyword p column n word.kind ⟨some word, l :: ws, finish⟩ ≠ some (.ok s, d) := by
  intro hread
  cases hkind : word.kind <;> rw [hkind] at hbare hread <;> try cases hbare
  all_goals
    rcases bind_eq_some_iff.1 hread with ⟨e, -, he⟩ | ⟨o, x, ho, -⟩
    · cases he
  case print =>
    exact unlessEnd_refuses hl hline (readsOff_commaSeparated (readsOff_expression n) n) ho
  case returnKeyword => exact unlessEnd_refuses hl hline (readsOff_expression n) ho

theorem stays_openStatement {p : Parser Statement} (h : StaysBefore word (l :: ws) p) (n : Nat) :
    StaysBefore word (l :: ws) (openStatement p n) := by
  intro c s d hws hread
  by_cases hkeyword : ∃ t ∈ c.ahead.head?, beginsStatement t.kind = true
  · obtain ⟨t, ht, hkind⟩ := hkeyword
    obtain ⟨ts, hahead⟩ := List.head?_eq_some_iff.1 ht
    obtain ⟨previous, ahead, finish⟩ := c
    obtain rfl : ahead = t :: ts := hahead
    rw [openStatement_keyword hkind] at hread
    rcases List.suffix_cons_iff.1 hws with heq | hsuffix
    · cases heq
      exact absurd hread (afterKeyword_refuses hbare hl hline)
    · exact stays_afterKeyword hbare h _ n t.kind _ s d hsuffix hread
  · have hplain : ∀ t ∈ c.ahead.head?, beginsStatement t.kind = false :=
      fun t ht => Bool.eq_false_iff.2 fun hkind => hkeyword ⟨t, ht, hkind⟩
    rw [openStatement_plain hplain] at hread
    exact stays_plainStatement hbare n c s d hws hread

theorem stays_statement (n : Nat) : StaysBefore word (l :: ws) (statement n) := by
  induction n with
  | zero => exact stays_stuck
  | succ n ih =>
    exact stays_bind (stays_openStatement hbare hl hline ih (n + 1)) fun s =>
      stays_bind stays_endOfStatement fun _ => stays_pure s

theorem program_refuses {c d : Cursor} {n : Nat} {s : Statement} (hws : word :: l :: ws <:+ c.ahead) :
    program n c ≠ some (.ok s, d) := by
  intro hread
  rw [program, bind_eq_ok (read_apply _ _)] at hread
  rcases bind_eq_some_iff.1 hread with ⟨e, -, he⟩ | ⟨ss, x, hss, hrest⟩
  · cases he
  · have hx := stays_linesAt (stays_statement hbare hl hline n) _ n c ss x hws hss
    rw [bind_eq_ok (read_apply _ _)] at hrest
    split at hrest
    next hend =>
      rw [List.isEmpty_iff.1 hend] at hx
      cases List.suffix_nil.1 hx
    next => cases hrest

end Refused

end Parser

end Grammar

namespace Statement

open Grammar

theorem lt_of_bare {ts us ws : List Token} {root : Statement} {word l : Token}
    (h : ofTokens ts = .ok root) (hts : (Cursor.ofTokens ts).ahead = us ++ word :: l :: ws)
    (hbare : isBare word.kind = true) (hl : l.kind = .elseKeyword) :
    word.span.endLine < l.span.line := by
  by_contra hline
  have hanswer : (Cursor.ofTokens ts).program = (.ok root, (Cursor.ofTokens ts).program.2) :=
    Prod.ext h rfl
  have hprogram := (Cursor.ofTokens ts).program_eq_some
  rw [hanswer] at hprogram
  exact Parser.program_refuses hbare hl (Nat.not_lt.1 hline) ⟨us, hts.symm⟩ hprogram

end Statement

end IntScript
