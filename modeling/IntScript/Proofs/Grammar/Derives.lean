import IntScript.Grammar.Expression

/-!
# The grammar of expressions

What a list of tokens derives, without regard to lines. There are three levels of binary operators, which
group to the left; a sign binds tighter than all of them, and parentheses leave no trace in the tree.
-/

namespace IntScript.Grammar

/-- Levels of binary operators, the one that binds weakest first. -/
inductive Level where
  | comparison | sum | product
deriving DecidableEq

def Level.operator? : Level → TokenKind → Option BinaryOperator
  | comparison => comparisonOperator?
  | sum => sumOperator?
  | product => productOperator?

/-- What can be derived, indexed by the trees that it has. -/
inductive Nonterminal : Type → Type where
  | expression : Nonterminal Expression
  | level (l : Level) : Nonterminal Expression
  | unary : Nonterminal Expression
  | primary : Nonterminal Expression
  | items : Nonterminal (List Expression)

/-- The operands of a level's operators, but for the left one of a longer chain. -/
def Level.operand : Level → Nonterminal Expression
  | comparison => .level sum
  | sum => .level product
  | product => .unary

inductive Derives : {α : Type} → Nonterminal α → List Token → α → Prop where
  | assign {t s ts e} (ht : t.kind = .identifier) (hs : s.kind = .assign)
      (he : Derives .expression ts e) : Derives .expression (t :: s :: ts) (.assign t.lexeme e)
  | expression {ts e} (h : Derives (.level .comparison) ts e) : Derives .expression ts e
  | binary {l : Level} {ts us o op left right} (hleft : Derives (.level l) ts left)
      (ho : l.operator? o.kind = some op) (hright : Derives l.operand us right) :
      Derives (.level l) (ts ++ o :: us) (.binary op left right)
  | operand {l : Level} {ts e} (h : Derives l.operand ts e) : Derives (.level l) ts e
  | negate {t ts e} (ht : t.kind = .minus) (he : Derives .unary ts e) :
      Derives .unary (t :: ts) (.negate e)
  | unary {ts e} (h : Derives .primary ts e) : Derives .unary ts e
  | integer {t value} (ht : t.kind = .integer)
      (hvalue : Word.ofDecimal? t.lexeme.toList = some value) :
      Derives .primary [t] (.integer value)
  | text {t} (ht : t.kind = .string) : Derives .primary [t] (.text t.lexeme)
  | var {t} (ht : t.kind = .identifier) : Derives .primary [t] (.var t.lexeme)
  | callEmpty {t o c} (ht : t.kind = .identifier) (ho : o.kind = .lparen) (hc : c.kind = .rparen) :
      Derives .primary [t, o, c] (.call t.lexeme [])
  | call {t o ts c args} (ht : t.kind = .identifier) (ho : o.kind = .lparen)
      (hargs : Derives .items ts args) (hc : c.kind = .rparen) :
      Derives .primary (t :: o :: (ts ++ [c])) (.call t.lexeme args)
  | parens {o ts c e} (ho : o.kind = .lparen) (he : Derives .expression ts e)
      (hc : c.kind = .rparen) : Derives .primary (o :: (ts ++ [c])) e
  | item {ts e} (h : Derives .expression ts e) : Derives .items ts [e]
  | items {ts c us e es} (he : Derives .expression ts e) (hc : c.kind = .comma)
      (hes : Derives .items us es) : Derives .items (ts ++ c :: us) (e :: es)

def Nonterminal.begins : {α : Type} → Nonterminal α → TokenKind → Bool
  | _, .primary, kind => beginsOperand kind
  | _, _, kind => beginsOperand kind || kind = .minus

/-- Kinds of tokens that go on with an operand of the level: its operators and those of tighter levels,
and the parenthesis of a call. -/
def Level.continues : Level → TokenKind → Bool
  | comparison, kind => kind = .lparen || (comparisonOperator? kind).isSome ||
    (sumOperator? kind).isSome || (productOperator? kind).isSome
  | sum, kind => kind = .lparen || (sumOperator? kind).isSome || (productOperator? kind).isSome
  | product, kind => kind = .lparen || (productOperator? kind).isSome

def Nonterminal.continues : {α : Type} → Nonterminal α → TokenKind → Bool
  | _, .expression, kind => kind = .assign || Level.comparison.continues kind
  | _, .level l, kind => l.continues kind
  | _, .unary, kind => kind = .lparen
  | _, .primary, kind => kind = .lparen
  | _, .items, kind => kind = .comma || kind = .assign || Level.comparison.continues kind

variable {α : Type} {N : Nonterminal α} {ts : List Token} {a : α}

theorem Level.begins_operand (l : Level) (kind : TokenKind) :
    l.operand.begins kind = (beginsOperand kind || kind = .minus) := by
  cases l with
  | comparison => rfl
  | sum => rfl
  | product => rfl

theorem derives_head (h : Derives N ts a) :
    ∃ t us, ts = t :: us ∧ N.begins t.kind = true := by
  induction h with
  | assign ht _ _ => exact ⟨_, _, rfl, by simp [Nonterminal.begins, ht, beginsOperand]⟩
  | expression _ ih => exact ih
  | binary _ _ _ ih _ =>
    obtain ⟨t, us, rfl, ht⟩ := ih
    exact ⟨t, _, rfl, ht⟩
  | operand _ ih =>
    obtain ⟨t, us, rfl, ht⟩ := ih
    rw [Level.begins_operand] at ht
    exact ⟨t, us, rfl, ht⟩
  | negate ht _ _ => exact ⟨_, _, rfl, by simp [Nonterminal.begins, ht]⟩
  | unary _ ih =>
    obtain ⟨t, us, rfl, ht⟩ := ih
    exact ⟨t, us, rfl, by simp [Nonterminal.begins] at ht ⊢; exact .inl ht⟩
  | integer ht _ => exact ⟨_, _, rfl, by simp [Nonterminal.begins, ht, beginsOperand]⟩
  | text ht => exact ⟨_, _, rfl, by simp [Nonterminal.begins, ht, beginsOperand]⟩
  | var ht => exact ⟨_, _, rfl, by simp [Nonterminal.begins, ht, beginsOperand]⟩
  | callEmpty ht _ _ => exact ⟨_, _, rfl, by simp [Nonterminal.begins, ht, beginsOperand]⟩
  | call ht _ _ _ _ => exact ⟨_, _, rfl, by simp [Nonterminal.begins, ht, beginsOperand]⟩
  | parens ho _ _ _ => exact ⟨_, _, rfl, by simp [Nonterminal.begins, ho, beginsOperand]⟩
  | item _ ih => exact ih
  | items _ _ _ ih _ =>
    obtain ⟨t, us, rfl, ht⟩ := ih
    exact ⟨t, _, rfl, ht⟩

theorem Level.not_continues_operand {l : Level} {kind : TokenKind} {op : BinaryOperator}
    (h : l.operator? kind = some op) : l.operand.continues kind = false := by
  cases l with
  | comparison => cases kind <;> first | decide | cases h
  | sum => cases kind <;> first | decide | cases h
  | product => cases kind <;> first | decide | cases h

theorem Level.continues_of_operand {l : Level} {kind : TokenKind}
    (h : l.operand.continues kind = true) : l.continues kind = true := by
  cases l with
  | comparison => cases kind <;> first | decide | exact absurd h (by decide)
  | sum => cases kind <;> first | decide | exact absurd h (by decide)
  | product => cases kind <;> first | decide | exact absurd h (by decide)

theorem Level.continues_of_operator? {l : Level} {kind : TokenKind}
    (h : (l.operator? kind).isSome = true) : l.continues kind = true := by
  cases l with
  | comparison => cases kind <;> first | decide | exact absurd h (by decide)
  | sum => cases kind <;> first | decide | exact absurd h (by decide)
  | product => cases kind <;> first | decide | exact absurd h (by decide)

theorem Level.operator?_assign (l : Level) : l.operator? .assign = none := by
  cases l with
  | comparison => rfl
  | sum => rfl
  | product => rfl

def Nonterminal.IsOperand : {α : Type} → Nonterminal α → Prop
  | _, .expression => False
  | _, .items => False
  | _, _ => True

theorem Level.isOperand_operand (l : Level) : l.operand.IsOperand := by
  cases l with
  | comparison => trivial
  | sum => trivial
  | product => trivial

def NoTarget (ts : List Token) : Prop :=
  ∀ t s us, ts = t :: s :: us → t.kind = .identifier → s.kind ≠ .assign

theorem noTarget_of_derives (h : Derives N ts a) (hN : N.IsOperand) : NoTarget ts := by
  induction h with
  | assign => cases hN
  | expression => cases hN
  | @binary l ts us o op left right hleft ho _ ih _ =>
    intro t s vs heq ht
    obtain ⟨t', ts', rfl, -⟩ := derives_head hleft
    cases ts' with
    | nil =>
      cases heq
      intro hs
      rw [hs, Level.operator?_assign] at ho
      cases ho
    | cons s' ts' =>
      cases heq
      exact ih trivial _ _ _ rfl ht
  | operand _ ih => exact ih (Level.isOperand_operand _)
  | negate ht _ _ =>
    intro t s us heq hname
    cases heq
    rw [ht] at hname
    cases hname
  | unary _ ih => exact ih trivial
  | integer => exact fun _ _ _ heq => (nomatch heq)
  | text => exact fun _ _ _ heq => (nomatch heq)
  | var => exact fun _ _ _ heq => (nomatch heq)
  | callEmpty _ ho _ =>
    intro t s us heq _ hs
    cases heq
    rw [ho] at hs
    cases hs
  | call _ ho _ _ _ =>
    intro t s us heq _ hs
    cases heq
    rw [ho] at hs
    cases hs
  | parens ho _ _ _ =>
    intro t s us heq hname
    obtain ⟨rfl, -⟩ := List.cons.inj heq
    rw [ho] at hname
    cases hname
  | item => cases hN
  | items => cases hN

end IntScript.Grammar
