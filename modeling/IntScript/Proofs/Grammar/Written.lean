import IntScript.Proofs.Grammar.Complete
import IntScript.Proofs.Tree.Write

/-!
# Written expressions

The tokens of a written expression derive it.
-/

namespace IntScript.Grammar

open IntScript.Action Glyph

namespace Derives

variable {ts : List Token} {e : Expression}

theorem operand_of_primary (l : Level) (h : Derives .primary ts e) : Derives l.operand ts e := by
  cases l with
  | comparison => exact .operand (.operand (.unary h))
  | sum => exact .operand (.unary h)
  | product => exact .unary h

theorem comparison_of_level {l : Level} (h : Derives (.level l) ts e) :
    Derives (.level .comparison) ts e := by
  cases l with
  | comparison => exact h
  | sum => exact .operand h
  | product => exact .operand (.operand h)

theorem expression_of_primary (h : Derives .primary ts e) : Derives .expression ts e :=
  .expression (.operand (operand_of_primary .comparison h))

end Derives

theorem Level.exists_operator (op : BinaryOperator) : ∃ l : Level, l.operator? op.kind = some op := by
  cases op with
  | add => exact ⟨.sum, rfl⟩
  | sub => exact ⟨.sum, rfl⟩
  | mul => exact ⟨.product, rfl⟩
  | div => exact ⟨.product, rfl⟩
  | equal => exact ⟨.comparison, rfl⟩
  | notEqual => exact ⟨.comparison, rfl⟩
  | less => exact ⟨.comparison, rfl⟩
  | lessEqual => exact ⟨.comparison, rfl⟩
  | greater => exact ⟨.comparison, rfl⟩
  | greaterEqual => exact ⟨.comparison, rfl⟩

section Expressions

variable {gs : List Glyph} {e : Expression}

theorem derives_inParens (h : ∀ p, Derives .expression (tokens p gs) e) (p : Place) :
    Derives .primary (tokens p (inParens gs)) e := by
  rw [inParens, tokens_cons, tokens_append, tokens_cons, tokens_nil]
  exact .parens (token_kind ..) (h _) (token_kind ..)

theorem derives_items {es : List Expression} (hne : es ≠ [])
    (h : ∀ e ∈ es, ∀ p, Derives .expression (tokens p e.glyphs) e) (p : Place) :
    Derives .items (tokens p (commaSeparated (Expression.items es))) es := by
  induction es generalizing p with
  | nil => exact absurd rfl hne
  | cons e es ih =>
    have hitem := (derives_inParens (h e (by simp)) p).expression_of_primary
    cases es with
    | nil => exact .item hitem
    | cons f es =>
      have hrest := ih (List.cons_ne_nil f es) fun e he => h e (List.mem_cons_of_mem _ he)
      rw [Expression.items, Expression.items, commaSeparated, tokens_append, tokens_cons]
      exact .items hitem rfl (hrest _)

theorem lexeme_name (x : String) (p : Place) : ((Glyph.name x).token p).lexeme = x :=
  String.ofList_toList

theorem derives_var (x : String) (p : Place) : Derives .primary [(Glyph.name x).token p] (.var x) := by
  have hvar := Derives.var (t := (Glyph.name x).token p) rfl
  rwa [lexeme_name] at hvar

theorem derives_call {x : String} {args : List Expression}
    (h : ∀ e ∈ args, ∀ p, Derives .expression (tokens p e.glyphs) e) (p : Place) :
    Derives .primary
      (tokens p (.name x :: inParens (commaSeparated (Expression.items args)))) (.call x args) := by
  have hname : ((Glyph.name x).token p).kind = .identifier := rfl
  rw [inParens, tokens_cons, tokens_cons, tokens_append, tokens_cons, tokens_nil]
  have hlexeme := lexeme_name x p
  generalize (Glyph.name x).token p = t at hname hlexeme ⊢
  subst hlexeme
  cases args with
  | nil => exact .callEmpty hname rfl rfl
  | cons e es => exact .call hname rfl (derives_items (List.cons_ne_nil e es) h _) rfl

theorem derives_glyphs (h : e.WellFormed .written) (p : Place) :
    Derives .expression (tokens p e.glyphs) e := by
  induction h generalizing p with
  | @integer value h =>
    have hlexeme : ((Glyph.integer value).token p).lexeme.toList = value.decimal :=
      String.toList_ofList
    have hread := Word.ofDecimal?_decimal h
    rw [← hlexeme] at hread
    rw [Expression.glyphs, tokens_cons, tokens_nil]
    exact (Derives.integer rfl hread).expression_of_primary
  | text s =>
    have hlexeme : ((Glyph.text s).token p).lexeme = s := String.ofList_toList
    have htext := Derives.text (t := (Glyph.text s).token p) rfl
    rw [hlexeme] at htext
    rw [Expression.glyphs, tokens_cons, tokens_nil]
    exact htext.expression_of_primary
  | @var x h =>
    rw [Expression.glyphs, tokens_cons, tokens_nil]
    exact (derives_var x p).expression_of_primary
  | @assign x e h _ ih =>
    rw [Expression.glyphs, tokens_cons, tokens_cons]
    have hname : ((Glyph.name x).token p).kind = .identifier := rfl
    have hlexeme := lexeme_name x p
    generalize (Glyph.name x).token p = t at hname hlexeme ⊢
    subst hlexeme
    exact .assign hname rfl (derives_inParens ih _).expression_of_primary
  | negate _ ih =>
    rw [Expression.glyphs, tokens_cons]
    exact .expression (.operand (.operand (.operand (.negate rfl (.unary (derives_inParens ih _))))))
  | @binary op left right _ _ ihleft ihright =>
    obtain ⟨l, hop⟩ := Level.exists_operator op
    have hleft := Derives.operand (Derives.operand_of_primary l (derives_inParens ihleft p))
    rw [Expression.glyphs, tokens_append, tokens_cons]
    apply Derives.expression
    apply Derives.comparison_of_level
    exact .binary hleft hop (.operand_of_primary l (derives_inParens ihright _))
  | call h _ ih =>
    rw [Expression.glyphs]
    exact (derives_call ih p).expression_of_primary

end Expressions

end IntScript.Grammar
