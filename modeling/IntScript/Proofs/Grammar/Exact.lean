import IntScript.Proofs.Grammar.Complete
import IntScript.Proofs.Grammar.Taken

/-!
# Expressions are read as their grammar says

On one line exactly the tokens that derive a tree are read as an expression, and they are read as that tree.
No tokens derive two. The grammar does not speak of lines, so for this the tokens may be moved to a single
line, where reading them decides between the trees.
-/

namespace IntScript

def Token.atFront (t : Token) : Token := { t with span := ⟨0, 0, 0, 0, 0⟩ }

namespace Grammar

open IntScript.Action

variable {α : Type} {N : Nonterminal α} {ts rest : List Token} {a : α} {e e' : Expression}
  {previous : Option Token} {finish : Position}

theorem derives_map_atFront (h : Derives N ts a) : Derives N (ts.map Token.atFront) a := by
  induction h with
  | assign ht hs _ ih => exact .assign (t := Token.atFront _) ht hs ih
  | expression _ ih => exact .expression ih
  | binary _ ho _ ihleft ihright =>
    rw [List.map_append, List.map_cons]
    exact .binary ihleft ho ihright
  | operand _ ih => exact .operand ih
  | negate ht _ ih => exact .negate ht ih
  | unary _ ih => exact .unary ih
  | integer ht hvalue => exact .integer (t := Token.atFront _) ht hvalue
  | text ht => exact .text (t := Token.atFront _) ht
  | var ht => exact .var (t := Token.atFront _) ht
  | callEmpty ht ho hc => exact .callEmpty (t := Token.atFront _) ht ho hc
  | call ht ho _ hc ih =>
    rw [List.map_cons, List.map_cons, List.map_append]
    exact .call (t := Token.atFront _) ht ho ih hc
  | parens ho _ hc ih =>
    rw [List.map_cons, List.map_append]
    exact .parens ho ih hc
  | item _ ih => exact .item ih
  | items _ hc _ ihe ihes =>
    rw [List.map_append, List.map_cons]
    exact .items ihe hc ihes

theorem isChain_map_atFront (ts : List Token) : (ts.map Token.atFront).IsChain Token.Joins := by
  rw [List.isChain_map]
  exact (List.pairwise_of_forall fun _ _ => rfl).isChain

theorem derives_unique (h : Derives .expression ts e) (h' : Derives .expression ts e') :
    e = e' := by
  have hline := isChain_map_atFront ts
  have hread := reads_of_derives (derives_map_atFront h) none [] ⟨0, 0⟩ hline nofun
  have hread' := reads_of_derives (derives_map_atFront h') none [] ⟨0, 0⟩ hline nofun
  exact Except.ok.inj (hread.unique hread').1

theorem stops_of_later (hne : ts ≠ [])
    (hlater : ∀ t ∈ ts.getLast?, ∀ u ∈ rest.head?, t.span.endLine < u.span.line)
    (continues : TokenKind → Bool) :
    (Cursor.mk (lastOf previous ts) rest finish).Stops continues := by
  obtain ⟨t, ts, rfl⟩ := List.exists_cons_of_ne_nil hne
  intro u hu hline
  obtain ⟨rest, rfl⟩ := List.head?_eq_some_iff.1 hu
  rw [lastOf_cons_eq_getLast] at hline
  have hlast : (t :: ts).getLast hne ∈ (t :: ts).getLast? := List.getLast?_eq_some_getLast hne
  exact absurd (hlater _ hlast u hu) (of_decide_eq_false hline)

theorem expressionHere_of_derives (h : Derives .expression ts e)
    (hline : ts.IsChain Token.Joins)
    (hlater : ∀ t ∈ ts.getLast?, ∀ u ∈ rest.head?, t.span.endLine < u.span.line) {n : Nat}
    (hn : (ts ++ rest).length < n) :
    Parser.expressionHere n ⟨previous, ts ++ rest, finish⟩ =
      some (.ok e, ⟨lastOf previous ts, rest, finish⟩) := by
  obtain ⟨t, us, rfl, -⟩ := derives_head h
  have hread := reads_of_derives h previous rest finish hline
    (stops_of_later (List.cons_ne_nil t us) hlater _)
  exact Parser.apply_of_settles Parser.expressionHere_le Parser.advances_expressionHere hread hn

theorem derives_of_expressionHere {n : Nat}
    (h : Parser.expressionHere n ⟨previous, ts ++ rest, finish⟩ =
      some (.ok e, ⟨lastOf previous ts, rest, finish⟩)) : Derives .expression ts e := by
  obtain ⟨us, hpass, hderives, -⟩ := Parser.readsOffHere_expressionHere n _ _ _ h
  have heq : ts = us := List.append_cancel_right hpass.ahead
  rwa [heq]

/-- On one line, with the end or a later line behind them, exactly the tokens that derive a tree are taken
as an expression, and the tree is given. No tokens derive two trees. -/
theorem expressionHere_takes_iff_derives :
    (∀ (previous : Option Token) (ts rest : List Token) (finish : Position) (e : Expression)
      (n : Nat), ts.IsChain Token.Joins →
      (∀ t ∈ ts.getLast?, ∀ u ∈ rest.head?, t.span.endLine < u.span.line) →
      (ts ++ rest).length < n →
      (Parser.expressionHere n ⟨previous, ts ++ rest, finish⟩ =
        some (.ok e, ⟨lastOf previous ts, rest, finish⟩) ↔ Derives .expression ts e)) ∧
      ∀ (ts : List Token) (e e' : Expression), Derives .expression ts e →
        Derives .expression ts e' → e = e' := by
  constructor
  · intro previous ts rest finish e n hline hlater hn
    exact ⟨derives_of_expressionHere, fun h => expressionHere_of_derives h hline hlater hn⟩
  · exact fun ts e e' => derives_unique

def differences : List Token :=
  [⟨.identifier, "a", ⟨0, 1, 1, 0, 1⟩⟩, ⟨.minus, "-", ⟨2, 3, 1, 2, 1⟩⟩,
    ⟨.identifier, "b", ⟨4, 5, 1, 4, 1⟩⟩, ⟨.minus, "-", ⟨6, 7, 1, 6, 1⟩⟩,
    ⟨.identifier, "c", ⟨8, 9, 1, 8, 1⟩⟩]

theorem expressionHere_takes_iff_derives_differences :
    let sign : Token := ⟨.minus, "-", ⟨10, 11, 2, 0, 2⟩⟩
    differences.IsChain Token.Joins ∧
      (∀ t ∈ differences.getLast?, ∀ u ∈ [sign].head?, t.span.endLine < u.span.line) ∧
      (differences ++ [sign]).length < 7 ∧
      Derives .expression differences
        (.binary .sub (.binary .sub (.var "a") (.var "b")) (.var "c")) ∧
      ¬ Derives .expression differences
        (.binary .sub (.var "a") (.binary .sub (.var "b") (.var "c"))) := by
  intro sign
  have hline : differences.IsChain Token.Joins := by simp [differences, Token.Joins]
  have hlater : ∀ t ∈ differences.getLast?, ∀ u ∈ [sign].head?, t.span.endLine < u.span.line := by
    decide
  have hleft := (expressionHere_takes_iff_derives.1 none differences [sign] ⟨2, 1⟩ _ 7 hline hlater
    (by decide)).1 rfl
  refine ⟨hline, hlater, by decide, hleft, fun hright => ?_⟩
  have heq := expressionHere_takes_iff_derives.2 differences _ _ hleft hright
  injection heq with _ hoperand
  cases hoperand

end Grammar

end IntScript
