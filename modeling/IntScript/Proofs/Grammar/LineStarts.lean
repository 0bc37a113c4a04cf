import IntScript.Proofs.Grammar.KeptLines
import IntScript.Proofs.Grammar.Noted
import IntScript.Token.Stream
import Mathlib

/-!
# What begins a line

In a program that is read, a token that begins a line begins a statement or is the `else` of an `if`. A comma
is the exception: between items, arguments or parameters it is taken wherever it stands, so that a line that
begins with a comma goes on with the list above it (`not_noted_commaBelow`).
-/

namespace IntScript

namespace Grammar

open IntScript.Action

/-- Every one of the tokens, which `rest` follows, goes on with the line or is noted. -/
def Accounts (ms : List Mark) (rest : List Token) : Option Token → List Token → Prop
  | _, [] => True
  | previous, t :: ts =>
    (OnLine previous [t] ∨ .statement (t :: ts ++ rest) ∈ ms ∨
      t.kind = .elseKeyword ∧ .elseBranch (t :: ts ++ rest) ∈ ms) ∧ Accounts ms rest (some t) ts

variable {α β : Type} {ms ns kept : List Mark} {rest ts us : List Token} {previous : Option Token}
  {c : Cursor}

theorem accounts_append : Accounts ms rest previous (ts ++ us) ↔
    Accounts ms (us ++ rest) previous ts ∧ Accounts ms rest (lastOf previous ts) us := by
  induction ts generalizing previous with
  | nil => simp [Accounts, lastOf]
  | cons t ts ih => simp only [List.cons_append, Accounts, lastOf, ih, List.append_assoc, and_assoc]

theorem Accounts.mono (h : Accounts ms rest previous ts) (hsub : ms ⊆ ns) :
    Accounts ns rest previous ts := by
  induction ts generalizing previous with
  | nil => trivial
  | cons t ts ih =>
    obtain ⟨hline | hstatement | ⟨hkind, helse⟩, hts⟩ := h
    · exact ⟨.inl hline, ih hts⟩
    · exact ⟨.inr (.inl (hsub hstatement)), ih hts⟩
    · exact ⟨.inr (.inr ⟨hkind, hsub helse⟩), ih hts⟩

theorem OnLine.accounts (h : OnLine previous ts) : Accounts ms rest previous ts := by
  induction ts generalizing previous with
  | nil => trivial
  | cons t ts ih =>
    obtain ⟨hline, hts⟩ := onLine_append.1 (show OnLine previous ([t] ++ ts) from h)
    exact ⟨.inl hline, ih hts⟩

theorem Accounts.noted {t : Token} {vs : List Token}
    (h : Accounts ms rest previous (us ++ t :: vs))
    (hline : ∀ p ∈ lastOf previous us, p.span.endLine < t.span.line) (hcomma : t.kind ≠ .comma) :
    .statement (t :: vs ++ rest) ∈ ms ∨
      t.kind = .elseKeyword ∧ .elseBranch (t :: vs ++ rest) ∈ ms := by
  obtain ⟨honLine | hnoted, -⟩ := (accounts_append.1 h).2
  · cases hlast : lastOf previous us with
    | none =>
      rw [hlast] at honLine
      exact honLine.elim
    | some p =>
      rw [hlast] at honLine
      rcases honLine.1 with hle | hkind
      · exact absurd (hline p hlast) (Nat.not_lt.2 hle)
      · exact absurd hkind hcomma
  · exact hnoted

namespace Parser

theorem takes_endOfStatement : Takes endOfStatement c fun ts _ => ts = [] := by
  apply takes_read
  split
  · exact takes_pure rfl
  · exact takes_unexpected

/-- The tokens taken go on with the line or are noted among `marks a`, as `kept` is too. -/
def Notes (kept : List Mark) (marks : α → List Mark) (p : Parser α) (c : Cursor) : Prop :=
  Takes p c fun ts a => kept ⊆ marks a ∧
    ∀ rest, c.ahead = ts ++ rest → Accounts (marks a) rest c.previous ts

def NotesOwn (p : Parser (Noted α)) (c : Cursor) : Prop :=
  Takes p c fun ts a => ∀ rest, c.ahead = ts ++ rest →
    ∀ t us, ts = t :: us → Accounts a.marks rest (some t) us

theorem notes_of_keepsLine {p : Parser α} (h : KeepsLine p c) : Notes [] (fun _ => []) p c :=
  h.takes.mono fun _ _ hline => ⟨List.nil_subset _, fun _ _ => hline.accounts⟩

theorem notes_pure {a : α} {marks : α → List Mark} (h : kept ⊆ marks a) :
    Notes kept marks (pure a) c :=
  takes_pure ⟨h, fun _ _ => trivial⟩

theorem notes_bind {q : Parser β} {f : β → Parser α} {marksOf : β → List Mark}
    {marks : α → List Mark} (hq : Notes [] marksOf q c)
    (hf : ∀ b c', Notes (kept ++ marksOf b) marks (f b) c') : Notes kept marks (q >>= f) c := by
  apply takes_bind hq
  rintro ts b c₁ hpass ⟨-, hts⟩
  apply (hf b c₁).mono
  rintro us a ⟨hkept, hus⟩
  obtain ⟨hbefore, hof⟩ := List.append_subset.1 hkept
  refine ⟨hbefore, fun rest hahead => ?_⟩
  have hahead₁ : c₁.ahead = us ++ rest := by
    rw [hpass.ahead, List.append_assoc] at hahead
    exact List.append_cancel_left hahead
  have hleft := (hts _ hpass.ahead).mono hof
  have hright := hus rest hahead₁
  rw [hahead₁] at hleft
  rw [hpass.previous] at hright
  exact accounts_append.2 ⟨hleft, hright⟩

theorem notes_notedLines {p : Parser (Noted Statement)} (h : ∀ c, Notes [] Noted.marks p c)
    (column n : Nat) : Notes [] Noted.marks (notedLines p column n) c := by
  induction n generalizing c with
  | zero => exact takes_stuck
  | succ n ih =>
    apply takes_read
    cases c.fit column with
    | behind => exact notes_pure (List.nil_subset _)
    | deeper => exact takes_failHere
    | within =>
      refine notes_bind (h c) fun s c₁ => notes_bind ih fun ss c₂ => notes_pure ?_
      exact List.Subset.refl _

theorem notes_notedBody {p : Parser (Noted Statement)} (h : ∀ c, Notes [] Noted.marks p c)
    (construct : Construct) (header n : Nat) :
    Notes [] Noted.marks (notedBody p construct header n) c := by
  refine notes_bind (notes_of_keepsLine (keepsLine_takeOnLine? _)) fun _ c₁ => takes_read ?_
  split
  · apply takes_read
    split
    · exact takes_failHere
    · refine takes_read (notes_bind (notes_notedLines h _ n) fun ss c₂ => notes_pure ?_)
      exact List.Subset.refl _
  · exact h c₁

theorem notes_takeElse? (column : Nat) : Notes []
    (fun o : Option Token => if o.isSome then [.elseBranch c.ahead] else []) (takeElse? column) c := by
  apply (takes_take? _).mono
  rintro ts o (⟨rfl, rfl⟩ | ⟨t, u, rfl, -, hf, rfl⟩)
  · exact ⟨List.nil_subset _, fun _ _ => trivial⟩
  · have hkind : t.kind = .elseKeyword := (Option.ite_none_right_eq_some.1 hf).1.1
    refine ⟨List.nil_subset _, fun rest hahead => ⟨.inr (.inr ⟨hkind, ?_⟩), trivial⟩⟩
    rw [hahead]
    exact List.mem_singleton_self _

theorem notes_notedIf {p : Parser (Noted Statement)} (h : ∀ c, Notes [] Noted.marks p c)
    (header n : Nat) : Notes [] Noted.marks (notedIf p header n) c := by
  refine notes_bind (notes_of_keepsLine (keepsLine_expression n)) fun condition c₁ =>
    notes_bind (notes_notedBody h _ _ _) fun thenBranch c₂ => takes_read ?_
  refine notes_bind (notes_takeElse? header) fun o c₃ => ?_
  cases o with
  | none =>
    apply notes_pure
    simp
  | some t =>
    refine notes_bind (notes_notedBody h _ _ _) fun elseBranch c₄ => notes_pure ?_
    simp

theorem notes_notedDef {p : Parser (Noted Statement)} (h : ∀ c, Notes [] Noted.marks p c)
    (header n : Nat) : Notes [] Noted.marks (notedDef p header n) c := by
  refine notes_bind (notes_of_keepsLine (keepsLine_expect _ _)) fun name c₁ =>
    notes_bind (notes_of_keepsLine (keepsLine_expect _ _)) fun _ c₂ =>
      notes_bind (notes_of_keepsLine (keepsLine_parameterList _ n)) fun names c₃ =>
        notes_bind (notes_notedBody h _ _ _) fun body c₄ => notes_pure ?_
  exact List.Subset.refl _

theorem notes_plain {p : Parser Statement} (h : KeepsLine p c) :
    Notes [] Noted.marks (do return ⟨← p, []⟩) c :=
  notes_bind (notes_of_keepsLine h) fun _ _ => notes_pure (List.Subset.refl _)

theorem takes_own {p : Parser (Noted α)} {c₁ : Cursor} {t : Token} (hpass : c.Passes [t] c₁)
    (h : Notes [] Noted.marks p c₁) : Takes p c₁ fun us a => ∀ rest, c.ahead = [t] ++ us ++ rest →
      ∀ u vs, [t] ++ us = u :: vs → Accounts a.marks rest (some u) vs := by
  apply h.mono
  rintro us s ⟨-, hus⟩ rest hahead u vs hts
  cases hts
  rw [hpass.ahead] at hahead
  have hnext := hus rest (List.append_cancel_left (hahead.trans (List.append_assoc _ _ _)))
  rwa [hpass.previous] at hnext

theorem notesOwn_notedOpen {p : Parser (Noted Statement)} (h : ∀ c, Notes [] Noted.marks p c)
    (n : Nat) : NotesOwn (notedOpen p n) c := by
  apply takes_bind (takes_take? _)
  rintro ts o c₁ hpass (⟨rfl, rfl⟩ | ⟨t, u, rfl, -, hf, rfl⟩)
  · apply takes_bind (ownsLine_plainStatement n).takes
    rintro us s c₂ - howns
    apply takes_pure
    intro rest _ t vs hts
    rw [List.append_nil, List.nil_append] at hts
    exact (howns t vs hts).accounts
  · obtain ⟨-, hu⟩ := Option.ite_none_right_eq_some.1 hf
    cases hu
    apply takes_own hpass
    dsimp only
    split
    · exact notes_plain (keepsLine_printStatement n)
    · exact notes_notedIf h _ n
    · exact notes_notedDef h _ n
    · exact notes_plain (keepsLine_returnStatement n)

theorem notes_notedStatement (n : Nat) : Notes [] Noted.marks (notedStatement n) c := by
  induction n generalizing c with
  | zero => exact takes_stuck
  | succ n ih =>
    apply takes_read
    apply takes_bind (notesOwn_notedOpen (fun _ => ih) (n + 1))
    rintro ts s c₁ hpass hown
    apply takes_bind takes_endOfStatement
    rintro vs _ c₂ - rfl
    apply takes_pure
    refine ⟨List.nil_subset _, fun rest hahead => ?_⟩
    rw [List.append_nil, List.append_nil] at hahead ⊢
    cases ts with
    | nil => trivial
    | cons t us =>
      refine ⟨.inr (.inl ?_), ?_⟩
      · rw [hahead]
        exact List.mem_cons_self
      · exact (hown rest hahead t us rfl).mono (List.subset_cons_self _ _)

theorem takes_notedProgram (n : Nat) : Takes (notedProgram n) c fun ts a =>
    c.ahead = ts ∧ Accounts a.marks [] c.previous ts := by
  apply takes_read
  apply takes_bind (notes_notedLines (fun _ => notes_notedStatement n) _ n)
  rintro ts ss c₁ hpass ⟨-, hts⟩
  apply takes_read
  split
  next hend =>
    have hnone : c₁.ahead = [] := List.isEmpty_iff.1 hend
    have hall : c.ahead = ts := by rw [hpass.ahead, hnone, List.append_nil]
    apply takes_pure
    rw [List.append_nil]
    exact ⟨hall, hts [] (by rw [hall, List.append_nil])⟩
  next => exact takes_unexpected

end Parser

end Grammar

namespace Statement

open Grammar

def ofTokensNoted (ts : List Token) : Option (Except SyntaxError (Noted Statement)) :=
  let c := Cursor.ofTokens ts
  (Parser.notedProgram (c.size + 1) c).map Prod.fst

theorem ofTokensNoted_value (ts : List Token) :
    (ofTokensNoted ts).map (Except.map Noted.value) = some (ofTokens ts) := by
  have hprogram := (Cursor.ofTokens ts).program_eq_some
  rw [← Parser.value_notedProgram, map_eq_pure_bind, Action.bind_apply] at hprogram
  rw [ofTokensNoted, ofTokens, ← Option.map_some (f := Prod.fst), ← hprogram]
  rcases Parser.notedProgram _ _ with _ | ⟨_ | _, _⟩ <;> rfl

/-- In a program that is read, each token that begins a line begins a statement, is the `else` that an `if`
takes, or is a comma. -/
theorem ofTokens_line_starts {ts : List Token} {root : Statement} (h : ofTokens ts = .ok root) :
    ∃ marks, ofTokensNoted ts = some (.ok ⟨root, marks⟩) ∧
      ∀ us t vs, ts.takeWhile (·.kind ≠ .eof) = us ++ t :: vs →
        (∀ p ∈ us.getLast?, p.span.endLine < t.span.line) → t.kind ≠ .comma →
        .statement (t :: vs) ∈ marks ∨ t.kind = .elseKeyword ∧ .elseBranch (t :: vs) ∈ marks := by
  have hvalue := ofTokensNoted_value ts
  rw [h] at hvalue
  obtain ⟨r, hnoted, hr⟩ := Option.map_eq_some_iff.1 hvalue
  cases r with
  | error e => cases hr
  | ok a =>
    obtain ⟨value, marks⟩ := a
    cases hr
    refine ⟨marks, hnoted, fun us t vs hsplit hline hcomma => ?_⟩
    obtain ⟨⟨_, c'⟩, hread, rfl⟩ := Option.map_eq_some_iff.1 hnoted
    obtain ⟨ws, -, hall, haccounts⟩ := Parser.takes_notedProgram _ _ _ hread
    obtain rfl : ws = us ++ t :: vs := hall.symm.trans hsplit
    have hlast : lastOf none us = us.getLast? := by
      cases us with
      | nil => rfl
      | cons u us => rw [lastOf_cons_eq_getLast, List.getLast?_eq_some_getLast]
    have hnotedHere := haccounts.noted (hlast ▸ hline) hcomma
    rwa [List.append_nil] at hnotedHere

def branchesBelow : List Token :=
  [⟨.ifKeyword, "if", ⟨0, 2, 1, 0, 1⟩⟩, ⟨.identifier, "a", ⟨3, 4, 1, 3, 1⟩⟩,
    ⟨.identifier, "b", ⟨6, 7, 2, 1, 2⟩⟩, ⟨.elseKeyword, "else", ⟨8, 12, 3, 0, 3⟩⟩,
    ⟨.identifier, "c", ⟨13, 14, 3, 5, 3⟩⟩]

theorem ofTokens_line_starts_branchesBelow :
    let root := Statement.block
      [.ifElse (.var "a") (.block [.expression (.var "b")]) (some (.expression (.var "c")))]
    let marks := [.statement branchesBelow, .statement (branchesBelow.drop 2),
      .elseBranch (branchesBelow.drop 3), .statement (branchesBelow.drop 4)]
    ofTokens branchesBelow = .ok root ∧
      ofTokensNoted branchesBelow = some (.ok ⟨root, marks⟩) ∧
      (∀ p ∈ (branchesBelow.take 3).getLast?, p.span.endLine < 3) ∧
      Mark.elseBranch (branchesBelow.drop 3) ∈ marks := by
  intro root marks
  have hread : ofTokens branchesBelow = .ok root := by rfl
  have hnoted : ofTokensNoted branchesBelow = some (.ok ⟨root, marks⟩) := by rfl
  have hline : ∀ p ∈ (branchesBelow.take 3).getLast?, p.span.endLine < 3 := by decide
  refine ⟨hread, hnoted, hline, ?_⟩
  obtain ⟨found, hfound, hmarks⟩ := ofTokens_line_starts hread
  obtain rfl : marks = found := by
    rw [hnoted, Option.some.injEq, Except.ok.injEq, Noted.mk.injEq] at hfound
    exact hfound.2
  rcases hmarks (branchesBelow.take 3) _ _ rfl hline (by decide) with h | ⟨-, h⟩
  · simp [marks, branchesBelow] at h
  · exact h

def commaBelow : List Token :=
  [⟨.print, "print", ⟨0, 5, 1, 0, 1⟩⟩, ⟨.identifier, "a", ⟨6, 7, 1, 6, 1⟩⟩,
    ⟨.comma, ",", ⟨8, 9, 2, 0, 2⟩⟩, ⟨.identifier, "b", ⟨10, 11, 2, 2, 2⟩⟩,
    ⟨.eof, "", ⟨11, 11, 2, 3, 2⟩⟩]

/-- Commas are an exception: this one begins a line, but no statement. -/
theorem not_noted_commaBelow :
    Token.tokenize "print a\n, b" = .ok commaBelow ∧
      ofTokens commaBelow = .ok (.block [.print [.var "a", .var "b"]]) ∧
      ¬ ∃ root marks, ofTokensNoted commaBelow = some (.ok ⟨root, marks⟩) ∧
        ∀ us t vs, commaBelow.takeWhile (·.kind ≠ .eof) = us ++ t :: vs →
          (∀ p ∈ us.getLast?, p.span.endLine < t.span.line) →
          .statement (t :: vs) ∈ marks ∨ t.kind = .elseKeyword ∧ .elseBranch (t :: vs) ∈ marks := by
  refine ⟨by cbv, rfl, ?_⟩
  rintro ⟨root, marks, hnoted, hmarks⟩
  have hread : ofTokensNoted commaBelow =
      some (.ok ⟨.block [.print [.var "a", .var "b"]], [.statement (commaBelow.take 4)]⟩) := by rfl
  rw [hread] at hnoted
  cases hnoted
  rcases hmarks (commaBelow.take 2) _ _ rfl (by decide) with h | ⟨hkind, -⟩
  · simp [commaBelow] at h
  · cases hkind

end Statement

end IntScript
