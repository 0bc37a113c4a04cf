import IntScript.Proofs.Grammar.Layout
import IntScript.Proofs.Grammar.Written

/-!
# Written statements

The tokens of a written statement are read as it, whatever is written below and closes it.
-/

namespace IntScript

namespace Writing

variable {w : Writing} {p q : Place} {t : Token}

def next (w : Writing) (q : Place) : Place := (q.past (Glyph.chars w.here)).step '\n'

def tokens (w : Writing) (q : Place) : List Token :=
  Glyph.tokens q w.here ++ Row.tokens (w.next q) w.below

def finish (w : Writing) (q : Place) : Place := (w.next q).past (w.below.flatMap Row.chars)

theorem tokens_row (gs : List Glyph) (q : Place) :
    (Writing.mk gs []).tokens q = Glyph.tokens q gs := by
  rw [tokens, Row.tokens, List.append_nil]

theorem finish_column (w : Writing) (q : Place) : (w.finish q).column = 0 :=
  Row.past_rows_column rfl

theorem tokens_behind (gs : List Glyph) (w : Writing) (q : Place) :
    (w.behind gs).tokens q = Glyph.tokens q gs ++ w.tokens (q.past (Glyph.chars gs)) := by
  simp only [tokens, next, behind, Glyph.tokens_append, Glyph.chars_append, Place.past_append,
    List.append_assoc]

theorem tokens_below (w : Writing) (rs : List Row) (q : Place) :
    (Writing.mk w.here (w.below ++ rs)).tokens q = w.tokens q ++ Row.tokens (w.finish q) rs := by
  rw [tokens, tokens, Row.tokens_append, List.append_assoc]
  rfl

theorem tokens_rows (w : Writing) (column : Nat) (rs : List Row) (p : Place) :
    Row.tokens p (w.rows column ++ rs) =
      w.tokens (Row.start ⟨column, w.here⟩ p) ++
        Row.tokens (w.finish (Row.start ⟨column, w.here⟩ p)) rs := by
  have hplace : p.past (Row.chars ⟨column, w.here⟩) = w.next (Row.start ⟨column, w.here⟩ p) := by
    rw [Row.chars, Place.past_append, Place.past_append]
    rfl
  rw [rows, List.cons_append, Row.tokens, Row.tokens_append, hplace, tokens, finish,
    List.append_assoc]

theorem Legible.line_of_mem_tokens (h : w.Legible) (ht : t ∈ w.tokens q) :
    q.line ≤ t.span.line ∧ t.span.endLine < (w.finish q).line := by
  have hnext : (w.next q).line = q.line + 1 := by
    have hhere := (Glyph.past_chars (p := q) h.1).1
    simp [next, Place.step, hhere]
  rcases List.mem_append.1 ht with ht | ht
  · obtain ⟨hline, hendLine⟩ := Glyph.line_of_mem_tokens h.1 ht
    have hrest := Place.line_le_past (w.below.flatMap Row.chars) (w.next q)
    rw [← finish] at hrest
    omega
  · obtain ⟨hline, hendLine⟩ := Row.line_of_mem_tokens h.2 ht
    exact ⟨by omega, hendLine⟩

end Writing

namespace Grammar

open IntScript.Action Glyph

variable {gs : List Glyph} {p q : Place} {s : Statement} {ss : List Statement} {e : Expression}

theorem isChain_tokens (h : ∀ g ∈ gs, g.Legible) (p : Place) :
    (tokens p gs).IsChain Token.Joins := by
  apply List.Pairwise.isChain
  apply List.pairwise_of_forall_mem_list
  intro t ht u hu
  exact (line_of_mem_tokens h hu).1.trans (line_of_mem_tokens h ht).2.symm

theorem write_head (h : s.WellFormed .written .line) (header column : Nat) :
    ∃ g gs, (s.write header column).here = g :: gs ∧ g.kind ≠ .elseKeyword ∧ g.kind ≠ .comma := by
  cases h with
  | expression => exact ⟨_, _, rfl, by decide, by decide⟩
  | print => exact ⟨_, _, rfl, by decide, by decide⟩
  | assign => exact ⟨_, _, rfl, nofun, nofun⟩
  | ifElse => exact ⟨_, _, rfl, by decide, by decide⟩
  | define => exact ⟨_, _, rfl, by decide, by decide⟩
  | @giveBack value =>
    cases value with
    | none => exact ⟨_, _, rfl, by decide, by decide⟩
    | some e => exact ⟨_, _, rfl, by decide, by decide⟩

theorem tokens_write_head (h : s.WellFormed .written .line) (header : Nat) (q : Place) :
    ∃ t ts, (s.write header q.column).tokens q = t :: ts ∧ Leads q.column t ∧
      t.span.line = q.line := by
  obtain ⟨g, gs, hhere, helse, hcomma⟩ := write_head h header q.column
  rw [Writing.tokens, hhere, tokens_cons, List.cons_append]
  exact ⟨_, _, rfl, ⟨token_column, helse, hcomma⟩, rfl⟩

theorem tokens_write_row (header : Nat) (q : Place) (h : s.WellFormed .written .line)
    (hs : s.write header q.column = ⟨gs, []⟩) :
    (s.write header q.column).tokens q = tokens q gs ∧ (tokens q gs).IsChain Token.Joins := by
  have hlegible := (legible_write h header q.column).1
  rw [hs] at hlegible ⊢
  exact ⟨Writing.tokens_row gs q, isChain_tokens hlegible q⟩

theorem tokens_writeLines_head (column : Nat) (hne : ss ≠ [])
    (hss : ∀ s ∈ ss, s.WellFormed .written .line) (hp : p.column = 0) :
    ∃ t ts, Row.tokens p (Statement.writeLines column ss) = t :: ts ∧ Leads column t := by
  obtain ⟨s, ss, rfl⟩ := List.exists_cons_of_ne_nil hne
  have hstart := (Row.start_line ⟨column, (s.write column column).here⟩ p).2
  rw [hp, Nat.zero_add] at hstart
  rw [Statement.writeLines, Writing.tokens_rows]
  generalize Row.start ⟨column, (s.write column column).here⟩ p = q at hstart ⊢
  subst hstart
  obtain ⟨t, ts, htokens, ht, -⟩ := tokens_write_head (hss s (by simp)) q.column q
  rw [htokens]
  exact ⟨t, _, rfl, ht⟩

theorem readsLines_writeLines (column : Nat) (hss : ∀ s ∈ ss, s.WellFormed .written .line)
    (hreads : ∀ s ∈ ss, ∀ header (q : Place),
      ReadsStatement ((s.write header q.column).tokens q) s q.column)
    (hp : p.column = 0) :
    ReadsLines (Row.tokens p (Statement.writeLines column ss)) ss column := by
  induction ss generalizing p with
  | nil => exact readsLines_nil
  | cons s ss ih =>
    have hs := hss s (by simp)
    have hrest : ∀ s ∈ ss, s.WellFormed .written .line := fun s hs => hss s (by simp [hs])
    have hlegible := legible_write hs
    have hlegibleRest := legible_writeLines (fun s hs => legible_write (hrest s hs))
    have hstart := (Row.start_line ⟨column, (s.write column column).here⟩ p).2
    rw [hp, Nat.zero_add] at hstart
    rw [Statement.writeLines, Writing.tokens_rows]
    generalize Row.start ⟨column, (s.write column column).here⟩ p = q at hstart ⊢
    subst hstart
    obtain ⟨t, ts, htokens, ⟨ht, -⟩, -⟩ := tokens_write_head hs q.column q
    have hfinish := Writing.finish_column (s.write q.column q.column) q
    have hread := hreads s (by simp) q.column q
    have hlines := ih hrest (fun s hs => hreads s (by simp [hs])) hfinish
    have habove : ∀ t ∈ (s.write q.column q.column).tokens q,
        t.span.endLine < ((s.write q.column q.column).finish q).line :=
      fun t ht => ((hlegible _ _).line_of_mem_tokens ht).2
    rw [htokens] at hread habove ⊢
    apply readsLines_cons ht hread hlines
    intro u hu
    have hbelow := (Row.line_of_mem_tokens (hlegibleRest _) (List.mem_of_mem_head? hu)).1
    refine ⟨?_, fun t ht => Nat.lt_of_lt_of_le (habove t ht) hbelow⟩
    cases ss with
    | nil => cases hu
    | cons r ss =>
      obtain ⟨v, vs, hvs, hv⟩ :=
        tokens_writeLines_head q.column (List.cons_ne_nil r ss) hrest hfinish
      rw [hvs] at hu
      cases hu
      exact hv

theorem names_commaSeparated {x : String} {xs : List String} (p : Place) :
    Names (tokens p (commaSeparated ((x :: xs).map fun y => [Glyph.name y]))) (x :: xs) := by
  induction xs generalizing x p with
  | nil =>
    have hlast := Names.last (t := (Glyph.name x).token p) rfl
    rwa [lexeme_name] at hlast
  | cons y xs ih =>
    have hrest := ih (x := y) (((p.past (Glyph.name x).spelling).step ' ').past
      (sign .comma).spelling |>.step ' ')
    have hcons := Names.cons (t := (Glyph.name x).token p)
      (c := (sign .comma).token ((p.past (Glyph.name x).spelling).step ' ')) rfl rfl hrest
    rwa [lexeme_name] at hcons

section Statements

variable {header : Nat} {o : Token}

theorem past_header (h : ∀ g ∈ gs, g.Legible) (hne : gs ≠ []) (q : Place) :
    (q.past (Glyph.chars gs)).line = q.line ∧ q.column < (q.past (Glyph.chars gs)).column := by
  obtain ⟨hline, hcolumn⟩ := Glyph.past_chars (p := q) h
  obtain ⟨g, gs, rfl⟩ := List.exists_cons_of_ne_nil hne
  refine ⟨hline, ?_⟩
  simp only [width, List.map_cons, List.sum_cons] at hcolumn
  omega

/-- What is written of a statement is read as it: on a line of its own, or behind the colon of a header
further left. -/
def ReadsWritten : Statement.Role → Statement → Prop
  | .line, s => ∀ header (q : Place), ReadsStatement ((s.write header q.column).tokens q) s q.column
  | .body, s => ∀ header (q : Place) o, o.kind = .colon → o.span.endLine = q.line →
      header < q.column → ReadsBody o ((s.write header q.column).tokens q) s header

theorem readsWritten_expression (h : e.WellFormed .written) :
    ReadsWritten .line (.expression e) := by
  intro header q
  have hderives := derives_inParens (derives_glyphs h) q
  have hlevel := Derives.operand (Derives.operand_of_primary .comparison hderives)
  obtain ⟨htokens, hline⟩ := tokens_write_row header q (.expression h) (by rw [Statement.write])
  rw [htokens]
  exact readsStatement_expression hlevel hline

theorem readsWritten_print {es : List Expression} (h : ∀ e ∈ es, e.WellFormed .written) :
    ReadsWritten .line (.print es) := by
  intro header q
  obtain ⟨htokens, hline⟩ := tokens_write_row header q (.print h) (by rw [Statement.write])
  rw [htokens]
  rw [tokens_cons] at hline ⊢
  cases es with
  | nil => exact readsStatement_printEmpty token_kind
  | cons e es =>
    have hitems := derives_items (List.cons_ne_nil e es) fun e he => derives_glyphs (h e he)
    exact readsStatement_print token_kind (hitems _) hline

theorem readsWritten_assign {x : String} (hx : Token.IsName x) (h : e.WellFormed .written) :
    ReadsWritten .line (.assign x e) := by
  intro header q
  obtain ⟨htokens, hline⟩ := tokens_write_row header q (.assign hx h) (by rw [Statement.write])
  rw [htokens]
  rw [tokens_cons, tokens_cons] at hline ⊢
  have hvalue := derives_inParens (derives_glyphs h)
  have hname : ((Glyph.name x).token q).kind = .identifier := rfl
  have hlexeme := lexeme_name x q
  generalize (Glyph.name x).token q = t at hname hlexeme hline ⊢
  subst hlexeme
  exact readsStatement_assign hname token_kind (hvalue _).expression_of_primary hline

theorem readsWritten_giveBack {value : Option Expression}
    (h : ∀ e ∈ value, e.WellFormed .written) : ReadsWritten .line (.giveBack value) := by
  intro header q
  cases value with
  | none =>
    rw [Statement.write, Writing.tokens_row]
    exact readsStatement_giveBackNone token_kind
  | some e =>
    obtain ⟨htokens, hline⟩ := tokens_write_row header q (.giveBack h) (by rw [Statement.write])
    rw [htokens]
    rw [tokens_cons] at hline ⊢
    have hvalue := derives_inParens (derives_glyphs (h e rfl))
    exact readsStatement_giveBack token_kind (hvalue _).expression_of_primary hline

theorem readsWritten_inline (h : s.WellFormed .written .line) (hs : ReadsWritten .line s) :
    ReadsWritten .body s := by
  intro header q o ho hline hcolumn
  obtain ⟨t, ts, htokens, -, ht⟩ := tokens_write_head h header q
  have hread := hs header q
  have hjoins : o.Joins t := ht.trans hline.symm
  rw [htokens] at hread ⊢
  exact readsBody_inline ho hjoins hcolumn hread

theorem readsWritten_block (hne : ss ≠ []) (hss : ∀ s ∈ ss, s.WellFormed .written .line)
    (hreads : ∀ s ∈ ss, ReadsWritten .line s) : ReadsWritten .body (.block ss) := by
  intro header q o ho hline hcolumn
  have hnext : (q.step '\n').column = 0 := rfl
  have hlines := readsLines_writeLines (header + 1) hss hreads hnext
  have hlegible := legible_writeLines (fun s hs => legible_write (hss s hs)) (header + 1)
  have htokens : (Statement.write header q.column (.block ss)).tokens q =
      Row.tokens (q.step '\n') (Statement.writeLines (header + 1) ss) := by
    rw [Statement.write]
    rfl
  obtain ⟨t, ts, ht, hcolumn', -⟩ := tokens_writeLines_head (header + 1) hne hss hnext
  have hmem : t ∈ Row.tokens (q.step '\n') (Statement.writeLines (header + 1) ss) := by
    rw [ht]
    exact List.mem_cons_self
  have hbelow : q.line + 1 ≤ t.span.line := (Row.line_of_mem_tokens hlegible hmem).1
  rw [htokens]
  rw [ht, ← hcolumn'] at hlines
  rw [ht]
  exact readsBody_block ho (by omega) (by omega) hlines

theorem readsBody_behind (h : ReadsWritten .body s) (hgs : ∀ g ∈ gs, g.Legible) (hne : gs ≠ [])
    (ho : o ∈ tokens q gs) (hkind : o.kind = .colon) :
    ReadsBody o ((s.write q.column (q.column + width gs)).tokens (q.past (Glyph.chars gs))) s
      q.column := by
  obtain ⟨hline, hcolumn⟩ := past_header hgs hne q
  have hendLine := (line_of_mem_tokens hgs ho).2
  rw [← (Glyph.past_chars (p := q) hgs).2]
  exact h q.column _ o hkind (hendLine.trans hline.symm) hcolumn

theorem tokens_define (x : String) (xs : List String) (q : Place) :
    ∃ t y l ts r o, tokens q (sign .defKeyword :: Glyph.name x ::
        (inParens (commaSeparated (xs.map fun y => [Glyph.name y])) ++ [sign .colon])) =
      t :: y :: l :: (ts ++ [r, o]) ∧ t.kind = .defKeyword ∧ t.span.column = q.column ∧
      y.kind = .identifier ∧ y.lexeme = x ∧ l.kind = .lparen ∧
      (ts = [] ∧ xs = [] ∨ Names ts xs) ∧ r.kind = .rparen ∧ o.kind = .colon := by
  have hnames (p : Place) : tokens p (commaSeparated (xs.map fun y => [Glyph.name y])) = [] ∧
      xs = [] ∨ Names (tokens p (commaSeparated (xs.map fun y => [Glyph.name y]))) xs := by
    cases xs with
    | nil => exact .inl ⟨rfl, rfl⟩
    | cons x xs => exact .inr (names_commaSeparated p)
  rw [inParens, tokens_cons, tokens_cons, List.cons_append, tokens_cons, List.append_assoc,
    tokens_append]
  exact ⟨_, _, _, _, _, _, rfl, token_kind, token_column, token_kind, lexeme_name _ _, token_kind,
    hnames _, token_kind, token_kind⟩

theorem readsWritten_define {x : String} {xs : List String} (hx : Token.IsName x)
    (hxs : ∀ y ∈ xs, Token.IsName y) (hnodup : xs.Nodup) (h : ReadsWritten .body s) :
    ReadsWritten .line (.define x xs s) := by
  intro header q
  have hopening := legible_define hx hxs
  obtain ⟨t, y, l, ts, r, o, htokens, ht, hcolumn, hy, rfl, hl, hnames, hr, ho⟩ :=
    tokens_define x xs q
  have hline := isChain_tokens hopening q
  have hbody : o ∈ tokens q _ → ReadsBody o _ s q.column := fun hmem =>
    readsBody_behind h hopening (List.cons_ne_nil _ _) hmem ho
  rw [Statement.write, Writing.tokens_behind]
  rw [htokens] at hline hbody ⊢
  have hread := readsStatement_define ht hy hl hnames hnodup hr hline (hcolumn ▸ hbody (by simp))
  rw [hcolumn] at hread
  simpa using hread

theorem tokens_if (h : e.WellFormed .written) (q : Place) :
    ∃ t ts o, tokens q (sign .ifKeyword :: (inParens e.glyphs ++ [sign .colon])) =
      t :: (ts ++ [o]) ∧ t.kind = .ifKeyword ∧ t.span.column = q.column ∧
      Derives .expression ts e ∧ o.kind = .colon := by
  have hcondition := derives_inParens (derives_glyphs h)
  rw [tokens_cons, tokens_append]
  exact ⟨_, _, _, rfl, token_kind, token_column, (hcondition _).expression_of_primary, token_kind⟩

theorem tokens_writeElse {r : Statement} (column : Nat) (hp : p.column = 0)
    (h : ReadsWritten .body r) :
    ∃ l o ts, Row.tokens p (Statement.writeElse column (some r)) = l :: o :: ts ∧
      l.kind = .elseKeyword ∧ l.span.column = column ∧ l.span.line = p.line ∧ l.Joins o ∧
      ReadsBody o ts r column := by
  rw [Statement.writeElse, ← List.append_nil (Writing.rows column _), Writing.tokens_rows,
    Row.tokens, List.append_nil, Writing.tokens_behind]
  generalize Writing.here _ = gs
  obtain ⟨hline, hcolumn⟩ := Row.start_line ⟨column, gs⟩ p
  rw [hp, Nat.zero_add] at hcolumn
  generalize Row.start ⟨column, gs⟩ p = q at hline hcolumn ⊢
  subst hcolumn
  have hcolon : (sign .colon).token ((q.past (sign .elseKeyword).spelling).step ' ') ∈
      tokens q [sign .elseKeyword, sign .colon] := by simp
  have hbody := readsBody_behind h legible_else (List.cons_ne_nil _ _) hcolon token_kind
  have hjoins := isChain_tokens legible_else q
  rw [tokens_cons, tokens_cons, tokens_nil] at hjoins ⊢
  exact ⟨_, _, _, rfl, token_kind, token_column, hline, (List.isChain_cons_cons.1 hjoins).1, hbody⟩

theorem readsWritten_ifElse {r : Option Statement} (he : e.WellFormed .written)
    (hs : s.WellFormed .written .body) (h : ReadsWritten .body s)
    (helse : ∀ t ∈ r, ReadsWritten .body t) : ReadsWritten .line (.ifElse e s r) := by
  intro header q
  have hopening := legible_if he
  have hline := isChain_tokens hopening q
  obtain ⟨t, ts, o, htokens, ht, hcolumn, hcondition, ho⟩ := tokens_if he q
  rw [Statement.write, Writing.tokens_below]
  generalize sign .ifKeyword :: (inParens e.glyphs ++ [sign .colon]) = gs at *
  have hne : gs ≠ [] := by
    rintro rfl
    cases htokens
  have hcolon : o ∈ tokens q gs := by simp [htokens]
  have hbody := readsBody_behind h hopening hne hcolon ho
  have hlegible := (legible_write hs q.column (q.column + width gs)).behind hopening
  generalize s.write q.column (q.column + width gs) = w at *
  have habove : ∀ u ∈ o :: w.tokens (q.past (Glyph.chars gs)),
      u.span.endLine < ((w.behind gs).finish q).line := by
    intro u hu
    apply (hlegible.line_of_mem_tokens _).2
    rw [Writing.tokens_behind, htokens]
    rcases List.mem_cons.1 hu with rfl | hu
    · simp
    · simp [hu]
  rw [Writing.tokens_behind]
  rw [htokens] at hline ⊢
  rw [← hcolumn] at hbody
  cases r with
  | none =>
    have hread := readsStatement_if ht hcondition ho hbody hline
    rw [hcolumn] at hread
    simpa [Statement.writeElse, Row.tokens] using hread
  | some r =>
    obtain ⟨l, o', us, helseTokens, hl, hlcolumn, hlline, hjoins, helseBody⟩ :=
      tokens_writeElse t.span.column (Writing.finish_column (w.behind gs) q) (helse r rfl)
    rw [← hlline] at habove
    have hread := readsStatement_ifElse ht hcondition ho hbody hline hl hlcolumn habove hjoins
      helseBody
    rw [← helseTokens, hcolumn] at hread
    simpa using hread

theorem readsWritten {role : Statement.Role} (h : s.WellFormed .written role) :
    ReadsWritten role s := by
  induction h with
  | expression h => exact readsWritten_expression h
  | print h => exact readsWritten_print h
  | assign h hvalue => exact readsWritten_assign h hvalue
  | ifElse h hthen _ ihthen ihelse => exact readsWritten_ifElse h hthen ihthen ihelse
  | define h hparameters hdistinct _ ih => exact readsWritten_define h hparameters hdistinct ih
  | giveBack h => exact readsWritten_giveBack h
  | inline h ih => exact readsWritten_inline h ih
  | block hne h ih => exact readsWritten_block hne h ih

end Statements

end Grammar

end IntScript
