import IntScript.Proofs.Grammar.Chunks
import IntScript.Proofs.Token.Newline

/-!
# Programs one below the other

The end of a program and the first token of another one at the left margin close what is open alike: blocks,
branches, lists and expressions. So two programs with a newline between them are read as one, with the
statements of both.
-/

namespace IntScript

open IntScript.Action Grammar

variable {m : Motion} {b c c' d x : Cursor} {column : Nat} {s : Statement} {ss rs : List Statement}

namespace Grammar

def leadsStatement (kind : TokenKind) : Bool :=
  beginsStatement kind || Nonterminal.expression.begins kind

namespace Parser

theorem takes_plainStatement_head (n : Nat) : Takes (plainStatement n) c fun ts _ =>
    ∃ t us, ts = t :: us ∧ Nonterminal.expression.begins t.kind = true := by
  apply takes_bind takes_takeTarget
  rintro ts o c₁ - (⟨rfl, rfl⟩ | ⟨t, u, rfl, ht, -, -, rfl⟩)
  · apply takes_bind (readsOffHere_expressionHere n c₁)
    rintro us e c₂ - ⟨he, -⟩
    apply takes_pure
    obtain ⟨t, vs, rfl, ht⟩ := derives_head he
    exact ⟨t, vs, by simp, ht⟩
  · apply takes_bind (readsOff_expression n c₁)
    rintro us e c₂ - -
    apply takes_pure
    exact ⟨t, u :: us, by simp, by rw [ht]; rfl⟩

theorem statement_head {n : Nat} (h : statement n c = some (.ok s, d)) :
    ∃ t ts, c.ahead = t :: ts ∧ leadsStatement t.kind = true := by
  cases n with
  | zero => cases h
  | succ n =>
    rcases bind_eq_some_iff.1 h with ⟨e, -, he⟩ | ⟨r, c₁, hopen, -⟩
    · cases he
    by_cases hkeyword : ∃ t ∈ c.ahead.head?, beginsStatement t.kind = true
    · obtain ⟨t, ht, hkind⟩ := hkeyword
      obtain ⟨ts, hahead⟩ := List.head?_eq_some_iff.1 ht
      exact ⟨t, ts, hahead, by rw [leadsStatement, hkind, Bool.true_or]⟩
    · have hplain : ∀ t ∈ c.ahead.head?, beginsStatement t.kind = false :=
        fun t ht => Bool.eq_false_iff.2 fun hkind => hkeyword ⟨t, ht, hkind⟩
      rw [openStatement_plain hplain] at hopen
      obtain ⟨ts, hpass, t, us, rfl, ht⟩ := takes_plainStatement_head _ _ _ hopen
      exact ⟨t, us ++ c₁.ahead, hpass.ahead, by rw [leadsStatement, ht, Bool.or_true]⟩

end Parser

namespace Cursor

theorem ReadTo.trans (h : ReadTo column c ss d) (h' : ReadTo column d rs x) :
    ReadTo column c (ss ++ rs) x := by
  induction h with
  | refl => exact h'
  | step hend hnext _ ih => exact .step hend hnext (ih h')

theorem ReadTo.eq_of_atEnd (h : ReadTo column c ss d) (hend : c.atEnd = true) : ss = [] ∧ d = c := by
  cases h with
  | refl => exact ⟨rfl, rfl⟩
  | step hnot =>
    rw [hend] at hnot
    cases hnot

theorem program_of_readTo (hcolumn : c.atEnd = false → c.position.column = column)
    (h : ReadTo column c ss d) (hend : d.atEnd = true) : c.program = (.ok (.block ss), d) := by
  cases hc : c.atEnd with
  | false => exact program_of_atEnd (hcolumn hc) h hend
  | true =>
    obtain ⟨rfl, rfl⟩ := h.eq_of_atEnd hc
    exact program_of_atEnd rfl .refl hend

theorem exists_readTo_of_program (hcolumn : c.atEnd = false → c.position.column = column)
    (h : c.program.1 = .ok (.block ss)) : ∃ d, ReadTo column c ss d ∧ d.atEnd = true := by
  obtain ⟨rs, d, hread, hend | ⟨hend, e, x, herror⟩⟩ := exists_readTo c column
  · rw [program_of_readTo hcolumn hread hend] at h
    cases h
    exact ⟨d, hread, hend⟩
  · have hc : c.atEnd = false := by
      by_contra hc
      rw [Bool.not_eq_false] at hc
      obtain ⟨-, rfl⟩ := hread.eq_of_atEnd hc
      rw [hc] at hend
      cases hend
    obtain ⟨e', he⟩ := program_of_error (hcolumn hc) hread hend herror
    rw [he] at h
    cases h

theorem readTo_border (h : Alike m b c c') (hcolumn : c.atEnd = false → c.position.column = column)
    (hprogram : c.program.1 = .ok (.block ss)) : ReadTo (m.column column) c' ss b := by
  obtain ⟨d, hread, hend⟩ := exists_readTo_of_program hcolumn hprogram
  obtain ⟨d', hread', hd, -⟩ := hread.alike h
  obtain rfl := hd.atEnd hend
  exact hread'

theorem program_head (h : c.program.1 = .ok (.block ss)) :
    ∀ t ∈ c.ahead.head?, leadsStatement t.kind = true := by
  intro t ht
  obtain ⟨ts, hahead⟩ := List.head?_eq_some_iff.1 ht
  have hend : c.atEnd = false := by rw [atEnd, hahead]; rfl
  obtain ⟨d, hread, hd⟩ := exists_readTo_of_program (fun _ => rfl) h
  cases hread with
  | refl =>
    rw [hend] at hd
    cases hd
  | step _ hnext _ =>
    have hfit := fit_of_topLevelStatement hend hnext
    obtain ⟨n, hn⟩ := (settles_statement_of_within hend hfit hnext).exists
    obtain ⟨u, us, hu, hkind⟩ := Parser.statement_head hn
    rw [hahead] at hu
    cases hu
    exact hkind

end Cursor

end Grammar

section Below

variable {a b : String} {ts us : List Token} {p q : Place}

theorem Token.Segmented.tokenize_newline (ha : Token.Segmented .front a.toList ts (.ok (Token.endMark p)))
    (hb : Token.Segmented .front b.toList us (.ok (Token.endMark q))) : ∃ bytes lines,
      Token.tokenize (a ++ "\n" ++ b) =
        .ok (ts ++ us.map (Token.shift bytes lines) ++ [Token.endMark (q.shift bytes lines)]) ∧
      (∀ t ∈ ts, t.span.endLine ≤ lines) ∧ ∀ u ∈ us, 0 < u.span.line := by
  have hnothing (p : Place) : Token.Segmented p [] [] (.ok (Token.endMark p)) :=
    .finished (.done nofun)
  refine ⟨a.utf8ByteSize + 1, a.toList.count '\n' + 1, ?_, ?_, ?_⟩
  · exact (ha.joined hb).tokens_eq
  · have hline := ha.append_newline (hnothing _)
    intro t ht
    have hlast := (hline.line_bounds (by simp [EndsLine]) (List.mem_append_left _ ht)).2
    rw [Place.past_newline] at hlast
    simp only [Place.shift, Place.front] at hlast
    omega
  · have hline := hb.append_newline (hnothing _)
    intro u hu
    exact (hline.line_bounds (by simp [EndsLine]) (List.mem_append_left _ hu)).1

theorem Grammar.Cursor.position_column_of_head {previous : Option Token} {finish : Position}
    (h : ∀ t ∈ ts.head?, t.span.column = column) (hend : (Cursor.mk previous ts finish).atEnd = false) :
    (Cursor.mk previous ts finish).position.column = column := by
  obtain ⟨t, ts, rfl⟩ := List.exists_cons_of_ne_nil (List.isEmpty_eq_false_iff.1 hend)
  exact h t rfl

theorem Grammar.Cursor.borders_shift {previous : Option Token} {last : Position} {lines : Nat}
    (h : (Cursor.mk none us last).program.1 = .ok (.block rs)) (bytes : Nat) (finish : Position)
    (hleft : ∀ u ∈ us.head?, u.span.column = 0) (hbelow : ∀ u ∈ us.head?, 0 < u.span.line)
    (hprevious : ∀ t ∈ previous, t.span.endLine ≤ lines) :
    Cursor.Borders ⟨previous, us.map (Token.shift bytes lines), finish⟩ := by
  cases us with
  | nil => nofun
  | cons u us =>
    have hkind := program_head h u rfl
    rintro _ ⟨⟩
    refine ⟨startsLine_of_lt fun t ht => (hprevious t ht).trans_lt ?_, hleft u rfl, ?_, ?_⟩
    · exact Nat.lt_add_of_pos_left (hbelow u rfl)
    · rintro hcomma
      rw [show u.kind = .comma from hcomma] at hkind
      cases hkind
    · rintro helse
      rw [show u.kind = .elseKeyword from helse] at hkind
      cases hkind

theorem Grammar.Cursor.program_below {bytes lines : Nat} {f g finish : Position}
    (hts : (Cursor.mk none ts f).program.1 = .ok (.block ss))
    (hus : (Cursor.mk none us g).program.1 = .ok (.block rs))
    (hleft : ∀ t ∈ ts.head?, t.span.column = 0) (hright : ∀ u ∈ us.head?, u.span.column = 0)
    (hlines : ∀ t ∈ ts, t.span.endLine ≤ lines) (hbelow : ∀ u ∈ us, 0 < u.span.line) :
    (Cursor.mk none (ts ++ us.map (Token.shift bytes lines)) finish).program.1 =
      .ok (.block (ss ++ rs)) := by
  have hfront : ∀ u ∈ us.head?, 0 < u.span.line := fun u hu => hbelow u (List.mem_of_mem_head? hu)
  have hlast : ∀ t ∈ lastOf none ts, t.span.endLine ≤ lines := by
    rw [lastOf_none]
    exact fun t ht => hlines t (List.mem_of_mem_getLast? ht)
  have hborders := borders_shift hus bytes finish hright hfront hlast
  have hfirst : Alike (.down 0) ⟨lastOf none ts, us.map (Token.shift bytes lines), finish⟩
      ⟨none, ts, f⟩ ⟨none, ts ++ us.map (Token.shift bytes lines), finish⟩ := by
    refine ⟨⟨ts, ?_, rfl, rfl⟩, fun _ => rfl, rfl, hborders⟩
    exact List.forall₂_same.2 fun t _ => ⟨rfl, rfl, rfl, rfl, rfl⟩
  have hsecond : Alike (.down lines)
      ⟨lastOf (lastOf none ts) (us.map (Token.shift bytes lines)), [], finish⟩ ⟨none, us, g⟩
      ⟨lastOf none ts, us.map (Token.shift bytes lines) ++ [], finish⟩ :=
    alike_shift bytes hfront hlast nofun
  rw [List.append_nil] at hsecond
  have hread := readTo_border hfirst (position_column_of_head hleft) hts
  have hread' := readTo_border hsecond (position_column_of_head hright) hus
  have hcolumn : ∀ t ∈ (ts ++ us.map (Token.shift bytes lines)).head?, t.span.column = 0 := by
    cases ts with
    | cons t ts => exact hleft
    | nil =>
      rw [List.nil_append, List.head?_map]
      rintro _ hv
      obtain ⟨u, hu, rfl⟩ := Option.map_eq_some_iff.1 hv
      exact hright u hu
  exact congrArg Prod.fst
    (program_of_readTo (position_column_of_head hcolumn) (hread.trans hread') rfl)

/-- Two programs that begin at the left margin, with a newline between them, are a program with the
statements of both. -/
theorem Statement.ofTokens_tokenize_append {ts us : List Token} (ha : Token.tokenize a = .ok ts)
    (hb : Token.tokenize b = .ok us) (hts : Statement.ofTokens ts = .ok (.block ss))
    (hus : Statement.ofTokens us = .ok (.block rs))
    (hleft : ∀ t ∈ ts.head?, t.kind ≠ .eof → t.span.column = 0)
    (hright : ∀ u ∈ us.head?, u.kind ≠ .eof → u.span.column = 0) :
    ∃ vs, Token.tokenize (a ++ "\n" ++ b) = .ok vs ∧
      Statement.ofTokens vs = .ok (.block (ss ++ rs)) := by
  obtain ⟨ts, p, rfl, hsegments⟩ := Token.exists_segmented_of_tokenize ha
  obtain ⟨us, q, rfl, hsegments'⟩ := Token.exists_segmented_of_tokenize hb
  have hmarked := hsegments.marked.2
  have hmarked' := hsegments'.marked.2
  obtain ⟨bytes, lines, htokens, hlines, hbelow⟩ := hsegments.tokenize_newline hsegments'
  have hboth : ∀ t ∈ ts ++ us.map (Token.shift bytes lines), t.kind ≠ .eof := by
    simp only [List.mem_append, List.mem_map]
    rintro t (ht | ⟨u, hu, rfl⟩)
    · exact hmarked t ht
    · exact hmarked' u hu
  have hfirst {ts : List Token} {last : Token} (hkind : ∀ t ∈ ts, t.kind ≠ .eof)
      (h : ∀ t ∈ (ts ++ [last]).head?, t.kind ≠ .eof → t.span.column = 0) :
      ∀ t ∈ ts.head?, t.span.column = 0 := by
    intro t ht
    obtain ⟨vs, rfl⟩ := List.head?_eq_some_iff.1 ht
    exact h t rfl (hkind t List.mem_cons_self)
  rw [Statement.ofTokens, Cursor.ofTokens_append hmarked rfl] at hts
  rw [Statement.ofTokens, Cursor.ofTokens_append hmarked' rfl] at hus
  refine ⟨_, htokens, ?_⟩
  rw [Statement.ofTokens, Cursor.ofTokens_append hboth rfl]
  exact Cursor.program_below hts hus (hfirst hmarked hleft) (hfirst hmarked' hright) hlines hbelow

theorem Statement.ofTokens_tokenize_append_openBranch :
    ∃ vs, Token.tokenize ("if a:\n  print b #" ++ "\n" ++ "c = \"\n\"") = .ok vs ∧
      Statement.ofTokens vs =
        .ok (.block ([.ifElse (.var "a") (.block [.print [.var "b"]]) none] ++
          [.assign "c" (.text "\n")])) := by
  have ha : Token.tokenize "if a:\n  print b #" = .ok
      [⟨.ifKeyword, "if", ⟨0, 2, 1, 0, 1⟩⟩, ⟨.identifier, "a", ⟨3, 4, 1, 3, 1⟩⟩,
        ⟨.colon, ":", ⟨4, 5, 1, 4, 1⟩⟩, ⟨.print, "print", ⟨8, 13, 2, 2, 2⟩⟩,
        ⟨.identifier, "b", ⟨14, 15, 2, 8, 2⟩⟩, ⟨.eof, "", ⟨17, 17, 2, 11, 2⟩⟩] := by cbv
  have hb : Token.tokenize "c = \"\n\"" = .ok
      [⟨.identifier, "c", ⟨0, 1, 1, 0, 1⟩⟩, ⟨.assign, "=", ⟨2, 3, 1, 2, 1⟩⟩,
        ⟨.string, "\n", ⟨4, 7, 1, 4, 2⟩⟩, ⟨.eof, "", ⟨7, 7, 2, 1, 2⟩⟩] := by cbv
  exact ofTokens_tokenize_append ha hb rfl rfl (by decide) (by decide)

end Below

end IntScript
