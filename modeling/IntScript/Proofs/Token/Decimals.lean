import IntScript.Proofs.Token.Separated

/-!
# Words in decimal

A word in decimal is read as a run of digits, with a minus sign in front of it if the word is negative.
Words with commas between them are read one after the other, and stay on one line.
-/

namespace IntScript

theorem Word.ofList_decimal (w : Word) : String.ofList w.decimal = toString w.toInt := by
  rw [decimal]
  split
  next hw =>
    obtain ⟨n, hn⟩ := Int.eq_negSucc_of_lt_zero hw
    rw [hn, String.ofList_cons]
    rfl
  next hw =>
    obtain ⟨n, hn⟩ := Int.eq_ofNat_of_zero_le (Int.not_lt.1 hw)
    rw [hn]
    rfl

theorem Word.toList_toString (w : Word) : (toString w.toInt).toList = w.decimal := by
  rw [← ofList_decimal, String.toList_ofList]

def Word.decimals (ws : List Word) : List String := ws.map fun w => toString w.toInt

namespace Token

open Text

inductive OfWord (w : Word) : List Token → Prop where
  | plain {t : Token} (hw : 0 ≤ w.toInt) (ht : t.kind = .integer)
      (hlexeme : t.lexeme = toString w.toInt.natAbs) : OfWord w [t]
  | signed {m t : Token} (hw : w.toInt < 0) (hm : m.kind = .minus) (ht : t.kind = .integer)
      (hlexeme : t.lexeme = toString w.toInt.natAbs) : OfWord w [m, t]

inductive OfWords : List Token → List Word → Prop where
  | last {ts : List Token} {w : Word} (h : OfWord w ts) : OfWords ts [w]
  | more {ts us : List Token} {c : Token} {w : Word} {ws : List Word} (h : OfWord w ts)
      (hc : c.kind = .comma) (hrest : OfWords us ws) : OfWords (ts ++ c :: us) (w :: ws)

variable {blank cs rest : List Char} {p q : Place} {ts : List Token} {r : Except LexError Token}
  {w : Word} {ws : List Word} {n : Nat}

theorem Segmented.oneLine (h : Segmented p cs ts r) (hcs : '\n' ∉ cs) :
    ∀ t ∈ ts, t.span.line = p.line ∧ t.span.endLine = p.line := by
  induction h with
  | finished => exact nofun
  | unclosed => exact nofun
  | @token p q cs skipped text piece ts r hsplit _ hq hpiece _ ih =>
    rw [← hsplit, ← hpiece.split, List.mem_append, List.mem_append, not_or, not_or] at hcs
    obtain ⟨hskipped, htaken, hrest⟩ := hcs
    have hline : q.line = p.line := by
      rw [← hq]
      exact (Place.past_oneLine hskipped p).1
    have hendLine : (q.past piece.taken).line = p.line :=
      (Place.past_oneLine htaken q).1.trans hline
    rw [hendLine] at ih
    exact List.forall_mem_cons.2 ⟨⟨hline, hendLine⟩, ih hrest⟩

theorem isWhiteSpace_of_mem_nil : ∀ d ∈ ([] : List Char), isWhiteSpace d = true := nofun

theorem isWhiteSpace_of_mem_space : ∀ d ∈ [' '], isWhiteSpace d = true := by
  intro d hd
  rw [List.mem_singleton.1 hd]
  decide

theorem Segmented.sign {c : Char} (hvisible : IsVisible c) (hquote : c ≠ '"')
    (hword : continuesName c = false) (hequal : equalKind? c = none)
    (hblank : ∀ d ∈ blank, isWhiteSpace d = true)
    (h : Segmented ((p.past blank).past [c]) rest ts r) :
    ∃ t, t.kind = symbolKind c ∧ Segmented p (blank ++ c :: rest) (t :: ts) r := by
  have hread : readPiece c rest = some (.verbatim (symbolKind c) [c] rest) :=
    readPiece_single hquote hword (.inl hequal)
  have hgap : Gap blank (c :: rest) := gap_of_blank hblank fun d hd => by
    cases hd
    exact hvisible
  exact ⟨_, rfl, .token rfl hgap rfl (segment_readPiece hread) h⟩

theorem Segmented.digits (hrest : ∀ c ∈ rest.head?, continuesName c = false)
    (hblank : ∀ d ∈ blank, isWhiteSpace d = true)
    (h : Segmented ((p.past blank).past (Nat.toDigits 10 n)) rest ts r) :
    ∃ t, t.kind = .integer ∧ t.lexeme = toString n ∧
      Segmented p (blank ++ (Nat.toDigits 10 n ++ rest)) (t :: ts) r := by
  have hdigits := Word.isDigit_toDigits n
  have hword : ∀ d ∈ Nat.toDigits 10 n, continuesName d = true :=
    fun d hd => continuesName_of_isDigit (hdigits d hd)
  obtain ⟨c, cs, hcs⟩ := List.exists_cons_of_ne_nil (Nat.toDigits_ne_nil (b := 10) (n := n))
  have hread : readPiece c (cs ++ rest) = some (.verbatim .integer (Nat.toDigits 10 n) rest) := by
    apply readPiece_of_word Nat.toDigits_ne_nil hword (by rw [hcs, List.cons_append])
    exact readWord?_digits Nat.toDigits_ne_nil hdigits fun c hc => begins_no_word (hrest c hc)
  have hpiece := segment_readPiece hread
  rw [← List.cons_append, ← hcs] at hpiece
  have hgap : Gap blank (Nat.toDigits 10 n ++ rest) := gap_of_blank hblank fun d hd => by
    rw [hcs] at hd
    cases hd
    exact isVisible_of_continuesName (hword c (by rw [hcs]; exact List.mem_cons_self))
  exact ⟨_, rfl, rfl, .token rfl hgap rfl hpiece h⟩

theorem Segmented.word (hrest : ∀ c ∈ rest.head?, continuesName c = false)
    (hblank : ∀ d ∈ blank, isWhiteSpace d = true)
    (h : Segmented ((p.past blank).past w.decimal) rest ts r) :
    ∃ us, OfWord w us ∧ Segmented p (blank ++ (w.decimal ++ rest)) (us ++ ts) r := by
  by_cases hw : w.toInt < 0
  · have hdecimal : w.decimal = '-' :: Nat.toDigits 10 w.toInt.natAbs := if_pos hw
    rw [hdecimal, Place.past_cons] at h
    obtain ⟨t, ht, hlexeme, hdigits⟩ := Segmented.digits hrest isWhiteSpace_of_mem_nil h
    obtain ⟨m, hm, hminus⟩ := Segmented.sign (c := '-') (by decide) (by decide) (by decide) rfl
      hblank hdigits
    refine ⟨[m, t], .signed hw hm ht hlexeme, ?_⟩
    rw [hdecimal]
    exact hminus
  · have hdecimal : w.decimal = Nat.toDigits 10 w.toInt.natAbs := if_neg hw
    rw [hdecimal] at h
    obtain ⟨t, ht, hlexeme, hdigits⟩ := Segmented.digits hrest hblank h
    refine ⟨[t], .plain (Int.not_lt.1 hw) ht hlexeme, ?_⟩
    rw [hdecimal]
    exact hdigits

theorem exists_segmented_words (hne : ws ≠ []) (hblank : ∀ d ∈ blank, isWhiteSpace d = true)
    (p : Place) : ∃ ts q, OfWords ts ws ∧
      Segmented p (blank ++ (", ".intercalate (Word.decimals ws)).toList) ts (.ok (endMark q)) := by
  induction ws generalizing blank p with
  | nil => exact absurd rfl hne
  | cons w ws ih =>
    cases ws with
    | nil =>
      have hend : ∀ c ∈ ([] : List Char).head?, continuesName c = false := nofun
      have hfinished : Segmented ((p.past blank).past w.decimal) [] []
          (.ok (endMark ((p.past blank).past w.decimal))) := .finished (.done nofun)
      obtain ⟨ts, hts, hsegments⟩ := Segmented.word hend hblank hfinished
      rw [List.append_nil, List.append_nil] at hsegments
      rw [Word.decimals, List.map_singleton, String.intercalate_singleton, Word.toList_toString]
      exact ⟨ts, _, .last hts, hsegments⟩
    | cons v ws =>
      have hend : ∀ d ∈ (',' :: ([' '] ++ (", ".intercalate (Word.decimals (v :: ws))).toList)).head?,
          continuesName d = false := by
        intro d hd
        cases hd
        decide
      obtain ⟨us, q, hus, hrest⟩ := ih (List.cons_ne_nil v ws) isWhiteSpace_of_mem_space
        (((p.past blank).past w.decimal).past [','])
      obtain ⟨c, hc, hcomma⟩ := Segmented.sign (c := ',') (by decide) (by decide) (by decide) rfl
        isWhiteSpace_of_mem_nil hrest
      obtain ⟨ts, hts, hsegments⟩ := Segmented.word hend hblank hcomma
      refine ⟨ts ++ c :: us, q, .more hts hc hus, ?_⟩
      have hchars : (", ".intercalate (Word.decimals (w :: v :: ws))).toList =
          w.decimal ++ (',' :: ([' '] ++ (", ".intercalate (Word.decimals (v :: ws))).toList)) := by
        rw [Word.decimals, List.map_cons, List.map_cons, String.intercalate_cons_cons,
          String.toList_append, String.toList_append, Word.toList_toString]
        simp [Word.decimals]
      rw [hchars]
      exact hsegments

theorem newline_notMem_decimal (w : Word) : '\n' ∉ w.decimal := by
  have hdigits : '\n' ∉ Nat.toDigits 10 w.toInt.natAbs := by
    intro h
    exact absurd (Word.isDigit_toDigits _ _ h) (by decide)
  rw [Word.decimal]
  split
  · rw [List.mem_cons, not_or]
    exact ⟨by decide, hdigits⟩
  · exact hdigits

theorem newline_notMem_words (ws : List Word) :
    '\n' ∉ (", ".intercalate (Word.decimals ws)).toList := by
  induction ws with
  | nil => exact nofun
  | cons w ws ih =>
    cases ws with
    | nil =>
      rw [Word.decimals, List.map_singleton, String.intercalate_singleton, Word.toList_toString]
      exact newline_notMem_decimal w
    | cons v ws =>
      rw [Word.decimals, List.map_cons, List.map_cons, String.intercalate_cons_cons,
        String.toList_append, String.toList_append, Word.toList_toString]
      simp only [List.mem_append, not_or]
      exact ⟨⟨newline_notMem_decimal w, by decide⟩, ih⟩

theorem tokenize_print (hne : ws ≠ []) : ∃ t ts q,
    tokenize ("print " ++ ", ".intercalate (Word.decimals ws)) = .ok (t :: ts ++ [endMark q]) ∧
      t.kind = .print ∧ t.span.column = 0 ∧ OfWords ts ws ∧
      ∀ u ∈ t :: ts, u.kind ≠ .eof ∧ u.span.line = 1 ∧ u.span.endLine = 1 := by
  have hlegible : (Glyph.sign .print).Legible := Glyph.legible_sign (by decide)
  obtain ⟨ts, q, hts, hwords⟩ :=
    exists_segmented_words hne isWhiteSpace_of_mem_space (Place.front.past TokenKind.print.spelling)
  have hbreaks := breaks_append (List.cons_ne_nil ' ' []) isWhiteSpace_of_mem_space
    (", ".intercalate (Word.decimals ws)).toList
  obtain ⟨c, cs, hspelling, hvisible, hread⟩ := hlegible.readPiece hbreaks
  have hgap : Gap [] (c :: (cs ++ ([' '] ++ (", ".intercalate (Word.decimals ws)).toList))) :=
    .done fun d hd => by
      cases hd
      exact hvisible
  have hsegments := Segmented.token rfl hgap rfl (segment_readPiece hread) hwords
  have hsource : (("print " ++ ", ".intercalate (Word.decimals ws) : String)).toList =
      [] ++ c :: (cs ++ ([' '] ++ (", ".intercalate (Word.decimals ws)).toList)) := by
    rw [List.nil_append, ← List.cons_append, ← hspelling, String.toList_append]
    rfl
  have honeLine : '\n' ∉ (("print " ++ ", ".intercalate (Word.decimals ws) : String)).toList := by
    rw [String.toList_append, List.mem_append, not_or]
    exact ⟨by decide, newline_notMem_words ws⟩
  rw [← hsource] at hsegments
  have hlines := hsegments.oneLine honeLine
  refine ⟨_, ts, q, hsegments.tokens_eq, rfl, rfl, hts, fun u hu => ⟨?_, hlines u hu⟩⟩
  exact hsegments.kind_ne_eof u hu

end Token

end IntScript
