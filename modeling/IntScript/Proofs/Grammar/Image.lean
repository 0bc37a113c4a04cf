import IntScript.Proofs.Grammar.Shape
import IntScript.Proofs.Grammar.WrittenStatement
import IntScript.Proofs.Token.Kinds
import IntScript.Script

/-!
# Which trees have a text

The trees that texts read as are those that are well formed over names and over literals without a sign.
Every one of them is read back from the text that is written for it.
-/

namespace IntScript

namespace Grammar

open IntScript.Action IntScript.Grammar.Parser Glyph

theorem Cursor.program_of_settles {c c' : Cursor} {r : Except SyntaxError Statement}
    (h : Settles Parser.program c r c') : c.program = (r, c') := by
  have hanswer := apply_of_settles program_le advances_program h (Nat.lt_succ_self c.size)
  simp [program, hanswer]

theorem Cursor.isProgram {V : Vocabulary} {c : Cursor} {s : Statement} (hc : Ahead V c)
    (h : c.program.1 = .ok s) : s.IsProgram V := by
  have hprogram := c.program_eq_some
  generalize c.program = outcome at h hprogram
  obtain ⟨r, c'⟩ := outcome
  obtain rfl : r = .ok s := h
  rw [Parser.program, bind_eq_ok (read_apply _ _)] at hprogram
  rcases bind_eq_some_iff.1 hprogram with ⟨e, -, he⟩ | ⟨ss, c₁, hss, hrest⟩
  · cases he
  have hlines := (gives_linesAt (gives_statement _) _ _).ok hc hss
  rw [bind_eq_ok (read_apply _ _)] at hrest
  split at hrest
  · cases hrest
    exact ⟨ss, rfl, hlines.1⟩
  · cases hrest

theorem covered_ofPiece {piece : Token.Piece} {p q : Place} (h : piece.Regular) :
    Covered .written (Token.ofPiece piece p q) := by
  constructor
  · exact h.name
  · intro hkind value hvalue
    rw [Token.ofPiece, String.toList_ofList] at hvalue
    exact Word.nonneg_of_ofDecimal? (h.digits hkind) hvalue

theorem covered_endMark (p : Place) : Covered .written (Token.endMark p) :=
  ⟨nofun, nofun⟩

theorem covered_tokenize {source : String} {ts : List Token} (h : Token.tokenize source = .ok ts) :
    ∀ t ∈ ts, Covered .written t := by
  intro t ht
  rcases Token.Stream.mem_tokens h ht with ⟨p, rfl⟩ | ⟨piece, p, q, hpiece, rfl⟩
  · exact covered_endMark p
  · exact covered_ofPiece hpiece

theorem kind_ne_eof {g : Glyph} (h : g.Legible) : g.kind ≠ .eof := by
  obtain ⟨c, cs, -, -, hread⟩ := h.reads
  exact (Token.regular_readPiece hread).inText

theorem kind_of_mem_tokens {gs : List Glyph} (h : ∀ g ∈ gs, g.Legible) {p : Place} {t : Token}
    (ht : t ∈ tokens p gs) : t.kind ≠ .eof := by
  induction gs generalizing p with
  | nil => cases ht
  | cons g gs ih =>
    rcases List.mem_cons.1 ht with rfl | ht
    · exact kind_ne_eof (h g (by simp))
    · exact ih (fun g hg => h g (by simp [hg])) ht

theorem kind_of_mem_rows {rs : List Row} (h : ∀ r ∈ rs, ∀ g ∈ r.glyphs, g.Legible) {p : Place}
    {t : Token} (ht : t ∈ Row.tokens p rs) : t.kind ≠ .eof := by
  induction rs generalizing p with
  | nil => cases ht
  | cons r rs ih =>
    rcases List.mem_append.1 ht with ht | ht
    · exact kind_of_mem_tokens (h r (by simp)) ht
    · exact ih (fun r hr => h r (by simp [hr])) ht

theorem Cursor.ahead_ofTokens {ts : List Token} (h : ∀ t ∈ ts, t.kind ≠ .eof) (p : Place) :
    (Cursor.ofTokens (ts ++ [Token.endMark p])).ahead = ts := by
  rw [Cursor.ofTokens_append h rfl]

theorem Cursor.program_of_readsLines {c : Cursor} {ss : List Statement}
    (h : ReadsLines c.ahead ss c.position.column) : c.program.1 = .ok (.block ss) := by
  have hlines := h c.previous [] c.finish nofun
  rw [List.append_nil] at hlines
  have hend : Settles (fun n => Parser.program n) c (.ok (.block ss))
      ⟨lastOf c.previous c.ahead, [], c.finish⟩ := by
    apply Settles.bind (.of_forall fun _ => read_apply _ _)
    exact hlines.bind (.pure _)
  rw [program_of_settles hend]

end Grammar

namespace Statement

open Grammar

variable {t : Statement} {source : String}

theorem ofSource_eq_ok_iff : ofSource source = .ok t ↔
    ∃ ts, Token.tokenize source = .ok ts ∧ ofTokens ts = .ok t := by
  have hunfold : ofSource source = (Token.tokenize source).mapError Failure.tokenizing >>=
    fun ts => (ofTokens ts).mapError Failure.parsing := rfl
  rw [hunfold]
  cases Token.tokenize source with
  | error e => simp [Except.mapError, bind, Except.bind]
  | ok ts =>
    cases hprogram : ofTokens ts with
    | error e => simp [Except.mapError, bind, Except.bind, hprogram]
    | ok s => simp [Except.mapError, bind, Except.bind, hprogram]

theorem isProgram_of_ofSource (h : ofSource source = .ok t) : t.IsProgram .written := by
  obtain ⟨ts, htokens, hprogram⟩ := ofSource_eq_ok_iff.1 h
  apply Cursor.isProgram _ hprogram
  intro u hu
  exact covered_tokenize htokens u (List.takeWhile_subset _ hu)

theorem ofTokens_writeLines {ss : List Statement} (hss : ∀ s ∈ ss, s.WellFormed .written .line)
    (p : Place) :
    ofTokens (Row.tokens .front (writeLines 0 ss) ++ [Token.endMark p]) = .ok (.block ss) := by
  have hfront : Place.front.column = 0 := rfl
  have hlegible := legible_writeLines (fun s hs => legible_write (hss s hs)) 0
  have hreads := readsLines_writeLines 0 hss (fun s hs => readsWritten (hss s hs)) hfront
  have hkind : ∀ t ∈ Row.tokens .front (writeLines 0 ss), t.kind ≠ .eof :=
    fun t ht => kind_of_mem_rows hlegible ht
  have hahead := Cursor.ahead_ofTokens hkind p
  rw [ofTokens]
  generalize Cursor.ofTokens (Row.tokens .front (writeLines 0 ss) ++ [Token.endMark p]) = c at hahead ⊢
  apply Cursor.program_of_readsLines
  cases ss with
  | nil =>
    rw [hahead]
    exact readsLines_nil
  | cons s ss =>
    obtain ⟨t, ts, hts, hcolumn, -⟩ := tokens_writeLines_head 0 (List.cons_ne_nil s ss) hss hfront
    have hposition : c.position.column = 0 := by
      rw [Cursor.position, hahead, hts]
      exact hcolumn
    rw [hahead, hposition]
    exact hreads

theorem ofSource_text (h : t.IsProgram .written) : ofSource t.text = .ok t := by
  obtain ⟨ss, rfl, hss⟩ := h
  have hlegible := legible_writeLines (fun s hs => legible_write (hss s hs)) 0
  apply ofSource_eq_ok_iff.2
  exact ⟨_, Token.tokenize_rows hlegible, ofTokens_writeLines hss _⟩

/-- A tree is the program of some text exactly if it is well formed over names and literals without a
sign. -/
theorem exists_source_iff (t : Statement) :
    (∃ source, ofSource source = .ok t) ↔ t.IsProgram .written := by
  constructor
  · rintro ⟨source, h⟩
    exact isProgram_of_ofSource h
  · intro h
    exact ⟨t.text, ofSource_text h⟩

end Statement

end IntScript
