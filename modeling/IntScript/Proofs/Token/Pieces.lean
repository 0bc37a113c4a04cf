import IntScript.Proofs.Token.Classes
import IntScript.Proofs.Tree.WellFormed

/-!
# What pieces are

A word at the front of a text is a name or a run of digits, as long as it can be. A piece that is read
once is read again from its own characters, when white space or nothing follows them.
-/

namespace IntScript.Token

open Text

variable {p : Char → Bool} {cs word digits text taken after rest : List Char} {piece : Piece}

/-- White space or the end comes next. -/
def Breaks (cs : List Char) : Prop := ∀ c ∈ cs.head?, isWhiteSpace c = true

theorem takeWhile_exact (hcs : ∀ c ∈ cs, p c = true) (hrest : ∀ c ∈ rest.head?, p c = false) :
    (cs ++ rest).takeWhile p = cs := by
  rw [List.takeWhile_append_of_pos hcs]
  cases rest with
  | nil => simp
  | cons c rest => simp [hrest c rfl]

theorem dropWhile_exact (hcs : ∀ c ∈ cs, p c = true) (hrest : ∀ c ∈ rest.head?, p c = false) :
    (cs ++ rest).dropWhile p = rest := by
  rw [List.dropWhile_append_of_pos hcs]
  cases rest with
  | nil => rfl
  | cons c rest => simp [hrest c rfl]

theorem isDigit_eq_false_of_beginsName {c : Char} (h : beginsName c = true) :
    c.isDigit = false := by
  cases hc : c.isDigit with
  | false => rfl
  | true =>
    rw [beginsName_eq_false_of_isDigit hc] at h
    cases h

theorem NameShape.continues (h : NameShape word) : ∀ c ∈ word, continuesName c = true := by
  obtain ⟨digits, first, rest, rfl, hdigits, hfirst, hrest⟩ := h
  intro c hc
  rw [List.mem_append, List.mem_cons] at hc
  rcases hc with hc | rfl | hc
  · exact continuesName_of_isDigit (hdigits c hc)
  · exact continuesName_of_beginsName hfirst
  · exact hrest c hc

theorem readWord?_name (h : NameShape word) (hafter : ∀ c ∈ after.head?, continuesName c = false) :
    readWord? (word ++ after) = some (.verbatim (nameKind word) word after) := by
  obtain ⟨digits, first, rest, rfl, hdigits, hfirst, hrest⟩ := h
  have hstop : ∀ c ∈ (first :: (rest ++ after)).head?, c.isDigit = false := by
    intro c hc
    cases hc
    exact isDigit_eq_false_of_beginsName hfirst
  have hname : ∀ c ∈ first :: rest, continuesName c = true := by
    intro c hc
    rcases List.mem_cons.1 hc with rfl | hc
    · exact continuesName_of_beginsName hfirst
    · exact hrest c hc
  have htake : (first :: (rest ++ after)).takeWhile continuesName = first :: rest :=
    takeWhile_exact hname hafter
  have hdrop : (first :: (rest ++ after)).dropWhile continuesName = after :=
    dropWhile_exact hname hafter
  rw [readWord?]
  rw [List.append_assoc, List.cons_append, takeWhile_exact hdigits hstop,
    dropWhile_exact hdigits hstop]
  simp only [List.head?_cons, Option.any_some, hfirst, if_true, htake, hdrop]

theorem readWord?_digits (hne : digits ≠ []) (hdigits : ∀ d ∈ digits, d.isDigit = true)
    (hafter : ∀ c ∈ after.head?, c.isDigit = false ∧ beginsName c = false) :
    readWord? (digits ++ after) = some (.verbatim .integer digits after) := by
  have hstop : ∀ c ∈ after.head?, c.isDigit = false := fun c hc => (hafter c hc).1
  have hname : after.head?.any beginsName = false := by
    cases after with
    | nil => rfl
    | cons c after => simpa using (hafter c rfl).2
  rw [readWord?, takeWhile_exact hdigits hstop, dropWhile_exact hdigits hstop]
  simp [hname, hne]

theorem readWord?_cases (h : readWord? cs = some piece) :
    (NameShape piece.taken ∧ piece = .verbatim (nameKind piece.taken) piece.taken piece.rest) ∨
      (piece.taken ≠ [] ∧ (∀ d ∈ piece.taken, d.isDigit = true) ∧
        piece = .verbatim .integer piece.taken piece.rest) := by
  have hdigits : ∀ d ∈ cs.takeWhile Char.isDigit, d.isDigit = true :=
    fun d hd => List.all_eq_true.1 List.all_takeWhile d hd
  simp only [readWord?] at h
  split at h
  next hname =>
    cases h
    cases hafter : cs.dropWhile Char.isDigit with
    | nil => simp [hafter] at hname
    | cons first after =>
      have hfirst : beginsName first = true := by simpa [hafter] using hname
      have htake : (first :: after).takeWhile continuesName =
          first :: after.takeWhile continuesName := by
        rw [List.takeWhile_cons, if_pos (continuesName_of_beginsName hfirst)]
      refine .inl ⟨⟨_, first, after.takeWhile continuesName, ?_, hdigits, hfirst, ?_⟩, rfl⟩
      · rw [← htake]
        rfl
      · exact fun c hc => List.all_eq_true.1 List.all_takeWhile c hc
  next =>
    split at h
    next => cases h
    next hempty =>
      cases h
      exact .inr ⟨by simpa [Piece.verbatim] using hempty, hdigits, rfl⟩

theorem readWord?_reread (h : readWord? cs = some piece) (hrest : Breaks rest) :
    readWord? (piece.taken ++ rest) = some { piece with rest := rest } := by
  rcases readWord?_cases h with ⟨hshape, hpiece⟩ | ⟨hne, hdigits, hpiece⟩
  · rw [readWord?_name hshape fun c hc => (breaks_of_isWhiteSpace (hrest c hc)).1]
    rw [hpiece]
    rfl
  · rw [readWord?_digits hne hdigits fun c hc =>
      begins_no_word (breaks_of_isWhiteSpace (hrest c hc)).1]
    rw [hpiece]
    rfl

theorem readWord?_eq_none_iff {c : Char} :
    readWord? (c :: cs) = none ↔ c.isDigit = false ∧ beginsName c = false := by
  rw [readWord?]
  cases hdigit : c.isDigit with
  | false =>
    cases hname : beginsName c with
    | false => simp [hdigit, hname]
    | true => simp [hdigit, hname]
  | true =>
    simp only [List.takeWhile_cons, hdigit, if_true, Bool.true_eq_false, false_and, iff_false]
    split
    · exact Option.some_ne_none _
    · simp

theorem closeString_cons {c : Char} (hquote : c ≠ '"') (hbackslash : c ≠ '\\') :
    closeString (c :: cs) =
      (closeString cs).map fun (text, taken, rest) => (c :: text, c :: taken, rest) :=
  closeString.eq_5 c cs hquote (fun hc _ => hbackslash hc) (fun _ _ hc _ => hbackslash hc)

theorem ne_backslash {c : Char} (hend : c = '\\' → cs = [] → False)
    (hescape : ∀ d ds, c = '\\' → cs = d :: ds → False) : c ≠ '\\' := by
  intro hc
  cases cs with
  | nil => exact hend hc rfl
  | cons d ds => exact hescape d ds hc rfl

theorem closeString_reread (h : closeString cs = some (text, taken, after)) (rest : List Char) :
    closeString (taken ++ rest) = some (text, taken, rest) := by
  fun_induction closeString cs generalizing text taken after with
  | case1 => simp at h
  | case2 cs =>
    cases h
    rfl
  | case3 => simp at h
  | case4 c cs ih =>
    obtain ⟨⟨text, taken, after⟩, hcs, heq⟩ := Option.map_eq_some_iff.1 h
    simp only [Prod.mk.injEq] at heq
    obtain ⟨rfl, rfl, -⟩ := heq
    simp [closeString, ih hcs]
  | case5 c cs hquote hend hescape ih =>
    obtain ⟨⟨text, taken, after⟩, hcs, heq⟩ := Option.map_eq_some_iff.1 h
    simp only [Prod.mk.injEq] at heq
    obtain ⟨rfl, rfl, -⟩ := heq
    rw [List.cons_append, closeString_cons hquote (ne_backslash hend hescape), ih hcs]
    rfl

theorem readWordOrSymbol_reread (c : Char) (cs : List Char) (hrest : Breaks rest) :
    ∃ t, (readWordOrSymbol c cs).taken = c :: t ∧
      readWordOrSymbol c (t ++ rest) = { readWordOrSymbol c cs with rest := rest } := by
  unfold readWordOrSymbol
  cases hword : readWord? (c :: cs) with
  | none =>
    refine ⟨[], rfl, ?_⟩
    rw [List.nil_append, readWord?_eq_none_iff.2 (readWord?_eq_none_iff.1 hword)]
    rfl
  | some piece =>
    have htaken := readWord?_append hword
    have hreread := readWord?_reread hword hrest
    cases ht : piece.taken with
    | nil => exact absurd ht (readWord?_taken_ne_nil hword)
    | cons d t =>
      rw [ht] at htaken hreread
      obtain ⟨rfl, -⟩ := List.cons.inj htaken
      refine ⟨t, ht, ?_⟩
      rw [List.cons_append] at hreread
      rw [hreread, ← ht]
      rfl

theorem readPlain_eq {c : Char} (h : equalKind? c = none ∨ cs.head? ≠ some '=') :
    readPlain c cs = readWordOrSymbol c cs := by
  unfold readPlain
  split
  next hkind =>
    rw [hkind] at h
    simp at h
  next => rfl

theorem readPlain_reread (c : Char) (cs : List Char) (hrest : Breaks rest) :
    ∃ t, (readPlain c cs).taken = c :: t ∧
      readPlain c (t ++ rest) = { readPlain c cs with rest := rest } := by
  have hbreak : rest.head? ≠ some '=' := by
    intro heq
    exact (breaks_of_isWhiteSpace (hrest '=' heq)).2 rfl
  cases hkind : equalKind? c with
  | none =>
    rw [readPlain_eq (.inl hkind)]
    obtain ⟨t, ht, hword⟩ := readWordOrSymbol_reread c cs hrest
    exact ⟨t, ht, by rw [readPlain_eq (.inl hkind), hword]⟩
  | some kind =>
    by_cases heq : cs.head? = some '='
    · obtain ⟨after, rfl⟩ := List.head?_eq_some_iff.1 heq
      refine ⟨['='], ?_, ?_⟩
      · simp [readPlain, hkind, Piece.verbatim]
      · simp [readPlain, hkind, Piece.verbatim]
    · have hnone : readWord? (c :: cs) = none := by
        apply readWord?_eq_none_iff.2
        apply begins_no_word
        cases hcontinues : continuesName c with
        | false => rfl
        | true =>
          rw [(equalKind?_of_continuesName hcontinues).2] at hkind
          cases hkind
      rw [readPlain_eq (.inr heq)]
      refine ⟨[], ?_, ?_⟩
      · simp [readWordOrSymbol, hnone, Piece.verbatim]
      · rw [List.nil_append, readPlain_eq (.inr hbreak)]
        simp [readWordOrSymbol, hnone, readWord?_eq_none_iff.2 (readWord?_eq_none_iff.1 hnone),
          Piece.verbatim]

theorem readPiece_reread {c : Char} (h : readPiece c cs = some piece) (hrest : Breaks rest) :
    ∃ t, piece.taken = c :: t ∧ readPiece c (t ++ rest) = some { piece with rest := rest } := by
  rw [readPiece] at h
  by_cases hquote : c = '"'
  · rw [if_pos hquote] at h
    obtain ⟨⟨text, taken, after⟩, hclose, rfl⟩ := Option.map_eq_some_iff.1 h
    refine ⟨taken, by rw [hquote], ?_⟩
    rw [readPiece, if_pos hquote, closeString_reread hclose rest]
    rfl
  · rw [if_neg hquote] at h
    cases h
    obtain ⟨t, ht, hplain⟩ := readPlain_reread c cs hrest
    refine ⟨t, ht, ?_⟩
    rw [readPiece, if_neg hquote, hplain]

end IntScript.Token
