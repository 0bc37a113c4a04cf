import IntScript.Proofs.Token.Glyph
import Mathlib

/-!
# The longest token

The lexical grammar says which characters a token of each class is written with. At the front of a text
there is at most one longest token, and a character that begins no token stands for itself. That is what
reading a piece finds (`readPiece_eq_some_iff`), and it finds nothing only behind a quote that is not closed
(`readPiece_eq_none_iff`).
-/

namespace IntScript.Token

open Text

inductive Quoted : List Char → List Char → Prop where
  | close : Quoted [] ['"']
  | newline {text body : List Char} (h : Quoted text body) :
      Quoted ('\n' :: text) ('\\' :: 'n' :: body)
  | tab {text body : List Char} (h : Quoted text body) : Quoted ('\t' :: text) ('\\' :: 't' :: body)
  | escaped {c : Char} {text body : List Char} (hn : c ≠ 'n') (ht : c ≠ 't') (h : Quoted text body) :
      Quoted (c :: text) ('\\' :: c :: body)
  | plain {c : Char} {text body : List Char} (hquote : c ≠ '"') (hbackslash : c ≠ '\\')
      (h : Quoted text body) : Quoted (c :: text) (c :: body)

def Unclosed (cs : List Char) : Prop := ∀ text body, Quoted text body → ¬ body <+: cs

/-- The classes of tokens: a kind, a lexeme, and the characters that are written for it. -/
inductive Lexical : TokenKind → List Char → List Char → Prop where
  | integer {digits : List Char} (hne : digits ≠ []) (h : ∀ d ∈ digits, d.isDigit = true) :
      Lexical .integer digits digits
  | name {word : List Char} (h : NameShape word) (hfree : ∀ kind : TokenKind, kind.spelling ≠ word) :
      Lexical .identifier word word
  | spelled {kind : TokenKind} (h : kind.spelling ≠ []) : Lexical kind kind.spelling kind.spelling
  | string {text body : List Char} (h : Quoted text body) : Lexical .string text ('"' :: body)

/-- The piece at the front of a text: the longest prefix in a class, or a character that begins none. -/
inductive Segment (cs : List Char) : Piece → Prop where
  | longest {piece : Piece} (hsplit : piece.taken ++ piece.rest = cs)
      (h : Lexical piece.kind piece.lexeme piece.taken)
      (hmax : ∀ kind lexeme taken, Lexical kind lexeme taken → taken <+: cs →
        taken.length ≤ piece.taken.length) : Segment cs piece
  | unknown {c : Char} {rest : List Char} (hsplit : c :: rest = cs) (hquote : c ≠ '"')
      (hnone : ∀ kind lexeme taken, Lexical kind lexeme taken → ¬ taken <+: cs) :
      Segment cs ⟨.unknown, [c], [c], rest⟩

section Strings

variable {text body rest cs : List Char}

theorem Quoted.closeString (h : Quoted text body) (rest : List Char) :
    closeString (body ++ rest) = some (text, body, rest) := by
  induction h with
  | close => rfl
  | newline _ ih => simp [Token.closeString, ih, unescape]
  | tab _ ih => simp [Token.closeString, ih, unescape]
  | escaped hn ht _ ih => simp [Token.closeString, ih, unescape]
  | plain hquote hbackslash _ ih =>
    rw [List.cons_append, closeString_cons hquote hbackslash, ih]
    rfl

theorem quoted_unescape (c : Char) (h : Quoted text body) :
    Quoted (unescape c :: text) ('\\' :: c :: body) := by
  unfold unescape
  split
  · exact .newline h
  · exact .tab h
  next hn ht => exact .escaped hn ht h

theorem quoted_closeString (h : closeString cs = some (text, body, rest)) : Quoted text body := by
  fun_induction closeString cs generalizing text body rest with
  | case1 => cases h
  | case2 cs =>
    cases h
    exact .close
  | case3 => cases h
  | case4 c cs ih =>
    obtain ⟨⟨text, body, rest⟩, hcs, heq⟩ := Option.map_eq_some_iff.1 h
    cases heq
    exact quoted_unescape c (ih hcs)
  | case5 c cs hquote hend hescape ih =>
    obtain ⟨⟨text, body, rest⟩, hcs, heq⟩ := Option.map_eq_some_iff.1 h
    cases heq
    exact .plain hquote (ne_backslash hend hescape) (ih hcs)

theorem closeString_eq_none_iff : closeString cs = none ↔ Unclosed cs := by
  constructor
  · rintro hnone text body h ⟨rest, rfl⟩
    rw [h.closeString] at hnone
    cases hnone
  · intro hunclosed
    cases hclose : closeString cs with
    | none => rfl
    | some found =>
      obtain ⟨text, body, rest⟩ := found
      have hprefix : body <+: cs := ⟨rest, closeString_append hclose⟩
      exact absurd hprefix (hunclosed text body (quoted_closeString hclose))

end Strings

section Words

variable {word digits more after cs : List Char} {kind : TokenKind} {piece : Piece} {c : Char}

theorem nameShape_of_beginsName (hc : beginsName c = true)
    (hcs : ∀ d ∈ cs, continuesName d = true) : NameShape (c :: cs) :=
  ⟨[], c, cs, rfl, nofun, hc, hcs⟩

theorem NameShape.append (h : NameShape word) (hmore : ∀ c ∈ more, continuesName c = true) :
    NameShape (word ++ more) := by
  obtain ⟨digits, first, rest, rfl, hdigits, hfirst, hrest⟩ := h
  refine ⟨digits, first, rest ++ more, by simp, hdigits, hfirst, fun c hc => ?_⟩
  exact (List.mem_append.1 hc).elim (hrest c) (hmore c)

theorem NameShape.ne_nil (h : NameShape word) : word ≠ [] := by
  obtain ⟨digits, first, rest, rfl, -⟩ := h
  simp

theorem head?_dropWhile_eq_false {p : Char → Bool} (cs : List Char) :
    ∀ c ∈ (cs.dropWhile p).head?, p c = false := by
  intro c hc
  have hhead := List.head?_dropWhile_not p cs
  rw [Option.mem_def.1 hc] at hhead
  simpa using hhead

theorem NameShape.exists_readWord? (h : NameShape word) (after : List Char) :
    ∃ piece, readWord? (word ++ after) = some piece ∧ piece.kind = nameKind piece.taken ∧
      word.length ≤ piece.taken.length := by
  have hmore : ∀ c ∈ after.takeWhile continuesName, continuesName c = true :=
    fun c hc => List.all_eq_true.1 List.all_takeWhile c hc
  have hread := readWord?_name (h.append hmore) (head?_dropWhile_eq_false after)
  rw [List.append_assoc, List.takeWhile_append_dropWhile] at hread
  refine ⟨_, hread, rfl, ?_⟩
  simp [Piece.verbatim]

theorem exists_readWord?_digits (hne : digits ≠ []) (hdigits : ∀ d ∈ digits, d.isDigit = true)
    (after : List Char) : ∃ piece, readWord? (digits ++ after) = some piece ∧
      (piece.kind = nameKind piece.taken ∨ piece.kind = .integer) ∧
      digits.length ≤ piece.taken.length := by
  have htake : (digits ++ after).takeWhile Char.isDigit = digits ++ after.takeWhile Char.isDigit :=
    List.takeWhile_append_of_pos hdigits
  rw [readWord?, htake]
  split
  · exact ⟨_, rfl, .inl rfl, by simp [Piece.verbatim, List.append_assoc]⟩
  · rw [if_neg (by simp [hne])]
    exact ⟨_, rfl, .inr rfl, by simp [Piece.verbatim]⟩

theorem keyword?_of_spelling (h : NameShape kind.spelling) :
    TokenKind.keyword? (String.ofList kind.spelling) = some kind := by
  have hcontinues := h.continues
  have hne := h.ne_nil
  cases kind <;> first
    | rfl
    | exact absurd rfl hne
    | exact absurd (hcontinues _ List.mem_cons_self) (by decide)

theorem spelling_of_keyword? (h : TokenKind.keyword? (String.ofList word) = some kind) :
    kind.spelling = word := by
  have hword : (String.ofList word).toList = word := String.toList_ofList
  unfold TokenKind.keyword? at h
  split_ifs at h with h₁ h₂ h₃ h₄ h₅ <;> cases h <;> rw [← hword]
  · rw [h₁]; rfl
  · rw [h₂]; rfl
  · rw [h₃]; rfl
  · rw [h₄]; rfl
  · rw [h₅]; rfl

theorem nameKind_ne_unknown (word : List Char) : nameKind word ≠ .unknown := by
  unfold nameKind TokenKind.keyword?
  split_ifs <;> decide

theorem nameKind_eq_identifier (h : ∀ kind : TokenKind, kind.spelling ≠ word) :
    nameKind word = .identifier := by
  rw [nameKind]
  cases hkeyword : TokenKind.keyword? (String.ofList word) with
  | some kind => exact absurd (spelling_of_keyword? hkeyword) (h kind)
  | none => rfl

theorem NameShape.lexical (h : NameShape word) : Lexical (nameKind word) word word := by
  rw [nameKind]
  cases hkeyword : TokenKind.keyword? (String.ofList word) with
  | some kind =>
    obtain rfl := spelling_of_keyword? hkeyword
    exact .spelled h.ne_nil
  | none =>
    refine .name h fun kind hspelling => ?_
    obtain rfl := hspelling
    rw [keyword?_of_spelling h] at hkeyword
    cases hkeyword

theorem spelling_cases (h : kind.spelling ≠ []) : NameShape kind.spelling ∨
    ∃ c, continuesName c = false ∧ c ≠ '"' ∧ (kind.spelling = [c] ∧ symbolKind c = kind ∨
      kind.spelling = [c, '='] ∧ equalKind? c = some kind) := by
  cases kind <;> first
    | exact absurd rfl h
    | exact .inl (nameShape_of_beginsName (by decide) (List.all_eq_true.1 (by decide)))
    | exact .inr ⟨_, by decide, by decide, .inl ⟨rfl, rfl⟩⟩
    | exact .inr ⟨_, by decide, by decide, .inr ⟨rfl, rfl⟩⟩

theorem spelling_symbolKind (c : Char) :
    symbolKind c = .unknown ∨ (symbolKind c).spelling = [c] := by
  unfold symbolKind
  split <;> first | exact .inr rfl | exact .inl rfl

theorem spelling_of_equalKind? (h : equalKind? c = some kind) : kind.spelling = [c, '='] := by
  unfold equalKind? at h
  split at h <;> cases h <;> rfl

end Words

section Munch

variable {kind kind' : TokenKind} {lexeme lexeme' taken cs after : List Char} {piece piece' : Piece}
  {c : Char}

theorem readPiece_double (hquote : c ≠ '"') (h : equalKind? c = some kind) (after : List Char) :
    readPiece c ('=' :: after) = some (.verbatim kind [c, '='] after) := by
  simp only [readPiece, if_neg hquote, readPlain, h]

theorem readPiece_single (hquote : c ≠ '"') (hword : continuesName c = false)
    (hcs : equalKind? c = none ∨ cs.head? ≠ some '=') :
    readPiece c cs = some (.verbatim (symbolKind c) [c] cs) := by
  have hnone : readWord? (c :: cs) = none := readWord?_eq_none_iff.2 (begins_no_word hword)
  rw [readPiece, if_neg hquote, readPlain_eq hcs, readWordOrSymbol, hnone]
  rfl

theorem ne_unknown_of_equalKind? (h : equalKind? c = some kind) : kind ≠ .unknown := by
  rintro rfl
  have hspelling := spelling_of_equalKind? h
  cases hspelling

theorem readPiece_of_word {word : List Char} (hne : word ≠ [])
    (hword : ∀ c ∈ word, continuesName c = true) (hcs : word ++ after = c :: cs)
    (h : readWord? (word ++ after) = some piece) : readPiece c cs = some piece := by
  obtain ⟨d, word, rfl⟩ := List.exists_cons_of_ne_nil hne
  have hd : continuesName d = true := hword d List.mem_cons_self
  cases hcs
  exact Glyph.readPiece_word hd h

theorem Lexical.exists_readPiece (h : Lexical kind lexeme taken) (hcs : taken ++ after = c :: cs) :
    ∃ piece, readPiece c cs = some piece ∧ piece.kind ≠ .unknown ∧
      taken.length ≤ piece.taken.length := by
  have hname {word : List Char} (hshape : NameShape word) (hcs : word ++ after = c :: cs) :
      ∃ piece, readPiece c cs = some piece ∧ piece.kind ≠ .unknown ∧
        word.length ≤ piece.taken.length := by
    obtain ⟨piece, hread, hkind, hlength⟩ := hshape.exists_readWord? after
    refine ⟨piece, readPiece_of_word hshape.ne_nil hshape.continues hcs hread, ?_, hlength⟩
    rw [hkind]
    exact nameKind_ne_unknown _
  cases h with
  | integer hne hdigits =>
    obtain ⟨piece, hread, hkind, hlength⟩ := exists_readWord?_digits hne hdigits after
    have hword : ∀ d ∈ lexeme, continuesName d = true :=
      fun d hd => continuesName_of_isDigit (hdigits d hd)
    refine ⟨piece, readPiece_of_word hne hword hcs hread, ?_, hlength⟩
    rcases hkind with hkind | hkind <;> rw [hkind]
    · exact nameKind_ne_unknown _
    · decide
  | name hshape => exact hname hshape hcs
  | spelled hne =>
    rcases spelling_cases hne with hshape | ⟨d, hword, hquote, ⟨hspelling, hkind⟩ | ⟨hspelling, hkind⟩⟩
    · exact hname hshape hcs
    · rw [hspelling] at hcs ⊢
      cases hcs
      by_cases hequal : equalKind? c = none ∨ after.head? ≠ some '='
      · refine ⟨_, readPiece_single hquote hword hequal, ?_, Nat.le_refl _⟩
        rintro (hunknown : symbolKind c = .unknown)
        rw [← hkind, hunknown] at hspelling
        cases hspelling
      · rw [not_or, Decidable.not_not] at hequal
        obtain ⟨other, hother⟩ := Option.ne_none_iff_exists'.1 hequal.1
        obtain ⟨rest, rfl⟩ := List.head?_eq_some_iff.1 hequal.2
        refine ⟨_, readPiece_double hquote hother rest, ne_unknown_of_equalKind? hother, ?_⟩
        simp [Piece.verbatim]
    · rw [hspelling] at hcs ⊢
      cases hcs
      exact ⟨_, readPiece_double hquote hkind after, ne_unknown_of_equalKind? hkind, Nat.le_refl _⟩
  | string hquoted =>
    rw [List.cons_append] at hcs
    cases hcs
    refine ⟨⟨.string, lexeme, '"' :: _, after⟩, ?_, fun h => (by cases h), Nat.le_refl _⟩
    rw [readPiece, if_pos rfl, hquoted.closeString]
    rfl

theorem Lexical.reads (h : Lexical kind lexeme taken) :
    ∃ c cs, taken = c :: cs ∧ readPiece c cs = some ⟨kind, lexeme, taken, []⟩ := by
  cases h with
  | integer hne hdigits =>
    have hread : readWord? (lexeme ++ []) = some (.verbatim .integer lexeme []) :=
      readWord?_digits hne hdigits nofun
    have hword : ∀ d ∈ lexeme, continuesName d = true :=
      fun d hd => continuesName_of_isDigit (hdigits d hd)
    obtain ⟨c, cs, rfl⟩ := List.exists_cons_of_ne_nil hne
    exact ⟨c, cs, rfl, readPiece_of_word hne hword (List.append_nil _) hread⟩
  | name hshape hfree =>
    have hread : readWord? (lexeme ++ []) = some (.verbatim (nameKind lexeme) lexeme []) :=
      readWord?_name hshape nofun
    rw [nameKind_eq_identifier hfree] at hread
    obtain ⟨c, cs, rfl⟩ := List.exists_cons_of_ne_nil hshape.ne_nil
    refine ⟨c, cs, rfl, ?_⟩
    exact readPiece_of_word hshape.ne_nil hshape.continues (List.append_nil _) hread
  | spelled hne =>
    obtain ⟨c, cs, hspelling, -, hread⟩ := (Glyph.legible_sign hne).reads
    exact ⟨c, cs, hspelling, hread⟩
  | string hquoted =>
    refine ⟨'"', _, rfl, ?_⟩
    have hclose := hquoted.closeString []
    rw [List.append_nil] at hclose
    rw [readPiece, if_pos rfl, hclose]
    rfl

theorem Lexical.unique (h : Lexical kind lexeme taken) (h' : Lexical kind' lexeme' taken) :
    kind = kind' ∧ lexeme = lexeme' := by
  obtain ⟨c, cs, rfl, hread⟩ := h.reads
  obtain ⟨d, ds, heq, hread'⟩ := h'.reads
  cases heq
  rw [hread] at hread'
  cases hread'
  exact ⟨rfl, rfl⟩

theorem Segment.unique (h : Segment cs piece) (h' : Segment cs piece') : piece = piece' := by
  cases h with
  | longest hsplit hlexical hmax =>
    cases h' with
    | longest hsplit' hlexical' hmax' =>
      have hlength := Nat.le_antisymm (hmax' _ _ _ hlexical ⟨_, hsplit⟩)
        (hmax _ _ _ hlexical' ⟨_, hsplit'⟩)
      obtain ⟨htaken, hrest⟩ := List.append_inj (hsplit.trans hsplit'.symm) hlength
      rw [← htaken] at hlexical'
      obtain ⟨hkind, hlexeme⟩ := hlexical.unique hlexical'
      cases piece
      cases piece'
      simp_all
    | unknown _ _ hnone => exact absurd ⟨_, hsplit⟩ (hnone _ _ _ hlexical)
  | unknown hsplit _ hnone =>
    cases h' with
    | longest hsplit' hlexical' _ => exact absurd ⟨_, hsplit'⟩ (hnone _ _ _ hlexical')
    | unknown hsplit' =>
      cases hsplit.trans hsplit'.symm
      rfl

theorem Lexical.of_spelling {spelling : List Char} (h : kind.spelling = spelling)
    (hne : spelling ≠ []) : Lexical kind spelling spelling := by
  subst h
  exact .spelled hne

theorem lexical_readWordOrSymbol (c : Char) (cs : List Char) :
    Lexical (readWordOrSymbol c cs).kind (readWordOrSymbol c cs).lexeme (readWordOrSymbol c cs).taken ∨
      readWordOrSymbol c cs = ⟨.unknown, [c], [c], cs⟩ := by
  unfold readWordOrSymbol
  cases hword : readWord? (c :: cs) with
  | some word =>
    rw [Option.getD_some]
    rcases readWord?_cases hword with ⟨hshape, hpiece⟩ | ⟨hne, hdigits, hpiece⟩
    · rw [hpiece]
      exact .inl hshape.lexical
    · rw [hpiece]
      exact .inl (.integer hne hdigits)
  | none =>
    rw [Option.getD_none]
    rcases spelling_symbolKind c with hunknown | hspelling
    · rw [hunknown]
      exact .inr rfl
    · exact .inl (.of_spelling hspelling (List.cons_ne_nil c []))

theorem lexical_readPiece (h : readPiece c cs = some piece) :
    Lexical piece.kind piece.lexeme piece.taken ∨
      c ≠ '"' ∧ piece = ⟨.unknown, [c], [c], cs⟩ := by
  rw [readPiece] at h
  split at h
  next =>
    obtain ⟨⟨text, body, rest⟩, hclose, rfl⟩ := Option.map_eq_some_iff.1 h
    exact .inl (.string (quoted_closeString hclose))
  next hquote =>
    cases h
    unfold readPlain
    split
    next hkind => exact .inl (.of_spelling (spelling_of_equalKind? hkind) (List.cons_ne_nil c _))
    next => exact (lexical_readWordOrSymbol c _).imp_right fun hunknown => ⟨hquote, hunknown⟩

theorem segment_readPiece (h : readPiece c cs = some piece) : Segment (c :: cs) piece := by
  have hlongest {kind : TokenKind} {lexeme taken : List Char} (hlexical : Lexical kind lexeme taken)
      (htaken : taken <+: c :: cs) : piece.kind ≠ .unknown ∧ taken.length ≤ piece.taken.length := by
    obtain ⟨after, hsplit⟩ := htaken
    obtain ⟨other, hread, hother⟩ := hlexical.exists_readPiece hsplit
    rw [h] at hread
    cases hread
    exact hother
  rcases lexical_readPiece h with hlexical | ⟨hquote, rfl⟩
  · exact .longest (readPiece_append h) hlexical fun _ _ _ hother htaken => (hlongest hother htaken).2
  · exact .unknown rfl hquote fun _ _ _ hother htaken => (hlongest hother htaken).1 rfl

theorem readPiece_eq_none_iff : readPiece c cs = none ↔ c = '"' ∧ Unclosed cs := by
  rw [readPiece, ← closeString_eq_none_iff]
  split
  next hquote => simp [hquote]
  next hquote => simp [hquote]

theorem readPiece_eq_some_iff : readPiece c cs = some piece ↔ Segment (c :: cs) piece := by
  constructor
  · exact segment_readPiece
  · intro h
    cases hread : readPiece c cs with
    | some other => rw [(segment_readPiece hread).unique h]
    | none =>
      obtain ⟨rfl, -⟩ := readPiece_eq_none_iff.1 hread
      cases h with
      | longest hsplit hlexical _ =>
        obtain ⟨other, hother, -⟩ := hlexical.exists_readPiece hsplit
        rw [hread] at hother
        cases hother
      | unknown hsplit hquote _ =>
        cases hsplit
        exact absurd rfl hquote

theorem Segment.split (h : Segment cs piece) : piece.taken ++ piece.rest = cs := by
  cases h with
  | longest hsplit => exact hsplit
  | unknown hsplit => exact hsplit

theorem Segment.reads (h : Segment cs piece) :
    ∃ c rest, cs = c :: rest ∧ readPiece c rest = some piece := by
  cases h with
  | longest hsplit hlexical hmax =>
    obtain ⟨c, taken, htaken, -⟩ := hlexical.reads
    refine ⟨c, taken ++ piece.rest, by rw [← hsplit, htaken]; rfl, ?_⟩
    apply readPiece_eq_some_iff.2
    rw [htaken] at hsplit
    rw [← List.cons_append, hsplit]
    exact .longest (by rw [htaken, hsplit]) hlexical hmax
  | unknown hsplit hquote hnone =>
    refine ⟨_, _, hsplit.symm, readPiece_eq_some_iff.2 ?_⟩
    exact .unknown rfl hquote (hsplit ▸ hnone)

end Munch

end IntScript.Token
