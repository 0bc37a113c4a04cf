import IntScript.Proofs.Token.Kinds
import IntScript.Proofs.Token.Munch
import IntScript.Proofs.Token.Page

/-!
# The segments of a text

A text is white space and comments, then the longest token, and so on to its end or to a string that is left
open. Exactly these segments are what a stream gives, one after the other (`tokenize_segments`).
-/

namespace IntScript.Token

open Text

/-- White space and comments up to something visible, or to the end. A comment reaches to the end of its
line. -/
inductive Gap : List Char → List Char → Prop where
  | done {rest : List Char} (h : ∀ c ∈ rest.head?, IsVisible c) : Gap [] rest
  | blank {c : Char} {skipped rest : List Char} (hc : isWhiteSpace c = true) (h : Gap skipped rest) :
      Gap (c :: skipped) rest
  | comment {words skipped rest : List Char} (hwords : '\n' ∉ words)
      (hline : ∀ c ∈ (skipped ++ rest).head?, c = '\n') (h : Gap skipped rest) :
      Gap ('#' :: words ++ skipped) rest

/-- The tokens of a text that stands at a place, and what comes behind them: the end mark, or the string that
is left open. -/
inductive Segmented : Place → List Char → List Token → Except LexError Token → Prop where
  | finished {p : Place} {cs : List Char} (hgap : Gap cs []) :
      Segmented p cs [] (.ok (endMark (p.past cs)))
  | unclosed {p q : Place} {cs skipped rest : List Char} (hcs : skipped ++ '"' :: rest = cs)
      (hgap : Gap skipped ('"' :: rest)) (hq : p.past skipped = q) (h : Unclosed rest) :
      Segmented p cs [] (.error (.unterminatedString q.line q.column))
  | token {p q : Place} {cs skipped text : List Char} {piece : Piece} {ts : List Token}
      {r : Except LexError Token} (hcs : skipped ++ text = cs) (hgap : Gap skipped text)
      (hq : p.past skipped = q) (hpiece : Segment text piece)
      (h : Segmented (q.past piece.taken) piece.rest ts r) :
      Segmented p cs (ofPiece piece q (q.past piece.taken) :: ts) r

/-- Behind gaps and tokens, a token has to begin where the second text does. -/
inductive Reaches : List Char → List Char → Prop where
  | here {cs skipped text : List Char} (hcs : skipped ++ text = cs) (hgap : Gap skipped text) :
      Reaches cs text
  | later {cs skipped text rest : List Char} {piece : Piece} (hcs : skipped ++ text = cs)
      (hgap : Gap skipped text) (hpiece : Segment text piece) (h : Reaches piece.rest rest) :
      Reaches cs rest

/-- The tokens that a stream gives before its first end mark or error, and that. -/
inductive Stream.Gives : Stream → List Token → Except LexError Token → Prop where
  | endMark {s s' : Stream} {t : Token} (h : s.nextToken = (.ok t, s')) (hkind : t.kind = .eof) :
      Gives s [] (.ok t)
  | error {s s' : Stream} {e : LexError} (h : s.nextToken = (.error e, s')) : Gives s [] (.error e)
  | token {s s' : Stream} {t : Token} {ts : List Token} {r : Except LexError Token}
      (h : s.nextToken = (.ok t, s')) (hkind : t.kind ≠ .eof) (hrest : Gives s' ts r) :
      Gives s (t :: ts) r

section Gaps

variable {c : Char} {skipped skipped' rest rest' words cs : List Char}

theorem splitTrivia_hash (cs : List Char) : splitTrivia false ('#' :: cs) =
    ('#' :: (splitTrivia true cs).1, (splitTrivia true cs).2) := by
  simp [splitTrivia]

theorem splitTrivia_blank (hc : isWhiteSpace c = true) (cs : List Char) :
    splitTrivia false (c :: cs) = (c :: (splitTrivia false cs).1, (splitTrivia false cs).2) := by
  have hhash : (c == '#') = false := by
    rw [beq_eq_false_iff_ne]
    rintro rfl
    exact absurd hc (by decide)
  simp [splitTrivia, hc, hhash]

theorem splitTrivia_word (hc : c ≠ '\n') (cs : List Char) :
    splitTrivia true (c :: cs) = (c :: (splitTrivia true cs).1, (splitTrivia true cs).2) := by
  have hne : (c != '\n') = true := bne_iff_ne.2 hc
  simp [splitTrivia, hne]

theorem splitTrivia_newline (hcs : ∀ c ∈ cs.head?, c = '\n') :
    splitTrivia true cs = splitTrivia false cs := by
  cases cs with
  | nil => rfl
  | cons c cs =>
    obtain rfl := hcs c rfl
    rfl

theorem splitTrivia_visible (h : ∀ c ∈ cs.head?, IsVisible c) :
    splitTrivia false cs = ([], cs) := by
  cases cs with
  | nil => rfl
  | cons c cs =>
    obtain ⟨hwhite, hhash⟩ := h c rfl
    simp [splitTrivia, hwhite, hhash]

theorem splitTrivia_comment (hwords : '\n' ∉ words) (hcs : ∀ c ∈ cs.head?, c = '\n') :
    splitTrivia true (words ++ cs) = (words ++ (splitTrivia false cs).1, (splitTrivia false cs).2) := by
  induction words with
  | nil => exact splitTrivia_newline hcs
  | cons c words ih =>
    have hc : c ≠ '\n' := fun heq => hwords (heq ▸ List.mem_cons_self)
    have hrest := ih fun h => hwords (List.mem_cons_of_mem c h)
    rw [List.cons_append, splitTrivia_word hc, hrest]
    rfl

theorem Gap.splitTrivia_eq (h : Gap skipped rest) :
    splitTrivia false (skipped ++ rest) = (skipped, rest) := by
  induction h with
  | done h => exact splitTrivia_visible h
  | blank hc _ ih => rw [List.cons_append, splitTrivia_blank hc, ih]
  | comment hwords hline _ ih =>
    rw [List.append_assoc, List.cons_append, splitTrivia_hash, splitTrivia_comment hwords hline, ih]
    rfl

/-- Inside a comment, what is split off is the rest of the comment and a gap that begins a line. -/
theorem gap_splitTrivia (cs : List Char) :
    Gap (splitTrivia false cs).1 (splitTrivia false cs).2 ∧
      ∃ words skipped, (splitTrivia true cs).1 = words ++ skipped ∧ '\n' ∉ words ∧
        (∀ c ∈ (skipped ++ (splitTrivia true cs).2).head?, c = '\n') ∧
        Gap skipped (splitTrivia true cs).2 := by
  induction cs with
  | nil => exact ⟨.done nofun, [], [], rfl, nofun, nofun, .done nofun⟩
  | cons c cs ih =>
    obtain ⟨hgap, words, skipped, hsplit, hwords, hline, hcomment⟩ := ih
    have houtside : Gap (splitTrivia false (c :: cs)).1 (splitTrivia false (c :: cs)).2 := by
      by_cases hhash : c = '#'
      · subst hhash
        rw [splitTrivia_hash, hsplit]
        exact .comment hwords hline hcomment
      · by_cases hwhite : isWhiteSpace c = true
        · rw [splitTrivia_blank hwhite]
          exact .blank hwhite hgap
        · have hvisible : ∀ d ∈ (c :: cs).head?, IsVisible d := by
            intro d hd
            cases hd
            exact ⟨Bool.eq_false_iff.2 hwhite, hhash⟩
          rw [splitTrivia_visible hvisible]
          exact .done hvisible
    refine ⟨houtside, ?_⟩
    by_cases hc : c = '\n'
    · subst hc
      have hwhite : isWhiteSpace '\n' = true := by decide
      have hhead : ∀ c ∈ ('\n' :: cs).head?, c = '\n' := by simp
      rw [splitTrivia_newline hhead]
      refine ⟨[], (splitTrivia false ('\n' :: cs)).1, rfl, nofun, ?_, houtside⟩
      rw [splitTrivia_append]
      exact hhead
    · rw [splitTrivia_word hc, hsplit]
      refine ⟨c :: words, skipped, rfl, ?_, hline, hcomment⟩
      rw [List.mem_cons, not_or]
      exact ⟨fun heq => hc heq.symm, hwords⟩

end Gaps

section Streams

variable {p q : Place} {cs skipped text rest : List Char} {piece : Piece} {b : Bool}
  {ts ts' : List Token} {r r' : Except LexError Token} {s : Stream}

theorem nextToken_finished (hgap : Gap cs []) : Stream.nextToken ⟨p, cs, b⟩ =
    (.ok (endMark (p.past cs)), ⟨p.past cs, [], true⟩) := by
  have hsplit := hgap.splitTrivia_eq
  rw [List.append_nil] at hsplit
  simp only [Stream.nextToken, hsplit]

theorem nextToken_unclosed (hgap : Gap skipped ('"' :: rest)) (h : Unclosed rest) :
    Stream.nextToken ⟨p, skipped ++ '"' :: rest, b⟩ =
      (.error (.unterminatedString (p.past skipped).line (p.past skipped).column),
        ⟨(p.past skipped).past ('"' :: rest), [], b⟩) := by
  simp only [Stream.nextToken, hgap.splitTrivia_eq, readPiece_eq_none_iff.2 ⟨rfl, h⟩]

theorem nextToken_token (hgap : Gap skipped text) (hpiece : Segment text piece) :
    Stream.nextToken ⟨p, skipped ++ text, b⟩ =
      (.ok (ofPiece piece (p.past skipped) ((p.past skipped).past piece.taken)),
        ⟨(p.past skipped).past piece.taken, piece.rest, b⟩) := by
  obtain ⟨c, rest, rfl, hread⟩ := hpiece.reads
  simp only [Stream.nextToken, hgap.splitTrivia_eq, hread]

theorem exists_segmented (p : Place) (cs : List Char) : ∃ ts r, Segmented p cs ts r := by
  -- Each token is at least one character long.
  induction hlength : cs.length using Nat.strongRecOn generalizing p cs with
  | ind length ih =>
    have hsplit := splitTrivia_append false cs
    have hgap := (gap_splitTrivia cs).1
    generalize (splitTrivia false cs).1 = skipped at hsplit hgap
    generalize (splitTrivia false cs).2 = text at hsplit hgap
    cases text with
    | nil =>
      rw [List.append_nil] at hsplit
      subst hsplit
      exact ⟨_, _, .finished hgap⟩
    | cons c text =>
      cases hread : readPiece c text with
      | none =>
        obtain ⟨rfl, hunclosed⟩ := readPiece_eq_none_iff.1 hread
        exact ⟨_, _, .unclosed hsplit hgap rfl hunclosed⟩
      | some piece =>
        have htaken := List.length_pos_iff.2 (readPiece_taken_ne_nil hread)
        have hshorter : piece.rest.length < length := by
          rw [← hlength, ← hsplit, ← readPiece_append hread]
          simp only [List.length_append]
          omega
        obtain ⟨ts, r, hrest⟩ :=
          ih _ hshorter ((p.past skipped).past piece.taken) piece.rest rfl
        exact ⟨_, _, .token hsplit hgap rfl (readPiece_eq_some_iff.1 hread) hrest⟩

theorem Segmented.gives (h : Segmented p cs ts r) : Stream.Gives ⟨p, cs, false⟩ ts r := by
  induction h with
  | finished hgap => exact .endMark (nextToken_finished hgap) rfl
  | unclosed hcs hgap hq h =>
    subst hcs hq
    exact .error (nextToken_unclosed hgap h)
  | token hcs hgap hq hpiece _ ih =>
    subst hcs hq
    obtain ⟨c, rest, -, hread⟩ := hpiece.reads
    exact .token (nextToken_token hgap hpiece) (regular_readPiece hread).inText ih

theorem Stream.Gives.unique (h : s.Gives ts r) (h' : s.Gives ts' r') : ts' = ts ∧ r' = r := by
  induction h generalizing ts' r' with
  | endMark h hkind =>
    cases h' with
    | endMark h' => simp_all
    | error h' => simp_all
    | token h' hkind' => simp_all
  | error h => cases h' <;> simp_all
  | token h hkind _ ih =>
    cases h' with
    | endMark h' hkind' => simp_all
    | error h' => simp_all
    | token h' _ hrest' =>
      rw [h] at h'
      cases h'
      obtain ⟨rfl, rfl⟩ := ih hrest'
      exact ⟨rfl, rfl⟩

theorem Segmented.tokens_eq (h : Segmented p cs ts r) :
    Stream.tokens ⟨p, cs, false⟩ = r.map fun last => ts ++ [last] := by
  induction h with
  | finished hgap =>
    rw [Stream.tokens_eq, nextToken_finished hgap]
    rfl
  | unclosed hcs hgap hq h =>
    subst hcs hq
    rw [Stream.tokens_eq, nextToken_unclosed hgap h]
    rfl
  | @token p q cs skipped text piece ts r hcs hgap hq hpiece _ ih =>
    subst hcs hq
    rw [Stream.tokens_eq, nextToken_token hgap hpiece]
    dsimp only
    rw [if_neg (by decide), ih]
    cases r <;> rfl

theorem Segmented.reaches {e : LexError} (h : Segmented p cs ts (.error e)) :
    ∃ rest, Reaches cs ('"' :: rest) ∧ Unclosed rest := by
  generalize hr : Except.error e = r at h
  induction h with
  | finished => cases hr
  | unclosed hcs hgap _ h => exact ⟨_, .here hcs hgap, h⟩
  | token hcs hgap _ hpiece _ ih =>
    obtain ⟨rest, hreaches, hunclosed⟩ := ih hr
    exact ⟨rest, .later hcs hgap hpiece hreaches, hunclosed⟩

theorem Reaches.segmented (h : Reaches cs ('"' :: rest)) (hunclosed : Unclosed rest) (p : Place) :
    ∃ ts e, Segmented p cs ts (.error e) := by
  generalize htext : '"' :: rest = text at h
  induction h generalizing p with
  | here hcs hgap =>
    subst htext
    exact ⟨_, _, .unclosed hcs hgap rfl hunclosed⟩
  | later hcs hgap hpiece _ ih =>
    obtain ⟨ts, e, hrest⟩ := ih _ htext
    exact ⟨_, e, .token hcs hgap rfl hpiece hrest⟩

end Streams

/-- A text has exactly one segmentation, a stream gives its tokens, and reading the whole text fails
exactly if it reaches a quote that is not closed. -/
theorem tokenize_segments (source : String) :
    (∃ ts r, tokenize source = r.map (fun last => ts ++ [last]) ∧
      (∀ ts' r', (Stream.ofString source).Gives ts' r' ↔ ts' = ts ∧ r' = r) ∧
      ∀ ts' r', Segmented .front source.toList ts' r' ↔ ts' = ts ∧ r' = r) ∧
      ((∃ e, tokenize source = .error e) ↔
        ∃ rest, Reaches source.toList ('"' :: rest) ∧ Unclosed rest) := by
  obtain ⟨ts, r, h⟩ := exists_segmented .front source.toList
  have htokens : tokenize source = r.map fun last => ts ++ [last] := h.tokens_eq
  refine ⟨⟨ts, r, htokens, fun ts' r' => ?_, fun ts' r' => ?_⟩, ?_⟩
  · constructor
    · exact h.gives.unique
    · rintro ⟨rfl, rfl⟩
      exact h.gives
  · constructor
    · exact fun h' => h.gives.unique h'.gives
    · rintro ⟨rfl, rfl⟩
      exact h
  · rw [htokens]
    constructor
    · rintro ⟨e, he⟩
      cases r with
      | ok last => cases he
      | error e => exact h.reaches
    · rintro ⟨rest, hreaches, hunclosed⟩
      obtain ⟨ts', e, h'⟩ := hreaches.segmented hunclosed .front
      obtain ⟨-, rfl⟩ := h.gives.unique h'.gives
      exact ⟨e, rfl⟩

end IntScript.Token
