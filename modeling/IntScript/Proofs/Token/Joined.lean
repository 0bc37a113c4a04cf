import IntScript.Proofs.Token.Segments

/-!
# Texts one below the other

Behind the end of a line a text is segmented as it is alone, further down. So the tokens of two texts, of
which the first ends with a newline, are those of the first and then those of the second, moved.
-/

namespace IntScript

def Place.shift (bytes lines : Nat) (p : Place) : Place := ⟨p.offset + bytes, p.line + lines, p.column⟩

def Token.shift (bytes lines : Nat) (t : Token) : Token :=
  { t with span := ⟨t.span.start + bytes, t.span.stop + bytes, t.span.line + lines, t.span.column,
      t.span.endLine + lines⟩ }

def LexError.shift (lines : Nat) : LexError → LexError
  | unterminatedString line column => unterminatedString (line + lines) column

/-- Nothing, or whole lines. -/
def EndsLine (cs : List Char) : Prop := ∀ c ∈ cs.getLast?, c = '\n'

def LineBetween (cs ds : List Char) : Prop := EndsLine cs ∨ ∃ rest, ds = '\n' :: rest

variable {p q : Place} {cs ds : List Char} {bytes lines : Nat}

theorem EndsLine.of_append (h : EndsLine (cs ++ ds)) : EndsLine ds := by
  intro c hc
  apply h
  rw [Option.mem_def, List.getLast?_append, Option.mem_def.1 hc]
  rfl

theorem LineBetween.of_append {es : List Char} (h : LineBetween (cs ++ ds) es) : LineBetween ds es :=
  h.imp_left EndsLine.of_append

theorem EndsLine.newline_mem (h : EndsLine cs) (hne : cs ≠ []) : '\n' ∈ cs := by
  have hlast : cs.getLast hne = '\n' := h _ (List.getLast?_eq_some_getLast hne)
  exact hlast ▸ List.getLast_mem hne

theorem LineBetween.newline_mem {taken : List Char} (h : LineBetween cs ds) (hne : cs ≠ [])
    (hp : cs <+: taken) (htaken : taken <+: cs ++ ds) : taken <+: cs ∨ '\n' ∈ taken := by
  rcases h with hends | ⟨rest, rfl⟩
  · exact .inr (hp.subset (hends.newline_mem hne))
  · obtain ⟨es, rfl⟩ := hp
    rw [List.prefix_append_right_inj] at htaken
    cases es with
    | nil => exact .inl (by simp)
    | cons e es =>
      obtain ⟨rfl, -⟩ := List.cons_prefix_cons.1 htaken
      exact .inr (by simp)

namespace Place

theorem shift_step (c : Char) : (p.shift bytes lines).step c = (p.step c).shift bytes lines := by
  unfold step shift
  split <;> simp [Nat.add_right_comm]

theorem shift_past : (p.shift bytes lines).past cs = (p.past cs).shift bytes lines := by
  induction cs generalizing p with
  | nil => rfl
  | cons c cs ih => rw [past_cons, past_cons, shift_step, ih]

theorem line_lt_past (h : '\n' ∈ cs) : p.line < (p.past cs).line := by
  induction cs generalizing p with
  | nil => cases h
  | cons c cs ih =>
    by_cases hc : c = '\n'
    · have hstep : (p.step c).line = p.line + 1 := by simp [step, hc]
      have hle := line_le_past cs (p.step c)
      rw [past_cons]
      omega
    · have hstep : (p.step c).line = p.line := by simp [step, hc]
      have hmem := (List.mem_cons.1 h).resolve_left fun heq => hc heq.symm
      rw [past_cons, ← hstep]
      exact ih hmem

theorem past_column (h : EndsLine cs) (hp : p.column = 0) : (p.past cs).column = 0 := by
  rcases List.eq_nil_or_concat cs with rfl | ⟨cs, c, rfl⟩
  · exact hp
  · obtain rfl : c = '\n' := h c (by simp)
    rw [List.concat_eq_append, past_append]
    rfl

theorem past_lines (h : EndsLine cs) :
    front.past cs = front.shift (front.past cs).offset ((front.past cs).line - 1) := by
  have hcolumn := past_column (p := front) h rfl
  have hline : 1 ≤ (front.past cs).line := line_le_past cs front
  generalize front.past cs = q at hcolumn hline
  obtain ⟨offset, line, column⟩ := q
  obtain rfl : column = 0 := hcolumn
  have hlines : line = 1 + (line - 1) := (Nat.add_sub_of_le hline).symm
  rw [shift, front, Nat.zero_add, ← hlines]

end Place

namespace Token

variable {skipped skipped' rest more text text' body body' lexeme taken : List Char} {piece : Piece}
  {kind : TokenKind} {ts us : List Token} {r : Except LexError Token} {last : Token}

section Gaps

theorem Gap.visible (h : Gap skipped rest) : ∀ c ∈ rest.head?, IsVisible c := by
  induction h with
  | done h => exact h
  | blank _ _ ih => exact ih
  | comment _ _ _ ih => exact ih

theorem Gap.append {c : Char} (h : Gap skipped (c :: rest)) (more : List Char) :
    Gap skipped (c :: rest ++ more) := by
  have hhead (cs : List Char) : (cs ++ (c :: rest ++ more)).head? = (cs ++ c :: rest).head? := by
    cases cs <;> rfl
  generalize htext : c :: rest = text at h
  induction h with
  | done h =>
    subst htext
    exact .done h
  | blank hc _ ih => exact .blank hc (ih htext)
  | comment hwords hline _ ih =>
    subst htext
    exact .comment hwords (by rwa [hhead]) (ih rfl)

theorem Gap.join (h : Gap skipped []) (hline : LineBetween skipped (skipped' ++ rest))
    (h' : Gap skipped' rest) : Gap (skipped ++ skipped') rest := by
  generalize htext : ([] : List Char) = text at h
  induction h with
  | done => exact h'
  | @blank c skipped _ hc _ ih =>
    have htail : LineBetween skipped (skipped' ++ rest) :=
      (show LineBetween ([c] ++ skipped) _ from hline).of_append
    exact .blank hc (ih htail htext)
  | @comment words skipped _ hwords hhead _ ih =>
    subst htext
    rw [List.append_nil] at hhead
    have hrest := ih hline.of_append rfl
    rw [List.append_assoc]
    refine .comment hwords ?_ hrest
    cases skipped with
    | cons d skipped => exact hhead
    | nil =>
      -- A newline that ends the comment is not one of its own characters.
      rcases hline with hends | ⟨more, hmore⟩
      · have hmem := hends.newline_mem (by simp)
        simp [hwords] at hmem
      · rw [List.nil_append, hmore]
        simp

end Gaps

section Segments

theorem Lexical.quoted (h : Lexical kind lexeme ('"' :: body)) : Quoted lexeme body := by
  generalize htaken : '"' :: body = taken at h
  cases h with
  | integer _ hdigits => exact absurd (hdigits '"' (htaken ▸ List.mem_cons_self)) (by decide)
  | name hshape => exact absurd (hshape.continues '"' (htaken ▸ List.mem_cons_self)) (by decide)
  | spelled => cases kind <;> cases htaken
  | string hquoted =>
    cases htaken
    exact hquoted

theorem Lexical.exists_quoted (h : Lexical kind lexeme taken) (hnewline : '\n' ∈ taken) :
    ∃ body, taken = '"' :: body ∧ Quoted lexeme body := by
  cases h with
  | integer _ hdigits => exact absurd (hdigits _ hnewline) (by decide)
  | name hshape => exact absurd (hshape.continues _ hnewline) (by decide)
  | spelled => cases kind <;> simp [TokenKind.spelling] at hnewline
  | string hquoted => exact ⟨_, rfl, hquoted⟩

theorem Quoted.eq_of_prefix (h : Quoted text body) (h' : Quoted text' body') (hp : body <+: body') :
    body = body' := by
  obtain ⟨rest, rfl⟩ := hp
  have hclose := h'.closeString []
  rw [List.append_nil, h.closeString rest, Option.some.injEq, Prod.mk.injEq, Prod.mk.injEq] at hclose
  exact hclose.2.1

theorem Quoted.getLast? (h : Quoted text body) : body.getLast? = some '"' := by
  induction h with
  | close => rfl
  | newline _ ih => simp [List.getLast?_cons, ih]
  | tab _ ih => simp [List.getLast?_cons, ih]
  | escaped _ _ _ ih => simp [List.getLast?_cons, ih]
  | plain _ _ _ ih => simp [List.getLast?_cons, ih]

theorem Segment.ne_nil (h : Segment cs piece) : cs ≠ [] := by
  obtain ⟨c, rest, rfl, -⟩ := h.reads
  exact List.cons_ne_nil c rest

theorem Segment.append (h : Segment cs piece) (hline : LineBetween cs more) :
    Segment (cs ++ more) { piece with rest := piece.rest ++ more } := by
  -- A token that is longer than the text has a newline in it.
  have hlonger {kind : TokenKind} {lexeme taken : List Char} (hlexical : Lexical kind lexeme taken)
      (htaken : taken <+: cs ++ more) :
      taken <+: cs ∨ ∃ body, taken = '"' :: body ∧ Quoted lexeme body ∧ cs <+: taken := by
    rcases List.prefix_or_prefix_of_prefix htaken (List.prefix_append cs more) with hp | hp
    · exact .inl hp
    · rcases hline.newline_mem h.ne_nil hp htaken with hshort | hnewline
      · exact .inl hshort
      · obtain ⟨body, hbody, hquoted⟩ := hlexical.exists_quoted hnewline
        exact .inr ⟨body, hbody, hquoted, hp⟩
  cases h with
  | longest hsplit hlexical hmax =>
    refine .longest (by rw [← List.append_assoc, hsplit]) hlexical fun _ _ taken hother htaken => ?_
    rcases hlonger hother htaken with hp | ⟨body, rfl, hquoted, hp⟩
    · exact hmax _ _ _ hother hp
    · have htakenPrefix : piece.taken <+: '"' :: body := (hsplit ▸ List.prefix_append _ _).trans hp
      obtain ⟨c, taken, htaken, -⟩ := hlexical.reads
      rw [htaken, List.cons_prefix_cons] at htakenPrefix
      obtain ⟨rfl, hbody⟩ := htakenPrefix
      have hpiece := (htaken ▸ hlexical).quoted
      exact Nat.le_of_eq (by rw [htaken, hpiece.eq_of_prefix hquoted hbody])
  | unknown hsplit hquote hnone =>
    subst hsplit
    refine .unknown rfl hquote fun _ _ taken hother htaken => ?_
    rcases hlonger hother htaken with hp | ⟨body, rfl, -, hp⟩
    · exact hnone _ _ _ hother hp
    · exact hquote (List.cons_prefix_cons.1 hp).1

theorem Segment.rest_ne_nil (h : Segment cs piece) (hvisible : ∀ c ∈ cs.head?, IsVisible c)
    (hline : EndsLine cs) : piece.rest ≠ [] := by
  intro hrest
  have hsplit := h.split
  have hnewline := hline.newline_mem h.ne_nil
  rw [hrest, List.append_nil] at hsplit
  cases h with
  | longest _ hlexical _ =>
    obtain ⟨body, hbody, hquoted⟩ := hlexical.exists_quoted (hsplit ▸ hnewline)
    have hlast : cs.getLast? = some '"' := by
      rw [← hsplit, hbody, List.getLast?_cons, hquoted.getLast?]
      rfl
    exact absurd (hline '"' hlast) (by decide)
  | unknown =>
    subst hsplit
    obtain rfl := hline _ rfl
    exact absurd (hvisible '\n' rfl) (by decide)

theorem Segmented.gap_join {p : Place} (h : Segmented (p.past skipped) cs ts r)
    (hgap : Gap skipped []) (hline : LineBetween skipped cs) : Segmented p (skipped ++ cs) ts r := by
  have hplace (more : List Char) : p.past (skipped ++ more) = (p.past skipped).past more :=
    p.past_append skipped more
  cases h with
  | finished hnext =>
    rw [← hplace]
    exact .finished (hgap.join (by rwa [List.append_nil]) hnext)
  | unclosed hcs hnext hq h =>
    refine .unclosed ?_ (hgap.join (hcs ▸ hline) hnext) ((hplace _).trans hq) h
    rw [List.append_assoc, hcs]
  | token hcs hnext hq hpiece h =>
    refine .token ?_ (hgap.join (hcs ▸ hline) hnext) ((hplace _).trans hq) hpiece h
    rw [List.append_assoc, hcs]

/-- Texts with the end of a line between them are segmented one after the other. -/
theorem Segmented.append {p : Place} (h : Segmented p cs ts (.ok last)) (hline : LineBetween cs ds)
    (h' : Segmented (p.past cs) ds us r) : Segmented p (cs ++ ds) (ts ++ us) r := by
  generalize hlast : (Except.ok last : Except LexError Token) = result at h
  induction h with
  | finished hgap => exact h'.gap_join hgap hline
  | unclosed => cases hlast
  | @token p q cs skipped text piece ts result hcs hgap hq hpiece _ ih =>
    subst hcs hq
    have htext : LineBetween text ds := hline.of_append
    have hrest : LineBetween piece.rest ds := by
      rw [← hpiece.split] at htext
      exact htext.of_append
    rw [Place.past_append, ← hpiece.split, Place.past_append] at h'
    obtain ⟨c, text, rfl, -⟩ := hpiece.reads
    have hjoined := (List.append_assoc skipped (c :: text) ds).symm
    have htoken := Segmented.token hjoined (hgap.append ds) rfl (hpiece.append htext)
      (ih hrest h' hlast)
    exact htoken

theorem Segmented.append_newline {p : Place} (h : Segmented p cs ts (.ok last))
    (h' : Segmented (p.past (cs ++ ['\n'])) ds us r) : Segmented p (cs ++ '\n' :: ds) (ts ++ us) r := by
  rw [Place.past_append] at h'
  have hnewline : Gap ['\n'] [] := .blank (by decide) (.done nofun)
  have hends : EndsLine ['\n'] := by simp [EndsLine]
  exact h.append (.inr ⟨ds, rfl⟩) (h'.gap_join hnewline (.inl hends))

theorem Segmented.kind_ne_eof {p : Place} (h : Segmented p cs ts r) : ∀ t ∈ ts, t.kind ≠ .eof := by
  induction h with
  | finished => nofun
  | unclosed => nofun
  | token _ _ _ hpiece _ ih =>
    obtain ⟨c, rest, -, hread⟩ := hpiece.reads
    exact List.forall_mem_cons.2 ⟨(regular_readPiece hread).inText, ih⟩

theorem Segmented.marked {p : Place} (h : Segmented p cs ts (.ok last)) :
    last = endMark (p.past cs) ∧ ∀ t ∈ ts, t.kind ≠ .eof := by
  refine ⟨?_, h.kind_ne_eof⟩
  generalize hlast : (Except.ok last : Except LexError Token) = result at h
  induction h with
  | finished =>
    cases hlast
    rfl
  | unclosed => cases hlast
  | @token p q cs skipped text piece ts result hcs hgap hq hpiece _ ih =>
    subst hcs hq
    rw [Place.past_append, ← hpiece.split, Place.past_append]
    exact ih hlast

theorem exists_segmented_of_tokenize {source : String} {vs : List Token} (h : tokenize source = .ok vs) :
    ∃ ts q, vs = ts ++ [endMark q] ∧ Segmented .front source.toList ts (.ok (endMark q)) := by
  obtain ⟨ts, r, hts⟩ := exists_segmented .front source.toList
  have htokens : tokenize source = r.map fun last => ts ++ [last] := hts.tokens_eq
  rw [h] at htokens
  cases r with
  | error e => cases htokens
  | ok last =>
    obtain ⟨rfl, -⟩ := hts.marked
    exact ⟨ts, _, Except.ok.inj htokens, hts⟩

theorem ofPiece_shift (piece : Piece) (p q : Place) (bytes lines : Nat) :
    ofPiece piece (p.shift bytes lines) (q.shift bytes lines) =
      (ofPiece piece p q).shift bytes lines := rfl

theorem Segmented.shift {p : Place} (h : Segmented p cs ts r) (bytes lines : Nat) :
    Segmented (p.shift bytes lines) cs (ts.map (Token.shift bytes lines))
      ((r.map (Token.shift bytes lines)).mapError (LexError.shift lines)) := by
  induction h with
  | @finished p cs hgap =>
    have hmark := Segmented.finished (p := p.shift bytes lines) hgap
    rw [Place.shift_past] at hmark
    exact hmark
  | unclosed hcs hgap hq h =>
    exact .unclosed hcs hgap (Place.shift_past.trans (congrArg _ hq)) h
  | @token p q cs skipped text piece ts r hcs hgap hq hpiece _ ih =>
    rw [← Place.shift_past] at ih
    have htoken := Segmented.token hcs hgap (Place.shift_past.trans (congrArg _ hq)) hpiece ih
    rw [Place.shift_past, ofPiece_shift] at htoken
    exact htoken

theorem Segmented.line_bounds {p : Place} (h : Segmented p cs ts r) (hline : EndsLine cs) {t : Token}
    (ht : t ∈ ts) : p.line ≤ t.span.line ∧ t.span.endLine < (p.past cs).line := by
  induction h with
  | finished => cases ht
  | unclosed => cases ht
  | @token p q cs skipped text piece ts r hcs hgap hq hpiece _ ih =>
    subst hcs hq
    have htext : EndsLine text := hline.of_append
    have hrest : EndsLine piece.rest := by
      rw [← hpiece.split] at htext
      exact htext.of_append
    have hstart := Place.line_le_past skipped p
    rw [Place.past_append, ← hpiece.split, Place.past_append]
    rcases List.mem_cons.1 ht with rfl | ht
    · have hne := hpiece.rest_ne_nil hgap.visible htext
      exact ⟨hstart, Place.line_lt_past (hrest.newline_mem hne)⟩
    · obtain ⟨hbegin, hend⟩ := ih hrest ht
      have htaken := Place.line_le_past piece.taken (p.past skipped)
      exact ⟨by omega, hend⟩

end Segments

end Token

end IntScript
