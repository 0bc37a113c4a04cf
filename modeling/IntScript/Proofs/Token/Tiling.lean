import IntScript.Proofs.Token.Segments

/-!
# Where tokens stand

The tokens of a text and the gaps between them make up the whole text, and the span of a token is what
counting bytes, newlines and characters in the text gives (`tokenize_tiles`).
-/

namespace IntScript

def columnBehind (cs : List Char) : Nat := (cs.reverse.takeWhile (· ≠ '\n')).length

/-- The span of a text that another one stands before, counted in these two. -/
structure Span.Covers (s : Span) (before text : String) : Prop where
  start : s.start = before.utf8ByteSize
  stop : s.stop = s.start + text.utf8ByteSize
  line : s.line = 1 + before.toList.count '\n'
  column : s.column = columnBehind before.toList
  endLine : s.endLine = s.line + text.toList.count '\n'

theorem Span.Covers.stop_eq {s : Span} {before text : String} (h : s.Covers before text) :
    s.stop = (before ++ text).utf8ByteSize := by
  rw [h.stop, h.start, String.utf8ByteSize_append]

theorem columnBehind_concat (cs : List Char) (c : Char) :
    columnBehind (cs ++ [c]) = if c = '\n' then 0 else columnBehind cs + 1 := by
  simp only [columnBehind, List.reverse_append, List.reverse_singleton, List.singleton_append,
    List.takeWhile_cons]
  by_cases hc : c = '\n'
  · simp [hc]
  · simp [hc]

theorem Place.past_front (cs : List Char) : Place.front.past cs =
    ⟨(String.ofList cs).utf8ByteSize, 1 + cs.count '\n', columnBehind cs⟩ := by
  induction cs using List.reverseRecOn with
  | nil => rfl
  | append_singleton cs c ih =>
    have hsize : (String.ofList (cs ++ [c])).utf8ByteSize =
        (String.ofList cs).utf8ByteSize + c.utf8Size := by
      rw [String.ofList_append, String.utf8ByteSize_append, ← String.singleton_eq_ofList,
        String.utf8ByteSize_singleton]
    rw [past_append, ih, past_cons, past_nil, step, hsize, columnBehind_concat]
    by_cases hc : c = '\n'
    · simp [hc, Nat.add_assoc]
    · simp [hc]

namespace Token

def stopOf : Nat → List Token → Nat
  | place, [] => place
  | _, t :: ts => stopOf t.span.stop ts

/-- Behind the text before them, the tokens and the gaps in front of each make up the rest. -/
inductive Tiles : List Char → List Char → List Token → Prop where
  | finish {before gap : List Char} {t : Token} (hgap : Gap gap []) (hkind : t.kind = .eof)
      (hlexeme : t.lexeme = "") (hspan : t.span.Covers (.ofList (before ++ gap)) "") :
      Tiles before gap [t]
  | token {before gap text rest : List Char} {t : Token} {ts : List Token}
      (hgap : Gap gap (text ++ rest)) (hkind : t.kind ≠ .eof) (hne : text ≠ [])
      (hlexeme : t.kind ≠ .string → t.lexeme = .ofList text)
      (hspan : t.span.Covers (.ofList (before ++ gap)) (.ofList text))
      (h : Tiles (before ++ gap ++ text) rest ts) : Tiles before (gap ++ (text ++ rest)) (t :: ts)

variable {before cs : List Char} {p q : Place} {piece : Piece} {ts us : List Token} {t mark : Token}

theorem Lexical.lexeme_eq {kind : TokenKind} {lexeme taken : List Char}
    (h : Lexical kind lexeme taken) (hkind : kind ≠ .string) : lexeme = taken := by
  cases h with
  | string => exact absurd rfl hkind
  | integer => rfl
  | name => rfl
  | spelled => rfl

theorem Segment.lexeme_eq (h : Segment cs piece) (hkind : piece.kind ≠ .string) :
    piece.lexeme = piece.taken := by
  cases h with
  | longest _ hlexical _ => exact hlexical.lexeme_eq hkind
  | unknown => rfl

theorem covers_ofPiece (piece : Piece) (before : List Char) (hq : Place.front.past before = q) :
    (ofPiece piece q (q.past piece.taken)).span.Covers (.ofList before) (.ofList piece.taken) := by
  subst hq
  rw [← Place.past_append, Place.past_front, Place.past_front]
  constructor
  · rfl
  · simp [ofPiece, String.ofList_append]
  · simp [ofPiece]
  · simp [ofPiece]
  · simp [ofPiece, Nat.add_assoc]

theorem covers_endMark (before : List Char) (hq : Place.front.past before = q) :
    (endMark q).span.Covers (.ofList before) "" := by
  subst hq
  rw [Place.past_front]
  constructor
  · rfl
  · simp [endMark]
  · simp [endMark]
  · simp [endMark]
  · simp [endMark]

theorem Segmented.tiles {r : Except LexError Token} (h : Segmented p cs ts r) (hr : r = .ok mark)
    (hp : Place.front.past before = p) : Tiles before cs (ts ++ [mark]) := by
  induction h generalizing before with
  | @finished p cs hgap =>
    cases hr
    have hq : Place.front.past (before ++ cs) = p.past cs := by rw [Place.past_append, hp]
    exact .finish hgap rfl rfl (covers_endMark _ hq)
  | unclosed => cases hr
  | @token p q cs skipped text piece ts r hcs hgap hq hpiece _ ih =>
    have hfront : Place.front.past (before ++ skipped) = q := by rw [Place.past_append, hp, hq]
    -- the text of a piece is what was taken, which is not empty
    obtain ⟨c, rest, -, hread⟩ := hpiece.reads
    have hsplit := hpiece.split
    subst hcs
    rw [← hsplit] at hgap ⊢
    refine .token hgap (regular_readPiece hread).inText (readPiece_taken_ne_nil hread) ?_
      (covers_ofPiece piece _ hfront) (ih hr (by rw [Place.past_append, hfront]))
    intro hkind
    rw [ofPiece, hpiece.lexeme_eq hkind]

theorem tiles_of_tokenize {source : String} (h : tokenize source = .ok ts) :
    Tiles [] source.toList ts := by
  obtain ⟨us, r, hsegments⟩ := exists_segmented .front source.toList
  have htokens : tokenize source = r.map fun mark => us ++ [mark] := hsegments.tokens_eq
  rw [h] at htokens
  cases r with
  | error e => cases htokens
  | ok mark =>
    cases htokens
    exact hsegments.tiles rfl rfl

namespace Tiles

theorem covers (h : Tiles before cs ts) (ht : t ∈ ts) :
    ∃ front text rest, front ++ text ++ rest = before ++ cs ∧
      t.span.Covers (.ofList front) (.ofList text) ∧ (t.kind ≠ .string → t.lexeme = .ofList text) := by
  induction h with
  | @finish before gap mark _ _ hlexeme hspan =>
    obtain rfl := List.mem_singleton.1 ht
    refine ⟨before ++ gap, [], [], by simp, ?_, fun _ => ?_⟩
    · rwa [String.ofList_nil]
    · rw [hlexeme, String.ofList_nil]
  | @token before gap text rest u ts _ _ _ hlexeme hspan _ ih =>
    rcases List.mem_cons.1 ht with rfl | hts
    · exact ⟨before ++ gap, text, rest, by simp, hspan, hlexeme⟩
    · obtain ⟨front, word, after, hsplit, hcovers⟩ := ih hts
      refine ⟨front, word, after, ?_, hcovers⟩
      rw [hsplit]
      simp

theorem finishes (h : Tiles before cs ts) : ∃ (us : List Token) (mark : Token),
    ts = us ++ [mark] ∧ mark.kind = .eof ∧
    mark.span.start = (String.ofList (before ++ cs)).utf8ByteSize ∧
    mark.span.stop = mark.span.start ∧ ∀ t ∈ us, t.kind ≠ .eof ∧ t.span.start < t.span.stop := by
  induction h with
  | @finish before gap mark _ hkind _ hspan =>
    exact ⟨[], mark, rfl, hkind, hspan.start, by simpa using hspan.stop, List.forall_mem_nil _⟩
  | @token before gap text rest t ts _ hkind hne _ hspan _ ih =>
    obtain ⟨us, mark, rfl, hmark, hstart, hstop, hus⟩ := ih
    refine ⟨t :: us, mark, rfl, hmark, ?_, hstop, ?_⟩
    · rw [hstart]
      simp
    · intro u hu
      rcases List.mem_cons.1 hu with rfl | hu
      · have hsize : (String.ofList text).utf8ByteSize ≠ 0 := by
          simpa [String.utf8ByteSize_eq_zero_iff] using hne
        have hlast := hspan.stop
        exact ⟨hkind, by omega⟩
      · exact hus u hu

theorem le_start (h : Tiles before cs ts) (ht : t ∈ ts) :
    (String.ofList before).utf8ByteSize ≤ t.span.start := by
  induction h with
  | finish _ _ _ hspan =>
    obtain rfl := List.mem_singleton.1 ht
    simp [hspan.start, String.ofList_append]
  | token _ _ _ _ hspan _ ih =>
    rcases List.mem_cons.1 ht with rfl | hts
    · simp [hspan.start, String.ofList_append]
    · have hle := ih hts
      simp only [String.ofList_append, String.utf8ByteSize_append] at hle
      omega

theorem pairwise (h : Tiles before cs ts) :
    ts.Pairwise fun t u => t.span.stop ≤ u.span.start := by
  induction h with
  | finish => exact List.pairwise_singleton _ _
  | token _ _ _ _ hspan hrest ih =>
    refine List.pairwise_cons.2 ⟨fun u hu => ?_, ih⟩
    have hle := hrest.le_start hu
    rwa [String.ofList_append, ← hspan.stop_eq] at hle

theorem gap_behind (h : Tiles before cs (us ++ t :: ts)) : ∃ front gap rest,
    front ++ gap ++ rest = before ++ cs ∧ Gap gap rest ∧
      (String.ofList front).utf8ByteSize = stopOf (String.ofList before).utf8ByteSize us ∧
      (String.ofList (front ++ gap)).utf8ByteSize = t.span.start := by
  induction us generalizing before cs with
  | nil =>
    cases h with
    | finish hgap _ _ hspan => exact ⟨before, cs, [], by simp, hgap, rfl, hspan.start.symm⟩
    | @token _ gap text rest _ _ hgap _ _ _ hspan _ =>
      exact ⟨before, gap, text ++ rest, by simp, hgap, rfl, hspan.start.symm⟩
  | cons u us ih =>
    generalize hall : (u :: us) ++ t :: ts = all at h
    cases h with
    | finish => simp at hall
    | @token _ space text rest _ _ _ _ _ _ hspan h =>
      obtain ⟨rfl, rfl⟩ := List.cons.inj hall
      obtain ⟨front, gap, after, hsplit, hgap, hstop, hstart⟩ := ih h
      have hu : (String.ofList (before ++ space ++ text)).utf8ByteSize = u.span.stop := by
        rw [hspan.stop_eq, ← String.ofList_append]
      refine ⟨front, gap, after, by rw [hsplit]; simp, hgap, ?_, hstart⟩
      rw [hstop, hu, stopOf]

end Tiles

/-- The bytes of a token are those of its text, in which it stands, its lines and column are counted there,
and between the tokens there are white space and comments only. -/
theorem tokenize_tiles {source : String} {ts : List Token} (h : tokenize source = .ok ts) :
    (∀ t ∈ ts, ∃ before text after : String, before ++ text ++ after = source ∧
      t.span.Covers before text ∧ (t.kind ≠ .string → t.lexeme = text)) ∧
    (∃ (us : List Token) (mark : Token), ts = us ++ [mark] ∧ mark.kind = .eof ∧
      mark.span.start = source.utf8ByteSize ∧ mark.span.stop = source.utf8ByteSize ∧
      ∀ t ∈ us, t.kind ≠ .eof ∧ t.span.start < t.span.stop) ∧
    (ts.Pairwise fun t u => t.span.stop ≤ u.span.start) ∧
    ∀ us t vs, ts = us ++ t :: vs → ∃ before gap after : String, before ++ gap ++ after = source ∧
      before.utf8ByteSize = stopOf 0 us ∧ (before ++ gap).utf8ByteSize = t.span.start ∧
      Gap gap.toList after.toList := by
  have htiles := tiles_of_tokenize h
  have hsource {front middle rest : List Char} (hsplit : front ++ middle ++ rest = source.toList) :
      String.ofList front ++ String.ofList middle ++ String.ofList rest = source := by
    rw [← String.ofList_append, ← String.ofList_append, hsplit, String.ofList_toList]
  refine ⟨?_, ?_, htiles.pairwise, ?_⟩
  · intro t ht
    obtain ⟨front, text, rest, hsplit, hspan, hlexeme⟩ := htiles.covers ht
    exact ⟨_, _, _, hsource hsplit, hspan, hlexeme⟩
  · obtain ⟨us, mark, hts, hkind, hstart, hstop, hus⟩ := htiles.finishes
    rw [List.nil_append, String.ofList_toList] at hstart
    exact ⟨us, mark, hts, hkind, hstart, by rw [hstop, hstart], hus⟩
  · rintro us t vs rfl
    obtain ⟨front, gap, rest, hsplit, hgap, hstop, hstart⟩ := htiles.gap_behind
    refine ⟨_, _, _, hsource hsplit, hstop, ?_, ?_⟩
    · rw [← String.ofList_append, hstart]
    · rwa [String.toList_ofList, String.toList_ofList]

def accentedLines : String := "x = \"é\\\nü\" # ö\n"

theorem tokenize_tiles_accentedLines :
    tokenize accentedLines = .ok [⟨.identifier, "x", ⟨0, 1, 1, 0, 1⟩⟩, ⟨.assign, "=", ⟨2, 3, 1, 2, 1⟩⟩,
      ⟨.string, "é\nü", ⟨4, 12, 1, 4, 2⟩⟩, ⟨.eof, "", ⟨18, 18, 3, 0, 3⟩⟩] ∧
    ∃ before gap after : String, before ++ gap ++ after = accentedLines ∧
      before.utf8ByteSize = 12 ∧ (before ++ gap).utf8ByteSize = 18 ∧ Gap gap.toList after.toList := by
  have h : tokenize accentedLines = .ok [⟨.identifier, "x", ⟨0, 1, 1, 0, 1⟩⟩,
      ⟨.assign, "=", ⟨2, 3, 1, 2, 1⟩⟩, ⟨.string, "é\nü", ⟨4, 12, 1, 4, 2⟩⟩,
      ⟨.eof, "", ⟨18, 18, 3, 0, 3⟩⟩] := by cbv
  exact ⟨h, (tokenize_tiles h).2.2.2 [_, _, _] _ [] rfl⟩

end Token

end IntScript
