import IntScript.Proofs.Token.Joined
import IntScript.Proofs.Token.Tiling

/-!
# Tokens cut out and set apart

The characters of each token, cut out of the text, are read as that token wherever white space stands behind
them. So when they are put together again with any white space between them, the text that comes of it has
the same kinds and lexemes (`tokenize_separated`).
-/

namespace IntScript

/-- The characters of a text from where the span starts up to where it stops. There are none if one of these
is not between two characters, or they are in the wrong order. -/
def Span.slice? (s : Span) (source : String) : Option String := do
  let start ← source.pos? ⟨s.start⟩
  let stop ← source.pos? ⟨s.stop⟩
  return (← source.slice? start stop).copy

theorem exists_pos? {source before after : String} (h : before ++ after = source) :
    ∃ p, source.pos? ⟨before.utf8ByteSize⟩ = some p ∧ p.offset.byteIdx = before.utf8ByteSize := by
  have hvalid : (String.Pos.Raw.mk before.utf8ByteSize).IsValid source :=
    String.Pos.Raw.isValid_iff_exists_append.2 ⟨before, after, h.symm, rfl⟩
  refine ⟨source.pos _ hvalid, ?_, rfl⟩
  rw [String.pos?, String.Slice.pos?,
    dif_pos (String.Pos.Raw.isValidForSlice_eq_true_iff.2 hvalid.toSlice)]
  rfl

theorem Span.Covers.slice?_eq {s : Span} {source before text after : String} (h : s.Covers before text)
    (hsource : before ++ (text ++ after) = source) : s.slice? source = some text := by
  have hbehind : before ++ text ++ after = source := by rw [String.append_assoc, hsource]
  obtain ⟨start, hstart, hstartOffset⟩ := exists_pos? hsource
  obtain ⟨stop, hstop, hstopOffset⟩ := exists_pos? hbehind
  rw [String.utf8ByteSize_append] at hstopOffset
  have hle : start ≤ stop := by
    rw [String.Pos.le_iff, String.Pos.Raw.le_iff, hstartOffset, hstopOffset]
    exact Nat.le_add_right _ _
  have hbytes : source.toByteArray.extract (before.toByteArray.size + 0)
      (before.toByteArray.size + text.toByteArray.size) = text.toByteArray := by
    rw [← hsource, String.toByteArray_append, ByteArray.extract_append_size_add,
      String.toByteArray_append, ByteArray.extract_append_eq_left rfl]
  have hcopy : (source.slice start stop hle).copy = text := by
    rw [← String.toByteArray_inj, ← String.extract_eq_copy_slice, String.toByteArray_extract,
      hstartOffset, hstopOffset]
    exact hbytes
  rw [slice?, h.start, h.stop_eq, hstart, hstop]
  simp only [Option.bind_eq_bind, Option.bind_some, String.slice?, dif_pos hle]
  rw [hcopy]
  rfl

namespace Token

open Text

def face (t : Token) : TokenKind × String := (t.kind, t.lexeme)

def IsBlank (s : String) : Prop := s ≠ "" ∧ ∀ c ∈ s.toList, isWhiteSpace c = true

def separated : List String → List String → String
  | word :: words, blank :: blanks => word ++ blank ++ separated words blanks
  | word :: _, [] => word
  | [], _ => ""

/-- The characters are read as the token when nothing stands behind them. -/
def Spells (t : Token) (word : List Char) : Prop :=
  ∃ c cs, word = c :: cs ∧ IsVisible c ∧ readPiece c cs = some ⟨t.kind, t.lexeme.toList, word, []⟩

variable {before cs word blank rest text skipped : List Char} {words blanks : List String} {piece : Piece}
  {p q : Place} {t mark : Token} {ts : List Token} {r : Except LexError Token} {source : String}

theorem gap_of_blank (hblank : ∀ c ∈ blank, isWhiteSpace c = true)
    (hrest : ∀ c ∈ rest.head?, IsVisible c) : Gap blank rest := by
  induction blank with
  | nil => exact .done hrest
  | cons c blank ih =>
    refine .blank (hblank c List.mem_cons_self) (ih fun d hd => ?_)
    exact hblank d (List.mem_cons_of_mem c hd)

theorem breaks_append (hne : blank ≠ []) (hblank : ∀ c ∈ blank, isWhiteSpace c = true)
    (rest : List Char) : Breaks (blank ++ rest) := by
  obtain ⟨c, blank, rfl⟩ := List.exists_cons_of_ne_nil hne
  intro d hd
  cases hd
  exact hblank c List.mem_cons_self

theorem spells_ofPiece (hgap : Gap skipped text) (hpiece : Segment text piece) (p q : Place) :
    Spells (ofPiece piece p q) piece.taken := by
  obtain ⟨c, rest, rfl, hread⟩ := hpiece.reads
  have hnothing : Breaks [] := nofun
  obtain ⟨taken, htaken, hreread⟩ := readPiece_reread hread hnothing
  refine ⟨c, taken, htaken, hgap.visible c rfl, ?_⟩
  rw [List.append_nil] at hreread
  simpa [ofPiece] using hreread

theorem Spells.segment (h : Spells t word) (hrest : Breaks rest) :
    (∀ c ∈ (word ++ rest).head?, IsVisible c) ∧
      Segment (word ++ rest) ⟨t.kind, t.lexeme.toList, word, rest⟩ := by
  obtain ⟨c, cs, rfl, hvisible, hread⟩ := h
  obtain ⟨taken, htaken, hreread⟩ := readPiece_reread hread hrest
  obtain rfl : cs = taken := (List.cons.inj htaken).2
  constructor
  · intro d hd
    cases hd
    exact hvisible
  · exact segment_readPiece hreread

theorem Segmented.exists_words (h : Segmented p cs ts r) (hp : Place.front.past before = p)
    (hsource : String.ofList (before ++ cs) = source) : ∃ words : List String,
      ts.map (·.span.slice? source) = words.map some ∧
        List.Forall₂ (fun t word => Spells t word.toList) ts words := by
  induction h generalizing before with
  | finished => exact ⟨[], rfl, .nil⟩
  | unclosed => exact ⟨[], rfl, .nil⟩
  | @token p q cs skipped text piece ts r hcs hgap hq hpiece _ ih =>
    have hfront : Place.front.past (before ++ skipped) = q := by rw [Place.past_append, hp, hq]
    have hbehind : Place.front.past (before ++ skipped ++ piece.taken) = q.past piece.taken := by
      rw [Place.past_append, hfront]
    have hall : before ++ skipped ++ (piece.taken ++ piece.rest) = before ++ cs := by
      rw [hpiece.split, List.append_assoc, hcs]
    have hparts : String.ofList (before ++ skipped) ++
        (String.ofList piece.taken ++ String.ofList piece.rest) = source := by
      rw [← String.ofList_append, ← String.ofList_append, hall, hsource]
    have hslice : (ofPiece piece q (q.past piece.taken)).span.slice? source =
        some (.ofList piece.taken) := (covers_ofPiece piece _ hfront).slice?_eq hparts
    obtain ⟨words, hwords, hspells⟩ := ih hbehind (by rw [List.append_assoc, hall, hsource])
    refine ⟨.ofList piece.taken :: words, ?_, .cons ?_ hspells⟩
    · rw [List.map_cons, List.map_cons, hslice, hwords]
    · rw [String.toList_ofList]
      exact spells_ofPiece hgap hpiece _ _

theorem exists_segmented_separated (h : List.Forall₂ (fun t word => Spells t word.toList) ts words)
    (hlength : blanks.length = words.length) (hblanks : ∀ blank ∈ blanks, IsBlank blank)
    (hblank : ∀ c ∈ blank, isWhiteSpace c = true) (p : Place) :
    ∃ us q, Segmented p (blank ++ (separated (words ++ [""]) blanks).toList) us (.ok (endMark q)) ∧
      us.map face = ts.map face := by
  induction h generalizing blanks blank p with
  | nil =>
    obtain rfl := List.length_eq_zero_iff.1 hlength
    have hgap : Gap (blank ++ []) [] := by
      rw [List.append_nil]
      exact gap_of_blank hblank nofun
    exact ⟨[], _, .finished hgap, rfl⟩
  | @cons t word ts words hword _ ih =>
    obtain ⟨next, blanks, rfl⟩ := List.exists_cons_of_length_eq_add_one hlength
    obtain ⟨hne, hnext⟩ := hblanks next List.mem_cons_self
    have hbreaks := breaks_append (by simpa using hne) hnext (separated (words ++ [""]) blanks).toList
    obtain ⟨hvisible, hsegment⟩ := hword.segment hbreaks
    obtain ⟨us, q, hrest, hfaces⟩ := ih (by simpa using hlength)
      (fun b hb => hblanks b (List.mem_cons_of_mem next hb)) hnext ((p.past blank).past word.toList)
    refine ⟨_, q, .token ?_ (gap_of_blank hblank hvisible) rfl hsegment hrest, ?_⟩
    · simp [separated]
    · rw [List.map_cons, List.map_cons, hfaces]
      simp [face, ofPiece]

/-- The spans of the tokens cut words out of the text, the last one empty. Whatever white space separates
these words, the text that they make has tokens of the same kinds and lexemes, in the same order. -/
theorem tokenize_separated (h : tokenize source = .ok ts) : ∃ words : List String,
    ts.map (·.span.slice? source) = words.map some ∧
      ∀ blanks : List String, blanks.length + 1 = words.length → (∀ blank ∈ blanks, IsBlank blank) →
        ∃ us, tokenize (separated words blanks) = .ok us ∧ us.map face = ts.map face := by
  obtain ⟨front, q, rfl, hsegments⟩ := exists_segmented_of_tokenize h
  have hfront : Place.front.past [] = .front := rfl
  obtain ⟨words, hwords, hspells⟩ := hsegments.exists_words hfront String.ofList_toList
  have hend : (endMark q).span.slice? source = some "" := by
    have hbehind : String.ofList source.toList ++ ("" ++ "") = source := by simp
    rw [hsegments.marked.1]
    exact (covers_endMark source.toList rfl).slice?_eq hbehind
  refine ⟨words ++ [""], ?_, fun blanks hlength hblanks => ?_⟩
  · rw [List.map_append, List.map_append, hwords, List.map_singleton, hend]
    rfl
  · have hnothing : ∀ c ∈ ([] : List Char), isWhiteSpace c = true := nofun
    obtain ⟨us, q', hus, hfaces⟩ :=
      exists_segmented_separated hspells (by simpa using hlength) hblanks hnothing .front
    refine ⟨us ++ [endMark q'], ?_, ?_⟩
    · exact hus.tokens_eq
    · rw [List.map_append, List.map_append, hfaces]
      rfl

def packed : String := "2nd!3==\"#\n\"&"

theorem tokenize_separated_packed :
    tokenize packed = .ok [⟨.identifier, "2nd", ⟨0, 3, 1, 0, 1⟩⟩, ⟨.unknown, "!", ⟨3, 4, 1, 3, 1⟩⟩,
      ⟨.integer, "3", ⟨4, 5, 1, 4, 1⟩⟩, ⟨.equalEqual, "==", ⟨5, 7, 1, 5, 1⟩⟩,
      ⟨.string, "#\n", ⟨7, 11, 1, 7, 2⟩⟩, ⟨.unknown, "&", ⟨11, 12, 2, 1, 2⟩⟩,
      ⟨.eof, "", ⟨12, 12, 2, 2, 2⟩⟩] ∧
    ∃ us, tokenize "2nd\n!\t3 \u00a0== \"#\n\"\u2003&\r" = .ok us ∧
      us.map face = [(.identifier, "2nd"), (.unknown, "!"), (.integer, "3"), (.equalEqual, "=="),
        (.string, "#\n"), (.unknown, "&"), (.eof, "")] := by
  have h : tokenize packed = .ok [⟨.identifier, "2nd", ⟨0, 3, 1, 0, 1⟩⟩,
      ⟨.unknown, "!", ⟨3, 4, 1, 3, 1⟩⟩, ⟨.integer, "3", ⟨4, 5, 1, 4, 1⟩⟩,
      ⟨.equalEqual, "==", ⟨5, 7, 1, 5, 1⟩⟩, ⟨.string, "#\n", ⟨7, 11, 1, 7, 2⟩⟩,
      ⟨.unknown, "&", ⟨11, 12, 2, 1, 2⟩⟩, ⟨.eof, "", ⟨12, 12, 2, 2, 2⟩⟩] := by cbv
  obtain ⟨words, hwords, hseparated⟩ := tokenize_separated h
  have hslices : [(Span.mk 0 3 1 0 1), ⟨3, 4, 1, 3, 1⟩, ⟨4, 5, 1, 4, 1⟩, ⟨5, 7, 1, 5, 1⟩, ⟨7, 11, 1, 7, 2⟩,
      ⟨11, 12, 2, 1, 2⟩, ⟨12, 12, 2, 2, 2⟩].map (·.slice? packed) =
      ["2nd", "!", "3", "==", "\"#\n\"", "&", ""].map some := by cbv
  obtain rfl : ["2nd", "!", "3", "==", "\"#\n\"", "&", ""] = words :=
    Function.Injective.list_map (Option.some_injective _) (hslices.symm.trans hwords)
  have hblanks : ∀ blank ∈ ["\n", "\t", " \u00a0", " ", "\u2003", "\r"], IsBlank blank := by
    simp [IsBlank]
    decide
  exact ⟨h, hseparated ["\n", "\t", " \u00a0", " ", "\u2003", "\r"] rfl hblanks⟩

end Token

end IntScript
