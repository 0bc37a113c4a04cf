import IntScript.Proofs.Token.Reached
import IntScript.Proofs.Token.Tiling

/-!
# String literals

Read from the opening quote on, a backslash takes the next character with it. The first quote that is not
taken so closes the literal, and what it encloses denotes a text (`nextToken_literal`). Every text is denoted
by a literal: the one in which a backslash stands before each of its quotes and backslashes.
-/

namespace IntScript.Token

/-- Whether a backslash at the end of these characters takes the next one with it. -/
def takesNext (cs : List Char) : Bool := cs.foldl (fun taken c => !taken && c == '\\') false

/-- The first quote that no backslash takes with it stands behind `inner`. -/
structure Closes (cs inner rest : List Char) : Prop where
  split : inner ++ '"' :: rest = cs
  free : takesNext inner = false
  first : ∀ before after, before ++ '"' :: after = inner → takesNext before = true

def denoted : List Char → List Char
  | [] => []
  | '\\' :: 'n' :: cs => '\n' :: denoted cs
  | '\\' :: 't' :: cs => '\t' :: denoted cs
  | '\\' :: c :: cs => c :: denoted cs
  | c :: cs => c :: denoted cs

/-- A backslash before each quote and each backslash. -/
def shielded (cs : List Char) : List Char := cs.flatMap fun c => if c = '"' ∨ c = '\\' then ['\\', c] else [c]

section Characters

variable {c : Char} {cs inner rest text taken : List Char}

theorem takesNext_cons (h : c ≠ '\\') (cs : List Char) : takesNext (c :: cs) = takesNext cs := by
  have hc : (c == '\\') = false := beq_eq_false_iff_ne.2 h
  simp [takesNext, hc]

theorem denoted_pair (c : Char) (cs : List Char) : denoted ('\\' :: c :: cs) = unescape c :: denoted cs := by
  unfold unescape
  split
  · rfl
  · rfl
  next hn ht => exact denoted.eq_4 c cs hn ht

theorem denoted_cons (h : c ≠ '\\') (cs : List Char) : denoted (c :: cs) = c :: denoted cs :=
  denoted.eq_5 c cs (fun _ hc _ => h hc) (fun _ hc _ => h hc) fun _ _ hc _ => h hc

theorem not_closes_nil : ¬ Closes [] inner rest := by
  intro h
  simpa using h.split

theorem not_closes_backslash : ¬ Closes ['\\'] inner rest := by
  intro h
  cases inner with
  | nil => simpa using h.split
  | cons c inner => simpa using h.split

theorem closes_quote_iff : Closes ('"' :: cs) inner rest ↔ inner = [] ∧ rest = cs := by
  constructor
  · rintro ⟨hsplit, hfree, hfirst⟩
    cases inner with
    | nil => exact ⟨rfl, (List.cons.inj hsplit).2⟩
    | cons c inner =>
      obtain ⟨rfl, -⟩ := List.cons.inj hsplit
      exact absurd (hfirst [] inner rfl) (by decide)
  · rintro ⟨rfl, rfl⟩
    exact ⟨rfl, rfl, by simp⟩

theorem closes_pair_iff : Closes ('\\' :: c :: cs) inner rest ↔
    ∃ inner', inner = '\\' :: c :: inner' ∧ Closes cs inner' rest := by
  constructor
  · rintro ⟨hsplit, hfree, hfirst⟩
    obtain _ | ⟨b, _ | ⟨d, inner⟩⟩ := inner
    · simp at hsplit
    · -- The quote is the character that the backslash takes.
      obtain ⟨rfl, -⟩ := List.cons.inj hsplit
      exact absurd hfree (by decide)
    · simp only [List.cons_append, List.cons.injEq] at hsplit
      obtain ⟨rfl, rfl, rfl⟩ := hsplit
      refine ⟨inner, rfl, rfl, hfree, fun before after h => ?_⟩
      exact hfirst ('\\' :: d :: before) after (by rw [← h]; rfl)
  · rintro ⟨inner, rfl, rfl, hfree, hfirst⟩
    refine ⟨rfl, hfree, fun before after h => ?_⟩
    obtain _ | ⟨b, _ | ⟨d, before⟩⟩ := before
    · simp at h
    · obtain ⟨rfl, -⟩ := List.cons.inj h
      rfl
    · simp only [List.cons_append, List.cons.injEq] at h
      obtain ⟨rfl, rfl, h⟩ := h
      exact hfirst before after h

theorem closes_cons_iff (hquote : c ≠ '"') (hbackslash : c ≠ '\\') : Closes (c :: cs) inner rest ↔
    ∃ inner', inner = c :: inner' ∧ Closes cs inner' rest := by
  constructor
  · rintro ⟨hsplit, hfree, hfirst⟩
    cases inner with
    | nil => exact absurd (List.cons.inj hsplit).1.symm hquote
    | cons d inner =>
      obtain ⟨rfl, rfl⟩ := List.cons.inj hsplit
      rw [takesNext_cons hbackslash] at hfree
      refine ⟨inner, rfl, rfl, hfree, fun before after h => ?_⟩
      rw [← takesNext_cons hbackslash before]
      exact hfirst (d :: before) after (by rw [← h]; rfl)
  · rintro ⟨inner, rfl, rfl, hfree, hfirst⟩
    refine ⟨rfl, (takesNext_cons hbackslash inner).trans hfree, fun before after h => ?_⟩
    cases before with
    | nil => exact absurd (List.cons.inj h).1.symm hquote
    | cons d before =>
      obtain ⟨rfl, hinner⟩ := List.cons.inj h
      rw [takesNext_cons hbackslash]
      exact hfirst before after hinner

/-- The loop that reads a string finds the quote that closes it and what it encloses. -/
theorem closeString_eq_some_iff : closeString cs = some (text, taken, rest) ↔
    ∃ inner, Closes cs inner rest ∧ text = denoted inner ∧ taken = inner ++ ['"'] := by
  fun_induction closeString cs generalizing text taken with
  | case1 => simp [not_closes_nil]
  | case2 cs =>
    constructor
    · rintro ⟨⟩
      exact ⟨[], closes_quote_iff.2 ⟨rfl, rfl⟩, rfl, rfl⟩
    · rintro ⟨inner, hcloses, rfl, rfl⟩
      obtain ⟨rfl, rfl⟩ := closes_quote_iff.1 hcloses
      rfl
  | case3 => simp [not_closes_backslash]
  | case4 c cs ih =>
    rw [Option.map_eq_some_iff]
    constructor
    · rintro ⟨⟨text, taken, rest⟩, hcs, ⟨⟩⟩
      obtain ⟨inner, hcloses, rfl, rfl⟩ := ih.1 hcs
      exact ⟨_, closes_pair_iff.2 ⟨inner, rfl, hcloses⟩, (denoted_pair c inner).symm, rfl⟩
    · rintro ⟨_, hcloses, rfl, rfl⟩
      obtain ⟨inner, rfl, hcs⟩ := closes_pair_iff.1 hcloses
      rw [denoted_pair]
      exact ⟨_, ih.2 ⟨inner, hcs, rfl, rfl⟩, rfl⟩
  | case5 c cs hquote hend hescape ih =>
    have hbackslash := ne_backslash hend hescape
    rw [Option.map_eq_some_iff]
    constructor
    · rintro ⟨⟨text, taken, rest⟩, hcs, ⟨⟩⟩
      obtain ⟨inner, hcloses, rfl, rfl⟩ := ih.1 hcs
      exact ⟨_, (closes_cons_iff hquote hbackslash).2 ⟨inner, rfl, hcloses⟩,
        (denoted_cons hbackslash inner).symm, rfl⟩
    · rintro ⟨_, hcloses, rfl, rfl⟩
      obtain ⟨inner, rfl, hcs⟩ := (closes_cons_iff hquote hbackslash).1 hcloses
      rw [denoted_cons hbackslash]
      exact ⟨_, ih.2 ⟨inner, hcs, rfl, rfl⟩, rfl⟩

theorem closeString_eq_none (h : ¬ ∃ inner rest, Closes cs inner rest) : closeString cs = none := by
  cases hclose : closeString cs with
  | none => rfl
  | some found =>
    obtain ⟨inner, hcloses, -⟩ := closeString_eq_some_iff.1 hclose
    exact absurd ⟨inner, _, hcloses⟩ h

theorem closes_shielded (cs rest : List Char) : Closes (shielded cs ++ '"' :: rest) (shielded cs) rest ∧
    denoted (shielded cs) = cs := by
  induction cs with
  | nil => exact ⟨closes_quote_iff.2 ⟨rfl, rfl⟩, rfl⟩
  | cons c cs ih =>
    obtain ⟨hcloses, hdenoted⟩ := ih
    rw [shielded, List.flatMap_cons, ← shielded]
    by_cases hc : c = '"' ∨ c = '\\'
    · rw [if_pos hc]
      refine ⟨closes_pair_iff.2 ⟨_, rfl, hcloses⟩, ?_⟩
      obtain rfl | rfl := hc
      · exact congrArg _ hdenoted
      · exact congrArg _ hdenoted
    · rw [if_neg hc]
      obtain ⟨hquote, hbackslash⟩ := not_or.1 hc
      exact ⟨(closes_cons_iff hquote hbackslash).2 ⟨_, rfl, hcloses⟩,
        (denoted_cons hbackslash _).trans (congrArg _ hdenoted)⟩

end Characters

section Streams

variable {source : String} {s : Stream} {p : Place} {b : Bool} {skipped inner rest after : List Char}

def literal (inner : List Char) (p : Place) : Token :=
  ofPiece ⟨.string, denoted inner, '"' :: (inner ++ ['"']), []⟩ p (p.past ('"' :: (inner ++ ['"'])))

theorem nextToken_closes (hgap : Gap skipped ('"' :: rest)) (h : Closes rest inner after) :
    Stream.nextToken ⟨p, skipped ++ '"' :: rest, b⟩ = (.ok (literal inner (p.past skipped)),
      ⟨(p.past skipped).past ('"' :: (inner ++ ['"'])), after, b⟩) := by
  have hread : readPiece '"' rest = some ⟨.string, denoted inner, '"' :: (inner ++ ['"']), after⟩ := by
    rw [readPiece, if_pos rfl, closeString_eq_some_iff.2 ⟨inner, h, rfl, rfl⟩]
    rfl
  exact nextToken_token hgap (segment_readPiece hread)

theorem Stream.Reached.closed (h : Reached source ⟨p, skipped ++ '"' :: rest, b⟩)
    (hgap : Gap skipped ('"' :: rest)) (hcloses : Closes rest inner after) {ts : List Token}
    (hts : tokenize source = .ok ts) : literal inner (p.past skipped) ∈ ts := by
  obtain ⟨rfl, us, htokens⟩ := h.going (by simp)
  rw [htokens, Stream.tokens_eq, nextToken_closes hgap hcloses] at hts
  dsimp only at hts
  rw [if_neg Bool.false_ne_true] at hts
  cases hrest : Stream.tokens ⟨(p.past skipped).past ('"' :: (inner ++ ['"'])), after, false⟩ with
  | error e =>
    rw [hrest] at hts
    cases hts
  | ok vs =>
    rw [hrest] at hts
    cases hts
    simp

theorem Stream.Reached.unclosed (h : Reached source ⟨p, skipped ++ '"' :: rest, b⟩)
    (hgap : Gap skipped ('"' :: rest)) (hopen : ¬ ∃ inner after, Closes rest inner after) :
    (Stream.nextToken ⟨p, skipped ++ '"' :: rest, b⟩).1 =
        .error (.unterminatedString (p.past skipped).line (p.past skipped).column) ∧
      tokenize source = .error (.unterminatedString (p.past skipped).line (p.past skipped).column) := by
  obtain ⟨-, us, htokens⟩ := h.going (by simp)
  have hunclosed : Unclosed rest := closeString_eq_none_iff.1 (closeString_eq_none hopen)
  rw [htokens, Stream.tokens_eq, nextToken_unclosed hgap hunclosed]
  exact ⟨rfl, rfl⟩

theorem tokenize_shielded (text : String) :
    tokenize ("\"" ++ .ofList (shielded text.toList) ++ "\"") = .ok [literal (shielded text.toList) .front,
      endMark (Place.front.past ('"' :: (shielded text.toList ++ ['"'])))] := by
  have htext : ("\"" ++ .ofList (shielded text.toList) ++ "\"").toList =
      [] ++ '"' :: (shielded text.toList ++ ['"']) := by simp
  have hgap : Gap [] ('"' :: (shielded text.toList ++ ['"'])) := by
    refine .done fun c hc => ?_
    obtain rfl : '"' = c := by simpa using hc
    decide
  have hcloses := (closes_shielded text.toList []).1
  rw [tokenize, Stream.ofString, htext, Stream.tokens_eq, nextToken_closes hgap hcloses]
  dsimp only
  rw [if_neg Bool.false_ne_true, Stream.tokens_nil]
  rfl

/-- A string that begins where a stream stands ends at the first quote that no backslash takes, and denotes
what it encloses; if there is none, it is reported where it begins. And every text has a literal. -/
theorem nextToken_literal :
    (∀ (source : String) (s : Stream) (skipped rest : List Char), s.Reached source →
      s.rest = skipped ++ '"' :: rest → Gap skipped ('"' :: rest) →
      ∃ before : List Char, before ++ '"' :: rest = source.toList ∧
        (∀ inner after, Closes rest inner after → ∃ t s', s.nextToken = (.ok t, s') ∧ s'.rest = after ∧
          t.kind = .string ∧ t.lexeme = .ofList (denoted inner) ∧
          t.span.Covers (.ofList before) (.ofList ('"' :: (inner ++ ['"']))) ∧
          ∀ ts, tokenize source = .ok ts → t ∈ ts) ∧
        ((¬ ∃ inner after, Closes rest inner after) →
          s.nextToken.1 = .error (.unterminatedString (1 + before.count '\n') (columnBehind before)) ∧
          tokenize source =
            .error (.unterminatedString (1 + before.count '\n') (columnBehind before)))) ∧
    ∀ text : String, ∃ t mark : Token,
      tokenize ("\"" ++ .ofList (shielded text.toList) ++ "\"") = .ok [t, mark] ∧
        t.kind = .string ∧ t.lexeme = text ∧ mark.kind = .eof := by
  constructor
  · rintro source ⟨p, cs, b⟩ skipped rest hreached rfl hgap
    obtain ⟨front, hfront, rfl⟩ := hreached.stands
    have hplace := Place.past_front (front ++ skipped)
    rw [Place.past_append] at hplace
    refine ⟨front ++ skipped, by rw [← hfront, List.append_assoc], ?_, ?_⟩
    · intro inner after hcloses
      exact ⟨_, _, nextToken_closes hgap hcloses, rfl, rfl, rfl,
        covers_ofPiece _ _ (Place.past_append ..), fun ts => hreached.closed hgap hcloses⟩
    · intro hopen
      have herror := hreached.unclosed hgap hopen
      rwa [hplace] at herror
  · intro text
    refine ⟨_, _, tokenize_shielded text, rfl, ?_, rfl⟩
    rw [literal, ofPiece, (closes_shielded text.toList []).2, String.ofList_toList]

theorem nextToken_literal_backslashes :
    (∃ t s, (Stream.ofString "\"\\\\\\\"\" \"\\").nextToken = (.ok t, s) ∧ t.lexeme = "\\\"" ∧
      s.nextToken.1 = .error (.unterminatedString 1 7)) ∧
    tokenize "\"\\\\\\\"\" \"\\" = .error (.unterminatedString 1 7) ∧
    ∃ t mark, tokenize "\"\\\\\\\"\"" = .ok [t, mark] ∧ t.lexeme = "\\\"" := by
  have hquote (cs : List Char) : Gap [] ('"' :: cs) := .done fun c hc => by cases hc; decide
  have hinner : Closes ['\\', '\\', '\\', '"', '"', ' ', '"', '\\'] ['\\', '\\', '\\', '"']
      [' ', '"', '\\'] :=
    closes_pair_iff.2 ⟨_, rfl, closes_pair_iff.2 ⟨_, rfl, closes_quote_iff.2 ⟨rfl, rfl⟩⟩⟩
  have hopen : ¬ ∃ inner after, Closes ['\\'] inner after := fun ⟨_, _, h⟩ => not_closes_backslash h
  obtain ⟨hliteral, htext⟩ := nextToken_literal
  obtain ⟨_, -, hclosed, -⟩ := hliteral "\"\\\\\\\"\" \"\\" _ [] _ .start (by cbv) (hquote _)
  obtain ⟨t, s, hnext, hrest, -, hlexeme, -⟩ := hclosed _ _ hinner
  have hreached : s.Reached "\"\\\\\\\"\" \"\\" := by
    have hcall := (Stream.Reached.start : (Stream.ofString "\"\\\\\\\"\" \"\\").Reached _).call
    rwa [hnext] at hcall
  obtain ⟨before, hbefore, -, hunclosed⟩ := hliteral _ s [' '] ['\\'] hreached hrest
    (.blank (by decide) (hquote _))
  obtain ⟨hfails, htokens⟩ := hunclosed hopen
  obtain rfl : before = ['"', '\\', '\\', '\\', '"', '"', ' '] :=
    List.append_cancel_right (hbefore.trans (by cbv))
  obtain ⟨u, mark, hu, -, hdenotes, -⟩ := htext "\\\""
  have hwritten : "\"" ++ .ofList (shielded "\\\"".toList) ++ "\"" = "\"\\\\\\\"\"" := by cbv
  rw [hwritten] at hu
  exact ⟨⟨t, s, hnext, hlexeme, hfails⟩, htokens, u, mark, hu, hdenotes⟩

end Streams

end IntScript.Token
