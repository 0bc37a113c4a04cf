import IntScript.Proofs.Token.Glyph
import IntScript.Token.Stream
import Mathlib.Algebra.GroupWithZero.Nat

/-!
# Pages of tokens

A page is a list of rows, each indented and with a blank behind every glyph. Its text has the tokens of
its glyphs, each where it was written, and an end mark behind them.
-/

namespace IntScript

open Token Text

theorem Place.past_oneLine {cs : List Char} (h : '\n' ∉ cs) (p : Place) :
    (p.past cs).line = p.line ∧ (p.past cs).column = p.column + cs.length := by
  induction cs generalizing p with
  | nil => exact ⟨rfl, rfl⟩
  | cons c cs ih =>
    have hc : c ≠ '\n' := fun hc => h (by simp [hc])
    have hstep : (p.step c).line = p.line ∧ (p.step c).column = p.column + 1 := by
      simp [Place.step, hc]
    obtain ⟨hline, hcolumn⟩ := ih (fun hcs => h (by simp [hcs])) (p.step c)
    rw [Place.past_cons, hline, hcolumn, hstep.1, hstep.2, List.length_cons]
    exact ⟨rfl, by omega⟩

theorem Place.line_le_past (cs : List Char) (p : Place) : p.line ≤ (p.past cs).line := by
  induction cs generalizing p with
  | nil => exact Nat.le_refl _
  | cons c cs ih =>
    have hstep : p.line ≤ (p.step c).line := by
      rw [Place.step]
      split
      · exact p.line.le_succ
      · exact Nat.le_refl _
    rw [Place.past_cons]
    exact Nat.le_trans hstep (ih _)

namespace Glyph

def width (gs : List Glyph) : Nat := (gs.map fun g => g.spelling.length + 1).sum

def chars : List Glyph → List Char
  | [] => []
  | g :: gs => g.spelling ++ ' ' :: chars gs

def token (g : Glyph) (p : Place) : Token :=
  ofPiece ⟨g.kind, g.lexeme, g.spelling, []⟩ p (p.past g.spelling)

def tokens : Place → List Glyph → List Token
  | _, [] => []
  | p, g :: gs => g.token p :: tokens ((p.past g.spelling).step ' ') gs

variable {g : Glyph} {gs hs : List Glyph} {p : Place}

@[simp] theorem token_kind : (g.token p).kind = g.kind := rfl

@[simp] theorem token_column : (g.token p).span.column = p.column := rfl

@[simp] theorem tokens_nil : tokens p [] = [] := rfl

@[simp] theorem tokens_cons :
    tokens p (g :: gs) = g.token p :: tokens ((p.past g.spelling).step ' ') gs := rfl

@[simp] theorem chars_append : chars (gs ++ hs) = chars gs ++ chars hs := by
  induction gs with
  | nil => rfl
  | cons g gs ih => simp [chars, ih]

theorem tokens_append : tokens p (gs ++ hs) = tokens p gs ++ tokens (p.past (chars gs)) hs := by
  induction gs generalizing p with
  | nil => rfl
  | cons g gs ih => simp [tokens, chars, ih, Place.past_append]

theorem token_line (h : g.Legible) :
    (g.token p).span.line = p.line ∧ (g.token p).span.endLine = p.line :=
  ⟨rfl, (Place.past_oneLine h.oneLine p).1⟩

theorem behind_oneLine (h : g.Legible) : ((p.past g.spelling).step ' ').line = p.line ∧
    ((p.past g.spelling).step ' ').column = p.column + (g.spelling.length + 1) := by
  obtain ⟨hline, hcolumn⟩ := Place.past_oneLine h.oneLine p
  simp [Place.step, hline, hcolumn, Nat.add_assoc]

theorem past_chars (h : ∀ g ∈ gs, g.Legible) :
    (p.past (chars gs)).line = p.line ∧ (p.past (chars gs)).column = p.column + width gs := by
  induction gs generalizing p with
  | nil => exact ⟨rfl, rfl⟩
  | cons g gs ih =>
    obtain ⟨hline, hcolumn⟩ := behind_oneLine (p := p) (h g (by simp))
    obtain ⟨hline', hcolumn'⟩ :=
      ih (p := (p.past g.spelling).step ' ') fun g hg => h g (by simp [hg])
    rw [chars, Place.past_append, Place.past_cons, hline', hcolumn', hline, hcolumn]
    simp [width, Nat.add_assoc]

theorem line_of_mem_tokens (h : ∀ g ∈ gs, g.Legible) {t : Token} (ht : t ∈ tokens p gs) :
    t.span.line = p.line ∧ t.span.endLine = p.line := by
  induction gs generalizing p with
  | nil => cases ht
  | cons g gs ih =>
    rcases List.mem_cons.1 ht with rfl | ht
    · exact token_line (h g (by simp))
    · have hbehind := (behind_oneLine (p := p) (h g (by simp))).1
      rw [← hbehind]
      exact ih (fun g hg => h g (by simp [hg])) ht

end Glyph

/-- A line: how far it is indented, and what stands on it. -/
structure Row where
  indent : Nat
  glyphs : List Glyph

namespace Row

def chars (r : Row) : List Char := List.replicate r.indent ' ' ++ (Glyph.chars r.glyphs ++ ['\n'])

def start (r : Row) (p : Place) : Place := p.past (List.replicate r.indent ' ')

def tokens : Place → List Row → List Token
  | _, [] => []
  | p, r :: rs => Glyph.tokens (r.start p) r.glyphs ++ tokens (p.past r.chars) rs

variable {r : Row} {rs ss : List Row} {p : Place}

theorem tokens_append :
    tokens p (rs ++ ss) = tokens p rs ++ tokens (p.past (rs.flatMap chars)) ss := by
  induction rs generalizing p with
  | nil => rfl
  | cons r rs ih => simp [tokens, ih, Place.past_append]

theorem start_line (r : Row) (p : Place) :
    (r.start p).line = p.line ∧ (r.start p).column = p.column + r.indent := by
  have hblank : '\n' ∉ List.replicate r.indent ' ' := by
    simp [List.mem_replicate]
  have hpast := Place.past_oneLine hblank p
  rwa [List.length_replicate] at hpast

theorem past_chars (h : ∀ g ∈ r.glyphs, g.Legible) :
    (p.past r.chars).line = p.line + 1 ∧ (p.past r.chars).column = 0 := by
  have hglyphs := (Glyph.past_chars (p := r.start p) h).1
  have hstart := (start_line r p).1
  rw [chars, Place.past_append, Place.past_append]
  constructor
  · simp only [Place.past_cons, Place.past_nil, Place.step, if_true]
    rw [← hstart, ← hglyphs, start]
  · rfl

theorem past_rows_column (hp : p.column = 0) : (p.past (rs.flatMap chars)).column = 0 := by
  induction rs generalizing p with
  | nil => exact hp
  | cons r rs ih =>
    rw [List.flatMap_cons, Place.past_append]
    apply ih
    rw [chars, Place.past_append, Place.past_append]
    rfl

theorem line_of_mem_tokens (h : ∀ r ∈ rs, ∀ g ∈ r.glyphs, g.Legible) {t : Token}
    (ht : t ∈ tokens p rs) :
    p.line ≤ t.span.line ∧ t.span.endLine < (p.past (rs.flatMap chars)).line := by
  induction rs generalizing p with
  | nil => cases ht
  | cons r rs ih =>
    have hnext := (past_chars (p := p) (h r (by simp))).1
    rw [List.flatMap_cons, Place.past_append]
    rcases List.mem_append.1 ht with ht | ht
    · obtain ⟨hline, hendLine⟩ := Glyph.line_of_mem_tokens (h r (by simp)) ht
      have hstart := (start_line r p).1
      have hrest := Place.line_le_past (rs.flatMap chars) (p.past r.chars)
      omega
    · obtain ⟨hline, hendLine⟩ := ih (fun r hr => h r (by simp [hr])) ht
      exact ⟨by omega, hendLine⟩

end Row

namespace Token.Stream

variable {p : Place} {cs rest : List Char} {ts : List Token}

theorem tokens_eq (s : Stream) : s.tokens = match s.nextToken with
    | (.error e, _) => .error e
    | (.ok t, s') => if s'.ended then .ok [t] else s'.tokens.map (t :: ·) := by
  rw [tokens]
  split
  next h => simp only [h]
  next t s' h =>
    simp only [h]
    split
    · rfl
    · cases s'.tokens <;> rfl

theorem tokens_nil : tokens ⟨p, [], false⟩ = .ok [endMark p] := by
  rw [tokens_eq]
  rfl

theorem tokens_skip {c : Char} (hc : isWhiteSpace c = true) :
    tokens ⟨p, c :: cs, false⟩ = tokens ⟨p.step c, cs, false⟩ := by
  have hhash : (c == '#') = false := by
    rw [beq_eq_false_iff_ne]
    rintro rfl
    exact absurd hc (by decide)
  have hnext : nextToken ⟨p, c :: cs, false⟩ = nextToken ⟨p.step c, cs, false⟩ := by
    simp [nextToken, splitTrivia, hhash, hc]
  rw [tokens_eq, tokens_eq ⟨p.step c, cs, false⟩, hnext]

theorem tokens_glyph {g : Glyph} (hg : g.Legible) (hrest : Breaks rest)
    (h : tokens ⟨p.past g.spelling, rest, false⟩ = .ok ts) :
    tokens ⟨p, g.spelling ++ rest, false⟩ = .ok (g.token p :: ts) := by
  obtain ⟨c, cs, hspelling, ⟨hwhite, hhash⟩, hread⟩ := hg.readPiece hrest
  have htrivia : splitTrivia false (g.spelling ++ rest) = ([], c :: (cs ++ rest)) := by
    rw [hspelling]
    simp [splitTrivia, hwhite, hhash]
  have hnext : nextToken ⟨p, g.spelling ++ rest, false⟩ =
      (.ok (g.token p), ⟨p.past g.spelling, rest, false⟩) := by
    simp only [nextToken, htrivia, hread]
    rfl
  rw [tokens_eq, hnext]
  dsimp only
  rw [if_neg (by decide), h]
  rfl

theorem tokens_glyphs {gs : List Glyph} (hgs : ∀ g ∈ gs, g.Legible)
    (h : tokens ⟨p.past (Glyph.chars gs), rest, false⟩ = .ok ts) :
    tokens ⟨p, Glyph.chars gs ++ rest, false⟩ = .ok (Glyph.tokens p gs ++ ts) := by
  induction gs generalizing p with
  | nil => exact h
  | cons g gs ih =>
    rw [Glyph.chars, Place.past_append, Place.past_cons] at h
    have htail := ih (fun g hg => hgs g (by simp [hg])) h
    rw [Glyph.chars, List.append_assoc, List.cons_append]
    apply tokens_glyph (hgs g (by simp))
    · intro c hc
      cases hc
      decide
    · rw [tokens_skip (by decide)]
      exact htail

theorem tokens_blanks (n : Nat) : tokens ⟨p, List.replicate n ' ' ++ cs, false⟩ =
    tokens ⟨p.past (List.replicate n ' '), cs, false⟩ := by
  induction n generalizing p with
  | zero => rfl
  | succ n ih =>
    rw [List.replicate_succ, List.cons_append, tokens_skip (by decide), ih]
    rfl

theorem tokens_rows {rs : List Row} (hrs : ∀ r ∈ rs, ∀ g ∈ r.glyphs, g.Legible) :
    tokens ⟨p, rs.flatMap Row.chars, false⟩ =
      .ok (Row.tokens p rs ++ [endMark (p.past (rs.flatMap Row.chars))]) := by
  induction rs generalizing p with
  | nil => exact tokens_nil
  | cons r rs ih =>
    have hrest := ih (p := p.past r.chars) fun r hr => hrs r (by simp [hr])
    have hplace : p.past r.chars = ((r.start p).past (Glyph.chars r.glyphs)).step '\n' := by
      rw [Row.chars, Place.past_append, Place.past_append]
      rfl
    rw [List.flatMap_cons, Place.past_append, Row.tokens, List.append_assoc]
    rw [hplace] at hrest ⊢
    rw [Row.chars, List.append_assoc, List.append_assoc, tokens_blanks, List.singleton_append]
    apply tokens_glyphs (hrs r (by simp))
    rw [tokens_skip (by decide)]
    exact hrest

end Token.Stream

theorem Token.tokenize_rows {rs : List Row} (hrs : ∀ r ∈ rs, ∀ g ∈ r.glyphs, g.Legible) :
    tokenize (String.ofList (rs.flatMap Row.chars)) =
      .ok (Row.tokens .front rs ++ [endMark (Place.front.past (rs.flatMap Row.chars))]) := by
  unfold tokenize Stream.ofString
  rw [String.toList_ofList]
  exact Stream.tokens_rows hrs

end IntScript
