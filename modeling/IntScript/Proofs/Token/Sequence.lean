import IntScript.Proofs.Token.Joined
import Mathlib.Data.Stream.Init

/-!
# One sequence of answers

A stream may be asked in two ways, in any order and as often as one likes. Both ways go on in one sequence,
which the text determines: its tokens, an error if a string is left open, and the end mark for ever
(`session_ofString`). They differ only behind the first end mark, where one of them has no answer.
-/

namespace IntScript.Token.Stream

inductive Call where
  | next
  | nextToken

abbrev Answer := Except LexError Token

def Call.ask : Call → Stream → Option Answer × Stream
  | next, s => s.next
  | nextToken, s => (some s.nextToken.1, s.nextToken.2)

def session : List Call → Stream → List (Option Answer) × Stream
  | [], s => ([], s)
  | call :: calls, s =>
    ((call.ask s).1 :: (session calls (call.ask s).2).1, (session calls (call.ask s).2).2)

def ahead (s : Stream) : Stream' Answer := .corec' nextToken s

/-- Tokens, an error if there is one, and the end mark for ever. -/
def sequence (ts : List Token) (fault : Option LexError) (mark : Token) : Stream' Answer :=
  ts.map .ok ++ₛ (fault.toList.map .error ++ₛ .const (.ok mark))

variable {s : Stream} {call : Call}

theorem ahead_eq (s : Stream) : s.ahead = .cons s.nextToken.1 s.nextToken.2.ahead :=
  Stream'.corec'_eq nextToken s

theorem Call.ask_cases (call : Call) (s : Stream) :
    call = .next ∧ s.ended = true ∧ call.ask s = (none, s) ∨
      (call = .next → s.ended = false) ∧ call.ask s = (some s.nextToken.1, s.nextToken.2) := by
  cases call with
  | next =>
    cases hended : s.ended with
    | true => exact .inl ⟨rfl, rfl, by simp [ask, Stream.next, hended]⟩
    | false => exact .inr ⟨fun _ => rfl, by simp [ask, Stream.next, hended]⟩
  | nextToken => exact .inr ⟨nofun, rfl⟩

theorem Call.ask_eq_none_iff : (call.ask s).1 = none ↔ call = .next ∧ s.ended = true := by
  rcases call.ask_cases s with ⟨rfl, hended, hask⟩ | ⟨hgoing, hask⟩
  · simp [hask, hended]
  · rw [hask]
    constructor
    · nofun
    · rintro ⟨hnext, hended⟩
      rw [hgoing hnext] at hended
      cases hended

theorem session_ahead (calls : List Call) (s : Stream) :
    (session calls s).1.reduceOption = s.ahead.take (session calls s).1.reduceOption.length := by
  induction calls generalizing s with
  | nil => rfl
  | cons call calls ih =>
    rw [session]
    rcases call.ask_cases s with ⟨-, -, hask⟩ | ⟨-, hask⟩
    · rw [hask]
      exact ih s
    · rw [hask, List.reduceOption_cons_of_some, List.length_cons, Stream'.take_succ, ahead_eq,
        Stream'.head_cons, Stream'.tail_cons, ← ih]

theorem ended_nextToken (s : Stream) : s.nextToken.2.ended = true ↔
    s.ended = true ∨ ∃ t, s.nextToken.1 = .ok t ∧ t.kind = .eof := by
  obtain ⟨place, rest, ended⟩ := s
  obtain ⟨skipped, text, rfl, hgap⟩ : ∃ skipped text, skipped ++ text = rest ∧ Gap skipped text :=
    ⟨_, _, splitTrivia_append false rest, (gap_splitTrivia rest).1⟩
  cases text with
  | nil =>
    rw [List.append_nil, nextToken_finished hgap]
    simp [endMark]
  | cons c cs =>
    cases hpiece : readPiece c cs with
    | none =>
      obtain ⟨rfl, hunclosed⟩ := readPiece_eq_none_iff.1 hpiece
      rw [nextToken_unclosed hgap hunclosed]
      simp
    | some piece =>
      have hkind : piece.kind ≠ .eof := (regular_readPiece hpiece).inText
      rw [nextToken_token hgap (segment_readPiece hpiece)]
      simp [ofPiece, hkind]

theorem ended_session (calls : List Call) (s : Stream) : (session calls s).2.ended = true ↔
    s.ended = true ∨ ∃ t, some (.ok t) ∈ (session calls s).1 ∧ t.kind = .eof := by
  induction calls generalizing s with
  | nil => simp [session]
  | cons call calls ih =>
    rw [session]
    rcases call.ask_cases s with ⟨-, -, hask⟩ | ⟨-, hask⟩
    · simp [hask, ih]
    · rw [hask]
      simp only [ih, ended_nextToken, List.mem_cons, Option.some.injEq, or_and_right, exists_or, or_assoc,
        eq_comm (a := s.nextToken.1)]

theorem ahead_nil (p : Place) (b : Bool) : ahead ⟨p, [], b⟩ = .const (.ok (endMark p)) := by
  have hnext (b : Bool) : nextToken ⟨p, [], b⟩ = (.ok (endMark p), ⟨p, [], true⟩) := rfl
  refine Stream'.eq_of_bisim (fun s s' => (∃ b, s = ahead ⟨p, [], b⟩) ∧ s' = .const (.ok (endMark p)))
    ?_ ⟨⟨b, rfl⟩, rfl⟩
  rintro _ _ ⟨⟨b, rfl⟩, rfl⟩
  rw [ahead_eq, hnext]
  exact ⟨rfl, ⟨true, rfl⟩, rfl⟩

theorem exists_ahead_of_segmented {p : Place} {cs : List Char} {ts : List Token} {r : Answer}
    (h : Segmented p cs ts r) (b : Bool) : ∃ fault : Option LexError,
      r = fault.elim (.ok (endMark (p.past cs))) .error ∧
        ahead ⟨p, cs, b⟩ = sequence ts fault (endMark (p.past cs)) := by
  induction h with
  | @finished p cs hgap =>
    refine ⟨none, rfl, ?_⟩
    rw [ahead_eq, nextToken_finished hgap, ahead_nil, ← Stream'.const_eq]
    rfl
  | @unclosed p q cs skipped rest hcs hgap hq h =>
    subst hcs hq
    refine ⟨some _, rfl, ?_⟩
    rw [ahead_eq, nextToken_unclosed hgap h, ahead_nil, ← Place.past_append]
    rfl
  | @token p q cs skipped text piece ts r hcs hgap hq hpiece _ ih =>
    subst hcs hq
    obtain ⟨fault, hr, hrest⟩ := ih
    have hplace : ((p.past skipped).past piece.taken).past piece.rest = p.past (skipped ++ text) := by
      rw [← hpiece.split, Place.past_append, Place.past_append]
    rw [hplace] at hr hrest
    refine ⟨fault, hr, ?_⟩
    rw [ahead_eq, nextToken_token hgap hpiece, hrest]
    rfl

/-- A text has one sequence of answers, and reading the whole text gives the front of it up to the error or
the first end mark. Calls of either way are answered in the order of the sequence. One of the two ways has no
answer when the end mark was given before, the other one always has. -/
theorem session_ofString (source : String) :
    ∃ (ts : List Token) (fault : Option LexError) (mark : Token),
      (∀ t ∈ ts, t.kind ≠ .eof) ∧ mark.kind = .eof ∧
      tokenize source = fault.elim (.ok (ts ++ [mark])) .error ∧
      ∀ calls : List Call,
        let answers := (session calls (ofString source)).1
        answers.reduceOption = (sequence ts fault mark).take answers.reduceOption.length ∧
        ∀ call : Call, (call.ask (session calls (ofString source)).2).1 = none ↔
          call = .next ∧ ∃ t, some (.ok t) ∈ answers ∧ t.kind = .eof := by
  obtain ⟨ts, r, h⟩ := exists_segmented .front source.toList
  obtain ⟨fault, hr, hahead⟩ := exists_ahead_of_segmented h false
  refine ⟨ts, fault, endMark (Place.front.past source.toList), h.kind_ne_eof, rfl, ?_, fun calls => ⟨?_, fun call => ?_⟩⟩
  · have htokens : tokenize source = r.map fun last => ts ++ [last] := h.tokens_eq
    rw [htokens, hr]
    cases fault <;> rfl
  · rw [← hahead]
    exact session_ahead calls (ofString source)
  · rw [Call.ask_eq_none_iff, ended_session]
    simp [ofString]

end IntScript.Token.Stream
