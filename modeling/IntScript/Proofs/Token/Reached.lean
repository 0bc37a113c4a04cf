import IntScript.Proofs.Token.Segments

/-!
# Streams that are being read

However often a stream was asked, it stands somewhere in its text: behind what was read, at the place that
counting there gives, with the rest of the text ahead. What it gives from there is the end of what the whole
text gives.
-/

namespace IntScript.Token

/-- A stream of the text that was asked any number of times. -/
inductive Stream.Reached (source : String) : Stream → Prop where
  | start : Reached source (.ofString source)
  | call {s : Stream} (h : Reached source s) : Reached source s.nextToken.2

namespace Stream

variable {source : String} {s : Stream}

theorem nextToken_moves (s : Stream) : ∃ r s' taken, s.nextToken = (r, s') ∧
    taken ++ s'.rest = s.rest ∧ s'.place = s.place.past taken ∧
    (s'.rest ≠ [] → s'.ended = s.ended ∧ ∃ t, r = .ok t) := by
  obtain ⟨place, rest, ended⟩ := s
  obtain ⟨skipped, text, rfl, hgap⟩ : ∃ skipped text, skipped ++ text = rest ∧ Gap skipped text :=
    ⟨_, _, splitTrivia_append false rest, (gap_splitTrivia rest).1⟩
  cases text with
  | nil =>
    rw [List.append_nil]
    exact ⟨_, _, skipped, nextToken_finished hgap, List.append_nil _, rfl, fun hne => absurd rfl hne⟩
  | cons c cs =>
    cases hpiece : readPiece c cs with
    | none =>
      obtain ⟨rfl, hunclosed⟩ := readPiece_eq_none_iff.1 hpiece
      exact ⟨_, _, _, nextToken_unclosed hgap hunclosed, List.append_nil _,
        (Place.past_append ..).symm, fun hne => absurd rfl hne⟩
    | some piece =>
      refine ⟨_, _, skipped ++ piece.taken, nextToken_token hgap (segment_readPiece hpiece), ?_,
        (Place.past_append ..).symm, fun _ => ⟨rfl, _, rfl⟩⟩
      rw [List.append_assoc, readPiece_append hpiece]

namespace Reached

theorem stands (h : Reached source s) :
    ∃ front, front ++ s.rest = source.toList ∧ s.place = Place.front.past front := by
  induction h with
  | start => exact ⟨[], rfl, rfl⟩
  | @call s _ ih =>
    obtain ⟨front, hfront, hplace⟩ := ih
    obtain ⟨r, s', taken, hnext, htaken, hmoves, -⟩ := s.nextToken_moves
    rw [hnext]
    refine ⟨front ++ taken, ?_, ?_⟩
    · rw [List.append_assoc, htaken, hfront]
    · rw [hmoves, hplace, Place.past_append]

theorem going (h : Reached source s) (hrest : s.rest ≠ []) :
    s.ended = false ∧ ∃ us, tokenize source = s.tokens.map (us ++ ·) := by
  induction h with
  | start =>
    refine ⟨rfl, [], ?_⟩
    rw [tokenize]
    cases (ofString source).tokens <;> rfl
  | @call s _ ih =>
    obtain ⟨r, s', taken, hnext, htaken, -, hgoes⟩ := s.nextToken_moves
    rw [hnext] at hrest ⊢
    obtain ⟨hended, t, rfl⟩ := hgoes hrest
    have hbefore : s.rest ≠ [] := by
      rw [← htaken]
      exact List.append_ne_nil_of_right_ne_nil taken hrest
    obtain ⟨hbegan, us, htokens⟩ := ih hbefore
    refine ⟨hended.trans hbegan, us ++ [t], ?_⟩
    rw [htokens, tokens_eq, hnext]
    dsimp only
    rw [hended, hbegan, if_neg Bool.false_ne_true]
    cases s'.tokens with
    | error e => rfl
    | ok ts => simp [Except.map]

end Reached

end Stream

end IntScript.Token
