import IntScript.Proofs.Grammar.Decimals
import IntScript.Run.Arithmetic
import Mathlib

/-!
# Words are read back

A program that prints words in decimal, with commas between them, shows just these decimals. The smallest
word is the exception, which no program can write in decimal.
-/

namespace IntScript

open IntScript.Action

theorem Word.negate_magnitude {w : Word} (hw : w ≠ Int64.minValue) (hsign : w.toInt < 0) :
    w.magnitude.negate = .ok w := by
  have hmagnitude : w.magnitude.toInt = w.toInt.natAbs := ofInt?_eq_some_iff.1 (ofInt?_natAbs hw)
  rw [negate, hmagnitude]
  apply checked_of_ofInt?
  rw [ofInt?_eq_some_iff]
  omega

namespace Run

variable {ω : Type} {body : Statement → Handle → Run ω Flow} {h : Handle} {w : Word}
  {ws : List Word}

theorem spaced_eq (ss : List String) : spaced ss = " ".intercalate ss := by
  induction ss with
  | nil => rfl
  | cons s ss ih =>
    cases ss with
    | nil => rw [spaced, String.intercalate_singleton]
    | cons t ts => rw [spaced, ih, String.intercalate_cons_cons]

theorem expression_word (hw : w ≠ Int64.minValue) :
    expression body h w.expression = pure w := by
  rw [Word.expression]
  split
  next hsign =>
    rw [expression, expression, pure_bind, Word.negate_magnitude hw hsign]
    rfl
  next hsign => rw [expression, Word.magnitude_of_nonneg (Int.not_lt.1 hsign)]

theorem item_word (hw : w ≠ Int64.minValue) :
    item body h w.expression = pure (toString w.toInt) := by
  have hitem : item body h w.expression = do
      let value ← expression body h w.expression
      return String.ofList value.decimal := by
    rw [Word.expression]
    split
    · rfl
    · rfl
  rw [hitem, expression_word hw, pure_bind, Word.ofList_decimal]

theorem items_words (hws : Int64.minValue ∉ ws) :
    items body h (ws.map Word.expression) = pure (Word.decimals ws) := by
  induction ws with
  | nil => rfl
  | cons w ws ih =>
    rw [List.mem_cons, not_or] at hws
    rw [List.map_cons, items, item_word (Ne.symm hws.1), ih hws.2, pure_bind, pure_bind]
    rfl

theorem program_print (budget : Nat) (hws : Int64.minValue ∉ ws) (t : Transcript) :
    program budget (.block [.print (ws.map Word.expression)]) (.fresh t) =
      some (.ok (), .fresh ⟨t.text ++ (" ".intercalate (Word.decimals ws) ++ "\n")⟩) := by
  have hprint : statement (Run.body budget) .global (.print (ws.map Word.expression)) (.fresh t) =
      some (.ok .proceed, .fresh ⟨t.text ++ (" ".intercalate (Word.decimals ws) ++ "\n")⟩) := by
    rw [statement, items_words hws, pure_bind, spaced_eq]
    rfl
  have hroot : root budget (.block [.print (ws.map Word.expression)]) (.fresh t) =
      some (.ok .proceed, .fresh ⟨t.text ++ (" ".intercalate (Word.decimals ws) ++ "\n")⟩) := by
    rw [root, statements]
    exact bind_eq_ok hprint
  rw [program, bind_eq_ok (modify_apply _ _)]
  exact bind_eq_ok hroot

end Run

theorem Statement.ofSource_of_tokenize {source : String} {ts : List Token}
    (h : Token.tokenize source = .ok ts) :
    ofSource source = (ofTokens ts).mapError Failure.parsing := by
  rw [ofSource, h]
  rfl

namespace Script

variable {budget : Nat} {source : String}

theorem output_of_error {e : Failure} (h : Statement.ofSource source = .error e) :
    output budget source = some (.error e) := by
  rw [output, run, h]
  rfl

theorem output_of_program {s : Statement} {m : Machine Transcript}
    (h : Statement.ofSource source = .ok s)
    (hrun : Run.program budget s (.fresh .empty) = some (.ok (), m)) :
    output budget source = some (.ok m.out.text) := by
  rw [output, run, h]
  dsimp only
  rw [hrun]
  rfl

/-- Words that a text prints in decimal are shown in decimal again. If the smallest word is one of them,
the text is malformed, for the literal without its sign is out of range. -/
theorem printed_words_read_back (budget : Nat) (ws : List Word) (hne : ws ≠ []) :
    (Int64.minValue ∉ ws →
      output budget ("print " ++ ", ".intercalate (Word.decimals ws)) =
        some (.ok (" ".intercalate (Word.decimals ws) ++ "\n"))) ∧
    (Int64.minValue ∈ ws → ∃ position,
      output budget ("print " ++ ", ".intercalate (Word.decimals ws)) =
        some (.error (.parsing ⟨.invalidIntegerLiteral "9223372036854775808", position⟩))) := by
  obtain ⟨t, ts, q, htokens, ht, hcolumn, hts, hline⟩ := Token.tokenize_print hne
  have hsource := Statement.ofSource_of_tokenize htokens
  have hmark : (Token.endMark q).kind = .eof := rfl
  obtain ⟨hreads, hrefuses⟩ := Statement.ofTokens_print ht hcolumn hts hline hmark
  constructor
  · intro hws
    rw [hreads hws] at hsource
    have hrun := Run.program_print budget hws .empty
    rw [output_of_program hsource hrun]
    exact congrArg (fun text => some (Except.ok text)) String.empty_append
  · intro hws
    obtain ⟨position, hstop⟩ := hrefuses hws
    rw [hstop] at hsource
    exact ⟨position, output_of_error hsource⟩

def edges : List Word := [9223372036854775807, 0, -9223372036854775807]

theorem printed_words_read_back_edges :
    output 0 "print 9223372036854775807, 0, -9223372036854775807" =
        some (.ok "9223372036854775807 0 -9223372036854775807\n") ∧
      ∃ position, output 0 "print 1, -9223372036854775808" =
        some (.error (.parsing ⟨.invalidIntegerLiteral "9223372036854775808", position⟩)) := by
  constructor
  · exact (printed_words_read_back 0 edges (List.cons_ne_nil _ _)).1 (by decide)
  · exact (printed_words_read_back 0 [1, Int64.minValue] (List.cons_ne_nil _ _)).2 (by decide)

end Script

end IntScript
