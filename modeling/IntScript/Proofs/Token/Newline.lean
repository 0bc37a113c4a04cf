import IntScript.Proofs.Token.Joined
import IntScript.Proofs.Token.Tiling

/-!
# A newline between two texts

Whatever a text ends with, behind a newline another one has the tokens that it has alone, only further down:
reading can be cut at line breaks (`tokenize_append_newline`).
-/

namespace IntScript

theorem Place.past_newline (cs : List Char) : front.past (cs ++ ['\n']) =
    front.shift ((String.ofList cs).utf8ByteSize + 1) (cs.count '\n' + 1) := by
  rw [past_append, past_front]
  simp [step, shift, front, Char.utf8Size, Nat.add_assoc]

namespace Token

variable {a b : String} {ts us : List Token} {last : Token} {r : Except LexError Token}

theorem Segmented.joined (ha : Segmented .front a.toList ts (.ok last))
    (hb : Segmented .front b.toList us r) : Segmented .front (a ++ "\n" ++ b).toList
      (ts ++ us.map (Token.shift (a.utf8ByteSize + 1) (a.toList.count '\n' + 1)))
      ((r.map (Token.shift (a.utf8ByteSize + 1) (a.toList.count '\n' + 1))).mapError
        (LexError.shift (a.toList.count '\n' + 1))) := by
  have hplace := Place.past_newline a.toList
  rw [String.ofList_toList] at hplace
  have htext : (a ++ "\n" ++ b).toList = a.toList ++ '\n' :: b.toList := by simp
  rw [htext]
  exact ha.append_newline (hplace ▸ hb.shift _ _)

/-- The tokens of a text, without its end mark, and then those of the text below, moved by the bytes and
lines in front of them. A string that is left open below is left open there. -/
theorem tokenize_append_newline (ha : tokenize a = .ok ts) (b : String) :
    ∃ front mark, ts = front ++ [mark] ∧ mark.kind = .eof ∧
      (∀ us, tokenize b = .ok us → tokenize (a ++ "\n" ++ b) =
        .ok (front ++ us.map (Token.shift (a.utf8ByteSize + 1) (a.toList.count '\n' + 1)))) ∧
      ∀ line column, tokenize b = .error (.unterminatedString line column) →
        tokenize (a ++ "\n" ++ b) =
          .error (.unterminatedString (line + (a.toList.count '\n' + 1)) column) := by
  obtain ⟨front, p, rfl, hfront⟩ := exists_segmented_of_tokenize ha
  obtain ⟨us, r, hb⟩ := exists_segmented .front b.toList
  have htokens : tokenize b = r.map fun last => us ++ [last] := hb.tokens_eq
  have hboth : tokenize (a ++ "\n" ++ b) = _ := (hfront.joined hb).tokens_eq
  refine ⟨front, endMark p, rfl, rfl, fun vs hvs => ?_, fun line column herror => ?_⟩
  · rw [htokens] at hvs
    cases r with
    | error e => cases hvs
    | ok last =>
      cases hvs
      rw [hboth]
      simp [Except.map, Except.mapError]
  · rw [htokens] at herror
    cases r with
    | ok last => cases herror
    | error e =>
      cases herror
      exact hboth

theorem tokenize_append_newline_comment :
    tokenize "x # é\"" = .ok [⟨.identifier, "x", ⟨0, 1, 1, 0, 1⟩⟩, ⟨.eof, "", ⟨7, 7, 1, 6, 1⟩⟩] ∧
    tokenize ("x # é\"" ++ "\n" ++ " \"\n\"") = .ok [⟨.identifier, "x", ⟨0, 1, 1, 0, 1⟩⟩,
      ⟨.string, "\n", ⟨9, 12, 2, 1, 3⟩⟩, ⟨.eof, "", ⟨12, 12, 3, 1, 3⟩⟩] := by
  have ha : tokenize "x # é\"" = .ok [⟨.identifier, "x", ⟨0, 1, 1, 0, 1⟩⟩,
      ⟨.eof, "", ⟨7, 7, 1, 6, 1⟩⟩] := by cbv
  have hb : tokenize " \"\n\"" = .ok [⟨.string, "\n", ⟨1, 4, 1, 1, 2⟩⟩,
      ⟨.eof, "", ⟨4, 4, 2, 1, 2⟩⟩] := by cbv
  obtain ⟨front, mark, hts, -, hok, -⟩ := tokenize_append_newline ha " \"\n\""
  have hfront := congrArg List.dropLast hts
  rw [List.dropLast_concat] at hfront
  subst hfront
  exact ⟨ha, (hok _ hb).trans (by cbv)⟩

end Token

end IntScript
