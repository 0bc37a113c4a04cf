import IntScript.Proofs.Grammar.Decisions
import IntScript.Proofs.Grammar.Recovery
import IntScript.Proofs.Grammar.Image
import IntScript.Proofs.Token.Positions

/-!
# Where a program is found malformed

The first fault of a text is at one of its tokens, and the tokens up to that one are at fault together,
whatever stands behind them. So no program begins with them.
-/

namespace IntScript

open IntScript.Action Grammar Grammar.Parser

variable {e : SyntaxError} {front rest : List Token} {t : Token} {finish : Position} {c : Cursor}

namespace Grammar.Cursor

theorem program_error {n : Nat} (hn : c.size < n) (h : c.program.1 = .error e) :
    ∃ x, Parser.program n c = some (.error e, x) :=
  ⟨c.program.2, by rw [program_bound hn, ← h]⟩

theorem position_of_error (h : c.program.1 = .error e) :
    e.position = c.finish ∨ ∃ front t rest, c.ahead = front ++ t :: rest ∧ e.position = t.position := by
  obtain ⟨x, herror⟩ := program_error (Nat.lt_succ_self c.size) h
  obtain ⟨hfinish, -⟩ | ⟨front, t, d, hpass, he, -⟩ := (decided_program _ c).error herror
  · exact .inl hfinish
  · exact .inr ⟨front, t, d.ahead, by simpa using hpass.ahead, he⟩

theorem eq_of_position {front' rest' : List Token} {t' : Token}
    (h : front ++ t :: rest = front' ++ t' :: rest') (ht : t'.position = t.position)
    (hother : ∀ u ∈ front ++ rest, u.position ≠ t.position) : front' = front ∧ t' = t := by
  rcases List.append_eq_append_iff.1 h with ⟨us, rfl, hrest⟩ | ⟨us, rfl, hrest⟩
  · cases us with
    | nil =>
      cases hrest
      exact ⟨List.append_nil front, rfl⟩
    | cons u us =>
      cases hrest
      exact absurd ht (hother t' (by simp))
  · cases us with
    | nil =>
      cases hrest
      exact ⟨(List.append_nil front').symm, rfl⟩
    | cons u us =>
      cases hrest
      exact absurd ht (hother t' (by simp))

theorem program_of_prefix {finish' : Position} {rest' : List Token}
    (h : (Cursor.mk none (front ++ t :: rest) finish).program.1 = .error e) (ht : e.position = t.position)
    (hother : ∀ u ∈ front ++ rest, u.position ≠ t.position) (hfinish : t.position ≠ finish) :
    (Cursor.mk none (front ++ t :: rest') finish').program.1 = .error e := by
  generalize hc : Cursor.mk none (front ++ t :: rest) finish = c at h
  generalize hc' : Cursor.mk none (front ++ t :: rest') finish' = c'
  have hn : c.size < c.size + c'.size + 1 := by omega
  have hn' : c'.size < c.size + c'.size + 1 := by omega
  obtain ⟨x, herror⟩ := program_error hn h
  subst hc
  obtain ⟨hend, -⟩ | ⟨front', t', d, hpass, he, -, hdecided⟩ := (decided_program _ _).error herror
  · exact absurd (ht.symm.trans hend) hfinish
  · have hahead : front ++ t :: rest = front' ++ t' :: d.ahead := by simpa using hpass.ahead
    obtain ⟨rfl, rfl⟩ := eq_of_position hahead (he.symm.trans ht) hother
    have hpass' : c'.Passes (front' ++ [t']) ⟨lastOf none (front' ++ [t']), rest', finish'⟩ := by
      subst hc'
      exact ⟨by simp, rfl, rfl⟩
    obtain hnone | ⟨x', hx', -⟩ := hdecided c' _ hpass' (by rw [← hc'])
    · rw [program_bound hn'] at hnone
      cases hnone
    · rw [program_bound hn'] at hx'
      exact congrArg Prod.fst (Option.some.inj hx')

end Grammar.Cursor

namespace Statement

theorem index_of_position {ts : List Token} {j k : Nat} {u : Token}
    (h : ts.Pairwise fun t u => t.position ≠ u.position) (hu : ts[j]? = some u) (ht : ts[k]? = some t)
    (heq : u.position = t.position) : j = k := by
  have hnodup : (ts.map Token.position).Nodup := List.pairwise_map.2 h
  have hj : j < (ts.map Token.position).length := by
    rw [List.length_map]
    exact (List.getElem?_eq_some_iff.1 hu).1
  apply (List.getElem?_inj hj hnodup).1
  rw [List.getElem?_map, List.getElem?_map, ht, hu, Option.map_some, Option.map_some, heq]

theorem ofTokens_of_prefix {mark : Token} (hkinds : ∀ u ∈ front ++ t :: rest, u.kind ≠ .eof)
    (hapart : (front ++ t :: (rest ++ [mark])).Pairwise fun t u => t.position ≠ u.position)
    (h : (Cursor.mk none (front ++ t :: rest) mark.position).program.1 = .error e)
    (ht : e.position = t.position) (zs : List Token) : ofTokens (front ++ t :: zs) = .error e := by
  have hne {t u : Token} (h : t.position ≠ u.position) : u.position ≠ t.position := h.symm
  have hother := (List.pairwise_cons.1 ((List.pairwise_middle hne).1 hapart)).1
  have hfront : ∀ u ∈ front ++ [t], decide (u.kind ≠ .eof) = true := by
    intro u hu
    apply decide_eq_true
    apply hkinds
    rw [List.append_cons]
    exact List.mem_append_left rest hu
  have hahead : (Cursor.ofTokens (front ++ t :: zs)).ahead = front ++ t :: zs.takeWhile (·.kind ≠ .eof) := by
    rw [Cursor.ofTokens, List.append_cons, List.takeWhile_append_of_pos hfront, ← List.append_cons]
  have hcursor : Cursor.ofTokens (front ++ t :: zs) =
      ⟨none, front ++ t :: zs.takeWhile (·.kind ≠ .eof), Cursor.finishOf (front ++ t :: zs)⟩ :=
    congrArg (Cursor.mk none · _) hahead
  rw [ofTokens, hcursor]
  apply Cursor.program_of_prefix h ht
  · intro u hu
    apply hne
    apply hother
    rw [← List.append_assoc]
    exact List.mem_append_left [mark] hu
  · exact hother mark (by simp)

/-- An error is at one token of a text, and whatever follows the text up to that token, the error stays the
same. So no program begins with it. -/
theorem ofTokens_error_prefix {source : String} {ts : List Token}
    (hts : Token.tokenize source = .ok ts) (h : ofTokens ts = .error e) :
    ∃ k t, ts[k]? = some t ∧ t.position = e.position ∧
      (∀ j u, ts[j]? = some u → u.position = e.position → j = k) ∧
      (∀ zs, ofTokens (ts.take (k + 1) ++ zs) = .error e) ∧
      ∀ us s, ts.take (k + 1) <+: us → ofTokens us ≠ .ok s := by
  obtain ⟨front, q, rfl, hsegments⟩ := Token.exists_segmented_of_tokenize hts
  have hkinds := hsegments.marked.2
  have hapart : (front ++ [Token.endMark q]).Pairwise fun t u => t.position ≠ u.position :=
    hsegments.before.1.imp Position.Before.ne
  suffices hfound : ∃ k t, (front ++ [Token.endMark q])[k]? = some t ∧ t.position = e.position ∧
      ∀ zs, ofTokens ((front ++ [Token.endMark q]).take (k + 1) ++ zs) = .error e by
    obtain ⟨k, t, ht, hposition, hdecided⟩ := hfound
    refine ⟨k, t, ht, hposition, fun j u hu hsame => ?_, hdecided, ?_⟩
    · exact index_of_position hapart hu ht (hsame.trans hposition.symm)
    · rintro us s ⟨zs, rfl⟩ hok
      rw [hdecided zs] at hok
      cases hok
  rw [ofTokens, Cursor.ofTokens_append hkinds rfl] at h
  obtain hend | ⟨us, t, rest, hahead, ht⟩ := Cursor.position_of_error h
  · refine ⟨front.length, Token.endMark q, by simp, hend.symm, fun zs => ?_⟩
    have htake : (front ++ [Token.endMark q]).take (front.length + 1) ++ zs =
        front ++ Token.endMark q :: zs := by
      rw [List.take_length_add_append, List.append_assoc]
      rfl
    rw [htake, ofTokens, Cursor.ofTokens_append hkinds rfl]
    exact h
  · obtain rfl : front = us ++ t :: rest := hahead
    refine ⟨us.length, t, by simp, ht.symm, fun zs => ?_⟩
    rw [List.append_assoc, List.cons_append] at hapart ⊢
    rw [List.take_length_add_append, List.append_assoc]
    exact ofTokens_of_prefix hkinds hapart h ht zs

def repeatedName : List Token :=
  [⟨.defKeyword, "def", ⟨0, 3, 1, 0, 1⟩⟩, ⟨.identifier, "f", ⟨4, 5, 1, 4, 1⟩⟩,
    ⟨.lparen, "(", ⟨5, 6, 1, 5, 1⟩⟩, ⟨.identifier, "a", ⟨6, 7, 1, 6, 1⟩⟩,
    ⟨.comma, ",", ⟨7, 8, 1, 7, 1⟩⟩, ⟨.identifier, "a", ⟨9, 10, 1, 9, 1⟩⟩,
    ⟨.rparen, ")", ⟨10, 11, 1, 10, 1⟩⟩, ⟨.eof, "", ⟨11, 11, 1, 11, 1⟩⟩]

theorem ofTokens_error_prefix_repeatedName : Token.tokenize "def f(a, a)" = .ok repeatedName ∧
    ∀ zs, ofTokens (repeatedName.take 6 ++ zs) = .error ⟨.duplicateParameter "a" "f", ⟨1, 9⟩⟩ := by
  have htokens : Token.tokenize "def f(a, a)" = .ok repeatedName := by cbv
  obtain ⟨k, t, -, -, hunique, hdecided, -⟩ := ofTokens_error_prefix htokens
    (e := ⟨.duplicateParameter "a" "f", ⟨1, 9⟩⟩) rfl
  obtain rfl : 5 = k := hunique 5 _ rfl rfl
  exact ⟨htokens, hdecided⟩

end Statement

end IntScript
