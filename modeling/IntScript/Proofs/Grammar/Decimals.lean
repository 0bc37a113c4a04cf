import IntScript.Proofs.Grammar.Image
import IntScript.Proofs.Token.Decimals

/-!
# Printing words

A word in decimal is read as a literal, or as a literal behind a minus sign. The literal has no sign, so
it is out of range if the word is the smallest one: the first of these in a list is the fault of the
program.
-/

namespace IntScript

namespace Word

theorem fits_natAbs {w : Word} (hw : w ≠ Int64.minValue) : Fits w.toInt.natAbs := by
  obtain ⟨hlo, hhi⟩ := fits_toInt w
  have hne : w.toInt ≠ -9223372036854775808 := by
    intro heq
    have hmin : Int64.minValue.toInt = -9223372036854775808 := by decide
    exact hw (Int64.toInt_inj.1 (heq.trans hmin.symm))
  constructor <;> omega

def magnitude (w : Word) : Word := Int64.ofInt w.toInt.natAbs

theorem ofInt?_natAbs {w : Word} (hw : w ≠ Int64.minValue) :
    ofInt? w.toInt.natAbs = some w.magnitude :=
  if_pos (fits_natAbs hw)

theorem ofDecimal?_natAbs (w : Word) :
    ofDecimal? (toString w.toInt.natAbs).toList = ofInt? w.toInt.natAbs := by
  have hdigits : (toString w.toInt.natAbs).toList = Nat.toDigits 10 w.toInt.natAbs :=
    String.toList_ofList
  rw [hdigits, ofDecimal?_toDigits]

theorem magnitude_of_nonneg {w : Word} (hsign : 0 ≤ w.toInt) : w.magnitude = w := by
  rw [magnitude, Int.natAbs_of_nonneg hsign, Int64.ofInt_toInt]

def expression (w : Word) : Expression :=
  if w.toInt < 0 then .negate (.integer w.magnitude) else .integer w.magnitude

end Word

namespace Grammar

open IntScript.Action Token

variable {ts us rest : List Token} {w : Word} {ws : List Word} {p t u : Token} {finish : Position}

theorem ofWords_ne_nil (h : OfWords ts ws) : ts ≠ [] := by
  cases h with
  | last h => cases h <;> exact List.cons_ne_nil _ _
  | more => exact List.append_ne_nil_of_right_ne_nil _ (List.cons_ne_nil _ _)

theorem derives_word (h : OfWord w ts) (hw : w ≠ Int64.minValue) :
    Derives .expression ts w.expression := by
  have hread := (Word.ofDecimal?_natAbs w).trans (Word.ofInt?_natAbs hw)
  cases h with
  | plain hsign ht hlexeme =>
    rw [← hlexeme] at hread
    rw [Word.expression, if_neg (Int.not_lt.2 hsign)]
    exact (Derives.integer ht hread).expression_of_primary
  | signed hsign hm ht hlexeme =>
    rw [← hlexeme] at hread
    rw [Word.expression, if_pos hsign]
    have hnegate := Derives.negate hm (.unary (.integer ht hread))
    exact .expression (.operand (.operand (.operand hnegate)))

theorem derives_words (h : OfWords ts ws) (hws : Int64.minValue ∉ ws) :
    Derives .items ts (ws.map Word.expression) := by
  induction h with
  | last h =>
    have hword := derives_word h fun hw => hws (by rw [hw]; exact List.mem_singleton_self _)
    exact .item hword
  | more h hc _ ih =>
    rw [List.mem_cons, not_or] at hws
    exact .items (derives_word h (Ne.symm hws.1)) hc (ih hws.2)

section Refused

def invalidLiteral (t : Token) : SyntaxError := ⟨.invalidIntegerLiteral t.lexeme, t.position⟩

variable {m : Token}

theorem unaryHere_invalid (ht : t.kind = .integer) (hnone : Word.ofDecimal? t.lexeme.toList = none)
    (nested : Parser Expression) (n : Nat) (previous : Option Token) :
    Parser.unaryHere nested (n + 1) ⟨previous, t :: rest, finish⟩ =
      some (.error (invalidLiteral t), ⟨some t, rest, finish⟩) := by
  have hplain : ∀ v ∈ (t :: rest).head?, v.kind ≠ .minus := by
    intro v hv
    cases hv
    rw [ht]
    decide
  rw [Parser.unaryHere, bind_eq_ok (Parser.accept_none hplain), if_neg Bool.false_ne_true,
    Parser.primary_apply (by rw [ht]; rfl), ht]
  dsimp only
  rw [Parser.integerValue, hnone]
  rfl

theorem unaryHere_negated_invalid (hm : m.kind = .minus) (hjoins : m.Joins t) (ht : t.kind = .integer)
    (hnone : Word.ofDecimal? t.lexeme.toList = none) (nested : Parser Expression) (n : Nat)
    (previous : Option Token) :
    Parser.unaryHere nested (n + 2) ⟨previous, m :: t :: rest, finish⟩ =
      some (.error (invalidLiteral t), ⟨some t, rest, finish⟩) := by
  rw [Parser.unaryHere, bind_eq_ok (Parser.accept_apply hm), if_pos rfl]
  apply bind_eq_error
  rw [Parser.operandOnLine_apply (Cursor.startsLine_of_joins hjoins)]
  exact unaryHere_invalid ht hnone nested n (some m)

theorem settles_expression_invalid (hline : [p, m, t].IsChain Token.Joins) (hm : m.kind = .minus)
    (ht : t.kind = .integer) (hnone : Word.ofDecimal? t.lexeme.toList = none) :
    Settles Parser.expression ⟨some p, m :: t :: rest, finish⟩ (.error (invalidLiteral t))
      ⟨some t, rest, finish⟩ := by
  obtain ⟨hsign, hdigits⟩ := List.isChain_cons_cons.1 hline
  have htarget : (Cursor.mk (some p) (m :: t :: rest) finish).assignmentAhead = false := by
    simp [Cursor.assignmentAhead, hm]
  apply Settles.of_succ
  apply Settles.of_succ
  apply Settles.of_forall
  intro n
  rw [Parser.expression, Parser.operandOnLine_apply (Cursor.startsLine_of_joins hsign),
    Parser.expressionHere, bind_eq_ok (Parser.takeTarget_apply htarget)]
  -- It is the first operand on all three levels.
  apply bind_eq_error
  apply bind_eq_error
  apply bind_eq_error
  exact unaryHere_negated_invalid hm (List.isChain_cons_cons.1 hdigits).1 ht hnone _ n (some p)

def outOfRange (position : Position) : SyntaxError :=
  ⟨.invalidIntegerLiteral "9223372036854775808", position⟩

theorem exists_settles_smallest (h : OfWord Int64.minValue ts)
    (hline : (p :: ts).IsChain Token.Joins) (rest : List Token) (finish : Position) :
    ∃ position c, Settles Parser.expression ⟨some p, ts ++ rest, finish⟩
      (.error (outOfRange position)) c := by
  have hnegative : Int64.minValue.toInt < 0 := by decide
  cases h with
  | plain hsign => omega
  | @signed m t _ hm ht hlexeme =>
    have hnone : Word.ofDecimal? t.lexeme.toList = none := by
      rw [hlexeme, Word.ofDecimal?_natAbs]
      decide
    have hfault : invalidLiteral t = outOfRange t.position := by
      rw [invalidLiteral, hlexeme]
      rfl
    have hstop : Settles Parser.expression ⟨some p, m :: t :: rest, finish⟩
        (.error (outOfRange t.position)) ⟨some t, rest, finish⟩ := by
      rw [← hfault]
      exact settles_expression_invalid hline hm ht hnone
    exact ⟨t.position, _, hstop⟩

theorem exists_settles_words (h : OfWords ts ws) (hws : Int64.minValue ∈ ws)
    (hline : (p :: ts).IsChain Token.Joins) (rest : List Token) (finish : Position) :
    ∃ position c, Settles (fun n => Parser.commaSeparated (Parser.expression n) n)
      ⟨some p, ts ++ rest, finish⟩ (.error (outOfRange position)) c := by
  induction h generalizing p with
  | @last ts w h =>
    obtain rfl := List.mem_singleton.1 hws
    obtain ⟨position, c, hstop⟩ := exists_settles_smallest h hline rest finish
    exact ⟨position, c, Settles.of_succ hstop.succ.bind_error⟩
  | @more ts us comma w ws h hc _ ih =>
    rw [List.append_assoc]
    by_cases hw : w = Int64.minValue
    · subst hw
      obtain ⟨position, c, hstop⟩ :=
        exists_settles_smallest h (isChain_left hline) (comma :: us ++ rest) finish
      exact ⟨position, c, Settles.of_succ hstop.succ.bind_error⟩
    · have hderives := derives_word h hw
      have hne : ts ≠ [] := by
        obtain ⟨t, vs, rfl, -⟩ := derives_head hderives
        exact List.cons_ne_nil t vs
      have hend : (Cursor.mk (lastOf (some p) ts) (comma :: us ++ rest) finish).Stops
          Nonterminal.expression.continues := Cursor.stops_cons (by rw [hc]; rfl)
      have hword := reads_nested (reads_of_derives hderives) hne (isChain_left hline) hend
      have hlater : Int64.minValue ∈ ws := (List.mem_cons.1 hws).resolve_left (Ne.symm hw)
      have htail : (comma :: us).IsChain Token.Joins := isChain_right hline
      obtain ⟨position, c, hstop⟩ := ih hlater htail
      have hgrown := hstop.mono (q := fun n => Parser.commaSeparated (Parser.expression (n + 1)) n)
        fun n => Parser.commaSeparated_le (Parser.expression_le n.le_succ) le_rfl
      refine ⟨position, c, Settles.of_succ ?_⟩
      exact hword.succ.bind (Settles.bind (.of_forall fun _ => Parser.accept_apply hc)
        hgrown.bind_error)

theorem settles_program_print {e : SyntaxError} {c : Cursor} (ht : t.kind = .print)
    (hjoins : t.Joins u)
    (h : Settles (fun n => Parser.commaSeparated (Parser.expression n) n)
      ⟨some t, u :: us, finish⟩ (.error e) c) :
    Settles Parser.program ⟨none, t :: u :: us, finish⟩ (.error e) c := by
  have hitems : Settles Parser.printStatement ⟨some t, u :: us, finish⟩ (.error e) c :=
    Settles.bind_error (h.bind_error.congr fun _ => unlessEnd_some hjoins)
  have hopen : Settles (fun n => Parser.openStatement (Parser.statement n) n)
      ⟨none, t :: u :: us, finish⟩ (.error e) c := by
    apply hitems.congr
    intro n
    rw [Parser.openStatement_keyword (by rw [ht]; rfl), ht]
    rfl
  have hgrown := hopen.mono (q := fun n => Parser.openStatement (Parser.statement n) (n + 1))
    fun n => Parser.openStatement_le le_rfl n.le_succ
  have hstatement : Settles Parser.statement ⟨none, t :: u :: us, finish⟩ (.error e) c :=
    Settles.of_succ hgrown.bind_error
  have hlines : Settles (fun n => Parser.linesAt (Parser.statement n) t.span.column n)
      ⟨none, t :: u :: us, finish⟩ (.error e) c := by
    have hgrown := hstatement.mono (q := fun n => Parser.statement (n + 1))
      fun n => Parser.statement_le n.le_succ
    apply Settles.of_succ
    exact Settles.bind (.of_forall fun _ => read_fit_column) hgrown.bind_error
  exact Settles.bind (.of_forall fun _ => read_apply _ _) hlines.bind_error

end Refused

end Grammar

namespace Statement

open Grammar Token

variable {t : Token} {ts : List Token} {ws : List Word} {mark : Token}

theorem ofTokens_print (ht : t.kind = .print) (hcolumn : t.span.column = 0) (h : OfWords ts ws)
    (hline : ∀ u ∈ t :: ts, u.kind ≠ .eof ∧ u.span.line = 1 ∧ u.span.endLine = 1)
    (hmark : mark.kind = .eof) :
    (Int64.minValue ∉ ws →
      ofTokens (t :: ts ++ [mark]) = .ok (.block [.print (ws.map Word.expression)])) ∧
    (Int64.minValue ∈ ws →
      ∃ position, ofTokens (t :: ts ++ [mark]) = .error (outOfRange position)) := by
  have hchain : (t :: ts).IsChain Token.Joins := by
    apply List.Pairwise.isChain
    apply List.pairwise_of_forall_mem_list
    intro u hu v hv
    exact (hline v hv).2.1.trans (hline u hu).2.2.symm
  rw [ofTokens, Cursor.ofTokens_append (fun u hu => (hline u hu).1) hmark]
  constructor
  · intro hws
    have hprint : ReadsStatement (t :: ts) (.print (ws.map Word.expression)) 0 :=
      readsStatement_print ht (derives_words h hws) hchain
    have hlines := readsLines_cons hcolumn hprint readsLines_nil (by simp)
    rw [List.append_nil] at hlines
    apply Cursor.program_of_readsLines
    rw [← hcolumn] at hlines
    exact hlines
  · intro hws
    obtain ⟨position, c, hwords⟩ := exists_settles_words h hws hchain [] mark.position
    obtain ⟨u, us, rfl⟩ := List.exists_cons_of_ne_nil (ofWords_ne_nil h)
    rw [List.append_nil] at hwords
    have hprogram := settles_program_print ht (List.isChain_cons_cons.1 hchain).1 hwords
    exact ⟨position, by rw [Cursor.program_of_settles hprogram]⟩

end Statement

end IntScript
