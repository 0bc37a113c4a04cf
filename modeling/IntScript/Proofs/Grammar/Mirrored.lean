import IntScript.Proofs.Grammar.Mirror

/-!
# Programs that are read by index

Reading by index copies the cursor's parsers for expressions, statements and programs, each by the steps
it is made of. So it has an answer wherever they have one, and stands where they stand.
-/

namespace IntScript.Grammar.Input

open IntScript.Action

variable {x : Input} {α β : Type} {p : Reading α} {q : Parser α} {P : Nat → Nat → Prop}
  {Q : α → Nat → Nat → Prop} {start i : Nat}

section Expressions

def Ready (x : Input) (start i : Nat) : Prop :=
  start = i ∨ start < i ∧ (x.cursor i).startsLine = false

theorem leavesLine_apply (hi : i ≤ x.front.length) : Reading.leavesLine (x.reader start i) =
    some (.ok (if i = start then false else (x.cursor i).startsLine), x.reader start i) := by
  rw [Reading.leavesLine, bind_eq_ok (read_apply _ _)]
  by_cases h : i = start
  · simp [reader, h]
  · have hlater : decide ((x.reader start i).current = (x.reader start i).start) = false :=
      decide_eq_false h
    rw [hlater, if_neg h]
    exact asks_startsLine start i hi

theorem mirrors_operandHere (h : x.Mirrors (Ready x) p q Q) :
    x.Mirrors (Ready x) (Reading.operandOnLine p) q Q := by
  intro start i hstart hi hready r d hq
  obtain ⟨start', j, hstart', hij, hj, hd, hp, hpost⟩ := h start i hstart hi hready r d hq
  refine ⟨start', j, hstart', hij, hj, hd, ?_, hpost⟩
  rw [Reading.operandOnLine, bind_eq_ok (leavesLine_apply hi)]
  obtain heq | ⟨hlt, hline⟩ := hready
  · rw [if_pos heq.symm]
    exact hp
  · rw [if_neg (Nat.ne_of_gt hlt), hline]
    exact hp

theorem mirrors_operandOnLine (h : x.Mirrors (Ready x) p q Q) :
    x.Mirrors Inside (Reading.operandOnLine p) (Parser.operandOnLine q) Q := by
  intro start i hstart hi hinside r d hq
  rw [Parser.operandOnLine, bind_eq_ok (read_apply _ _)] at hq
  have hlater : i ≠ start := Nat.ne_of_gt hinside
  cases hline : (x.cursor i).startsLine with
  | true =>
    rw [hline] at hq
    have hfails := mirrors_unexpected (x := x) (P := Inside) (Q := Q) .expression
    obtain ⟨start', j, hstart', hij, hj, hd, hp, hpost⟩ := hfails start i hstart hi hinside r d hq
    refine ⟨start', j, hstart', hij, hj, hd, ?_, hpost⟩
    rw [Reading.operandOnLine, bind_eq_ok (leavesLine_apply hi), if_neg hlater, hline]
    exact hp
  | false =>
    rw [hline] at hq
    exact mirrors_operandHere h start i hstart hi (.inr ⟨hinside, hline⟩) r d hq

theorem copies_commaSeparated {item : Reading α} {item' : Parser α}
    (h : x.Copies Inside item item') (n : Nat) :
    x.Copies Inside (Reading.commaSeparated item n) (Parser.commaSeparated item' n) := by
  induction n with
  | zero => exact mirrors_stuck
  | succ n ih =>
    refine mirrors_bind h fun a => mirrors_bind (mirrors_accept (by decide)) fun b => ?_
    cases b with
    | false => exact copies_give _
    | true => exact mirrors_bind ih fun _ => copies_give _

theorem mirrors_untilParen {items : Reading (List α)} {items' : Parser (List α)}
    (h : x.Copies P items items') (expected : Expectation) :
    x.Mirrors P (Reading.untilParen items expected) (Parser.untilParen items' expected)
      fun _ => Inside := by
  have hasks : x.Asks (Reading.check .rparen) fun i => (x.cursor i).nextIs .rparen :=
    (asks_check .rparen).congr fun i hi => (nextIs_cursor hi (by decide)).symm
  refine mirrors_bind (Q := fun _ => Anywhere) (mirrors_bind (mirrors_read hasks) fun b => ?_)
    fun taken => mirrors_bind (mirrors_expect (by decide) expected) fun _ => mirrors_pure fun _ _ h => h
  cases b with
  | false => exact h
  | true => exact copies_give []

theorem copies_variableOrCall {nested : Reading Expression} {nested' : Parser Expression}
    (h : x.Copies Inside nested nested') (name : String) (n : Nat) :
    x.Copies P (Reading.variableOrCall nested name n) (Parser.variableOrCall nested' name n) := by
  refine mirrors_bind (mirrors_take? (picks_takeOnLine? (by decide))) fun o => ?_
  cases o with
  | none => exact copies_give _
  | some t =>
    exact mirrors_bind (mirrors_untilParen (copies_commaSeparated h n) _) fun _ =>
      copies_give _

theorem copies_integerValue (t : Token) :
    x.Copies P (Reading.integerValue t) (Parser.integerValue t) := by
  unfold Reading.integerValue Parser.integerValue
  cases Word.ofDecimal? t.lexeme.toList with
  | some value => exact copies_give _
  | none => exact mirrors_fail _

theorem copies_primary {nested : Reading Expression} {nested' : Parser Expression}
    (h : x.Copies Inside nested nested') (n : Nat) :
    x.Copies P (Reading.primary nested n) (Parser.primary nested' n) := by
  have hpicks : x.Picks (Reading.takeMap fun t => if beginsOperand t.kind then some t else none)
      fun _ t => if beginsOperand t.kind then some t else none :=
    picks_takeMap fun t ht => by rw [ht]; rfl
  refine mirrors_bind (mirrors_take? hpicks) fun o => ?_
  cases o with
  | none => exact mirrors_unexpected _
  | some t =>
    dsimp only
    generalize t.kind = kind
    cases kind with
    | integer => exact copies_integerValue t
    | string => exact copies_give _
    | identifier => exact copies_variableOrCall h _ n
    | _ =>
      refine mirrors_bind h fun e => mirrors_bind (mirrors_expect ?_ _) fun _ => copies_give e
      decide

theorem copies_signed {nested : Reading Expression} {nested' : Parser Expression}
    (h : x.Copies Inside nested nested') (n : Nat) :
    x.Copies (Ready x) (Reading.signed nested n) (Parser.unaryHere nested' n) := by
  induction n with
  | zero => exact mirrors_stuck
  | succ n ih =>
    refine mirrors_bind (mirrors_accept (by decide)) fun b => ?_
    cases b with
    | false => exact copies_primary h (n + 1)
    | true => exact mirrors_bind (mirrors_operandOnLine ih) fun _ => copies_give _

variable {level : TokenKind → Option BinaryOperator} {operand : Reading Expression}
  {first' operand' : Parser Expression}

theorem copies_chainFrom (hlevel : level .eof = none) (h : x.Copies Inside operand operand') (n : Nat)
    (left : Expression) : x.Copies Anywhere (Reading.chainFrom level operand n left)
      (Parser.chainFrom level operand' n left) := by
  induction n generalizing left with
  | zero => exact mirrors_stuck
  | succ n ih =>
    refine mirrors_bind (mirrors_take? (picks_takeOperator? hlevel)) fun o => ?_
    cases o with
    | none => exact copies_give left
    | some op => exact mirrors_bind h fun right => ih _

theorem copies_chain (level : TokenKind → Option BinaryOperator) (hlevel : level .eof = none)
    (hfirst : x.Copies P operand first') (h : x.Copies Inside operand operand') (n : Nat) :
    x.Copies P (Reading.chain level operand n) (Parser.chain level first' operand' n) :=
  mirrors_bind hfirst fun left => copies_chainFrom hlevel h n left

theorem copies_comparison (hfirst : x.Copies P operand first')
    (h : x.Copies Inside operand operand') (n : Nat) :
    x.Copies P (Reading.comparison operand n) (Parser.comparison first' operand' n) := by
  have hproduct := copies_chain productOperator? rfl h h n
  have hsum := copies_chain sumOperator? rfl hproduct hproduct n
  exact copies_chain _ rfl (copies_chain _ rfl (copies_chain _ rfl hfirst h n) hproduct n) hsum n

theorem copies_bareExpression (n : Nat) :
    x.Copies (Ready x) (Reading.bareExpression n) (Parser.expressionHere n) := by
  induction n with
  | zero => exact mirrors_stuck
  | succ n ih =>
    have hnested := mirrors_operandOnLine ih
    refine mirrors_bind mirrors_takeTarget fun o => ?_
    cases o with
    | some name => exact mirrors_bind hnested fun _ => copies_give _
    | none =>
      -- the first operand was found to go on with the line already, those behind an operator were not
      have hsigned := copies_signed hnested (n + 1)
      exact copies_comparison (mirrors_operandHere hsigned) (mirrors_operandOnLine hsigned) (n + 1)

theorem copies_expression (n : Nat) :
    x.Copies Inside (Reading.expression n) (Parser.expression n) :=
  mirrors_operandOnLine (copies_bareExpression n)

theorem copies_expressionHere (n : Nat) :
    x.Copies (Ready x) (Reading.expression n) (Parser.expressionHere n) :=
  mirrors_operandHere (copies_bareExpression n)

end Expressions

section Statements

variable {items : Reading α} {items' : Parser α} {s : Reading Statement} {s' : Parser Statement}

theorem copies_unlessEnd (h : x.Copies P items items') :
    x.Copies P (Reading.unlessEnd items) (Parser.unlessEnd items') := by
  refine mirrors_bind (mirrors_read asks_endsStatement) fun b => ?_
  cases b with
  | false => exact mirrors_bind h fun _ => copies_give _
  | true => exact copies_give _

theorem copies_printStatement (n : Nat) :
    x.Copies Inside (Reading.printStatement n) (Parser.printStatement n) :=
  mirrors_bind (copies_unlessEnd (copies_commaSeparated (copies_expression n) n)) fun _ =>
    copies_give _

theorem copies_returnStatement (n : Nat) :
    x.Copies Inside (Reading.returnStatement n) (Parser.returnStatement n) :=
  mirrors_bind (copies_unlessEnd (copies_expression n)) fun _ => copies_give _

theorem copies_linesAt (h : x.Copies Anywhere s s') (column n : Nat) :
    x.Copies Anywhere (Reading.linesAt s column n) (Parser.linesAt s' column n) := by
  induction n with
  | zero => exact mirrors_stuck
  | succ n ih =>
    refine mirrors_bind (mirrors_read (asks_fit column)) fun fit => ?_
    cases fit with
    | behind => exact copies_give []
    | deeper => exact mirrors_failHere _
    | within => exact mirrors_bind h fun _ => mirrors_bind ih fun _ => copies_give _

theorem copies_indentedBlock (h : x.Copies Anywhere s s') (construct : Construct) (header n : Nat) :
    x.Copies Anywhere (Reading.indentedBlock s construct header n)
      (Parser.indentedBlock s' construct header n) := by
  have hlacks : x.Asks (Reading.lacksBlock header) fun i =>
      (x.cursor i).atEnd || (x.cursor i).position.column ≤ header := by
    refine (asks_ite asks_atEnd (asks_pure true)
      (asks_column.bind fun _ => asks_pure _)).congr fun i _ => ?_
    cases (x.cursor i).atEnd <;> rfl
  refine mirrors_bind (mirrors_read hlacks) fun b => ?_
  cases b with
  | false =>
    exact mirrors_bind (mirrors_read asks_column) fun column =>
      mirrors_bind (copies_linesAt h column n) fun _ => copies_give _
  | true => exact mirrors_failHere _

theorem copies_body (h : x.Copies Anywhere s s') (construct : Construct)
    (header n : Nat) : x.Copies Anywhere (Reading.body s construct header n)
      (Parser.body s' construct header n) := by
  have hkind : TokenKind.colon ≠ .eof := by decide
  have hcolon := mirrors_take? (x := x) (P := Anywhere) (picks_takeOnLine? hkind)
  refine mirrors_bind hcolon.anywhere fun _ =>
    mirrors_bind (mirrors_read asks_endsStatement) fun b => ?_
  cases b with
  | false => exact h
  | true => exact copies_indentedBlock h construct header n

theorem copies_ifStatement (h : x.Copies Anywhere s s') (header n : Nat) :
    x.Copies Inside (Reading.ifStatement s header n) (Parser.ifStatement s' header n) := by
  refine mirrors_bind (copies_expression n) fun condition =>
    mirrors_bind (copies_body h .ifBranch header n) fun thenBranch =>
      mirrors_bind (mirrors_take? (picks_takeElse? header)) fun o => ?_
  cases o with
  | none => exact copies_give _
  | some t => exact mirrors_bind (copies_body h .elseBranch _ n).anywhere fun _ => copies_give _

theorem copies_parameters (function : String) (n : Nat) (seen : List String) :
    x.Copies P (Reading.parameters function n seen) (Parser.parameters function n seen) := by
  induction n generalizing P seen with
  | zero => exact mirrors_stuck
  | succ n ih =>
    refine mirrors_bind (mirrors_expect (by decide) _) fun t => ?_
    split
    · exact mirrors_fail _
    · refine mirrors_bind (mirrors_accept (by decide)) fun b => ?_
      cases b with
      | false => exact copies_give _
      | true => exact mirrors_bind (ih _) fun _ => copies_give _

theorem copies_defStatement (h : x.Copies Anywhere s s') (header n : Nat) :
    x.Copies P (Reading.defStatement s header n) (Parser.defStatement s' header n) :=
  mirrors_bind (mirrors_expect (by decide) _) fun name =>
    mirrors_bind (mirrors_expect (by decide) _) fun _ =>
      mirrors_bind (mirrors_untilParen (copies_parameters name.lexeme n []) _) fun _ =>
        mirrors_bind (copies_body h _ header n).anywhere fun _ => copies_give _

theorem copies_plainStatement (n : Nat) :
    x.Copies (Ready x) (Reading.plainStatement n) (Parser.plainStatement n) := by
  refine mirrors_bind mirrors_takeTarget fun o => ?_
  cases o with
  | some name => exact mirrors_bind (copies_expression n) fun _ => copies_give _
  | none => exact mirrors_bind (copies_expressionHere n) fun _ => copies_give _

theorem copies_openStatement (h : x.Copies Anywhere s s') (n : Nat) :
    x.Copies (Ready x) (Reading.openStatement s n) (Parser.openStatement s' n) := by
  have hpicks : x.Picks (Reading.takeMap fun t => if beginsStatement t.kind then some t else none)
      fun _ t => if beginsStatement t.kind then some t else none :=
    picks_takeMap fun t ht => by rw [ht]; rfl
  refine mirrors_bind (mirrors_take? hpicks) fun o => ?_
  cases o with
  | none => exact copies_plainStatement n
  | some t =>
    dsimp only
    generalize t.kind = kind
    cases kind with
    | print => exact copies_printStatement n
    | ifKeyword => exact copies_ifStatement h _ n
    | defKeyword => exact copies_defStatement h _ n
    | _ => exact copies_returnStatement n

theorem copies_endOfStatement : x.Copies P Reading.endOfStatement Parser.endOfStatement := by
  have hmay : x.Asks Reading.mayEnd fun i =>
      (x.cursor i).endsStatement || (x.cursor i).nextIs .elseKeyword := by
    refine (asks_ite asks_endsStatement (asks_pure true) (asks_check _)).congr fun i hi => ?_
    rw [nextIs_cursor hi (by decide)]
    cases (x.cursor i).endsStatement <;> rfl
  refine mirrors_bind (mirrors_read hmay) fun b => ?_
  cases b with
  | false => exact mirrors_unexpected _
  | true => exact copies_give ()

theorem copies_statement (n : Nat) :
    x.Copies Anywhere (Reading.statement n) (Parser.statement n) := by
  induction n with
  | zero => exact mirrors_stuck
  | succ n ih =>
    intro start i hstart hi _ r d hq
    have hrest := mirrors_bind (copies_openStatement ih (n + 1)) fun s =>
      mirrors_bind copies_endOfStatement fun _ => copies_give s
    -- the start is the index now, whatever statement was being read before
    exact hrest i i (Nat.le_refl i) hi (.inl rfl) r d hq

end Statements

section Programs

theorem copies_program (n : Nat) : x.Copies Anywhere (Reading.program n) (Parser.program n) := by
  refine mirrors_bind (mirrors_read asks_column) fun column =>
    mirrors_bind (copies_linesAt (copies_statement n) column n) fun ss =>
      mirrors_bind (mirrors_read asks_atEnd) fun b => ?_
  cases b with
  | false => exact mirrors_unexpected _
  | true => exact copies_give _

theorem copies_topLevelStatement (column n : Nat) :
    x.Copies Anywhere (Reading.topLevelStatement column n) (Parser.topLevelStatement column n) := by
  refine mirrors_bind (mirrors_read (asks_straysFrom column)) fun b => ?_
  cases b with
  | false => exact copies_statement n
  | true => exact mirrors_failHere _

def Resumes (c : Cursor) (column : Nat) : Bool :=
  c.atEnd || (c.startsLine && c.position.column ≤ column)

theorem seekLine_eq (c : Cursor) (column : Nat) :
    Cursor.seekLine column c.finish c.previous c.ahead = if Resumes c column then c
      else Cursor.seekLine column c.finish c.advance.previous c.advance.ahead := by
  obtain ⟨previous, _ | ⟨t, ts⟩, finish⟩ := c
  · rfl
  · rw [Cursor.seekLine]
    rfl

variable {column n : Nat}

theorem asks_resumes : x.Asks (Reading.resumes column) fun i => Resumes (x.cursor i) column := by
  refine (asks_ite asks_atEnd (asks_pure true) (asks_ite asks_startsLine
    (asks_column.bind fun _ => asks_pure _) (asks_pure false))).congr fun i _ => ?_
  rw [Resumes]
  cases (x.cursor i).atEnd <;> cases (x.cursor i).startsLine <;> rfl

def sought (x : Input) (column i : Nat) : Cursor :=
  Cursor.seekLine column x.mark.position (x.cursor i).previous (x.cursor i).ahead

theorem sought_of_resumes (h : Resumes (x.cursor i) column = true) :
    x.sought column i = x.cursor i := by
  have hseek := seekLine_eq (x.cursor i) column
  rw [h, if_pos rfl] at hseek
  exact hseek

theorem sought_succ (hlt : i < x.front.length) (h : Resumes (x.cursor i) column = false) :
    x.sought column i = x.sought column (i + 1) := by
  have hseek := seekLine_eq (x.cursor i) column
  rw [h, if_neg Bool.false_ne_true, advance_cursor hlt] at hseek
  exact hseek

theorem skip_apply (start : Nat) (hi : i ≤ x.front.length) (hn : x.front.length - i < n) :
    ∃ j, i ≤ j ∧ j ≤ x.front.length ∧
      Reading.skip n (x.reader start i) = some (.ok (), x.reader start j) ∧
      ∀ column, x.sought column j = x.sought column i := by
  induction n generalizing i with
  | zero => omega
  | succ n ih =>
    rw [Reading.skip, asks_endsStatement.bind_apply hi]
    cases hends : (x.cursor i).endsStatement with
    | true => exact ⟨i, Nat.le_refl i, hi, rfl, fun _ => rfl⟩
    | false =>
      rw [if_neg Bool.false_ne_true, asks_peek.bind_apply hi]
      split
      · exact ⟨i, Nat.le_refl i, hi, rfl, fun _ => rfl⟩
      · rw [Cursor.endsStatement, Bool.or_eq_false_iff] at hends
        have hlt := lt_of_not_atEnd hi hends.1
        obtain ⟨j, hij, hj, hskip, hsought⟩ := ih (i := i + 1) hlt (by omega)
        rw [bind_eq_ok (advance_apply hlt)]
        -- no line begins at the token that is passed, so no column is found there
        refine ⟨j, by omega, hj, hskip, fun column => ?_⟩
        rw [hsought, sought_succ hlt]
        rw [Resumes, hends.1, hends.2]
        rfl

theorem advance_min (start : Nat) (hi : i ≤ x.front.length) :
    Reading.advance (x.reader start i) =
        some (.ok (x.token i), x.reader start (min (i + 1) x.front.length)) ∧
      (x.cursor i).advance = x.cursor (min (i + 1) x.front.length) := by
  obtain ⟨hlast, htoken, hahead⟩ | ⟨t, hlt, -⟩ := places hi
  · have hmin : min (i + 1) x.front.length = i := by omega
    rw [hmin]
    constructor
    · rw [Reading.advance, asks_peek.bind_apply hi, Reading.atEnd, (asks_check .eof).bind_apply hi,
        htoken, decide_eq_true x.mark_kind]
      rfl
    · rw [Cursor.advance, hahead]
  · rw [Nat.min_eq_left hlt]
    exact ⟨advance_apply hlt, advance_cursor hlt⟩

theorem synchronize_apply (start : Nat) (hi : i ≤ x.front.length) (hn : x.front.length - (i + 1) < n) :
    ∃ j, min (i + 1) x.front.length ≤ j ∧ j ≤ x.front.length ∧
      Reading.synchronize n (x.reader start i) = some (.ok (), x.reader start j) ∧
      ∀ column, x.sought column j = (x.cursor i).resume column := by
  obtain ⟨hstep, hcursor⟩ := advance_min start hi
  obtain ⟨j, hij, hj, hskip, hsought⟩ := skip_apply start
    (i := min (i + 1) x.front.length) (Nat.min_le_right _ _) (n := n) (by omega)
  refine ⟨j, hij, hj, (bind_eq_ok hstep).trans hskip, fun column => ?_⟩
  rw [hsought, Cursor.resume, hcursor]
  rfl

theorem seekLine_apply (column start : Nat) (hi : i ≤ x.front.length) (hn : x.front.length - i < n) :
    ∃ j, i ≤ j ∧ j ≤ x.front.length ∧
      Reading.seekLine column n (x.reader start i) = some (.ok (), x.reader start j) ∧
      x.cursor j = x.sought column i := by
  induction n generalizing i with
  | zero => omega
  | succ n ih =>
    rw [Reading.seekLine, asks_resumes.bind_apply hi]
    cases hresumes : Resumes (x.cursor i) column with
    | true => exact ⟨i, Nat.le_refl i, hi, rfl, (sought_of_resumes hresumes).symm⟩
    | false =>
      have hnot := hresumes
      rw [Resumes, Bool.or_eq_false_iff] at hnot
      have hlt := lt_of_not_atEnd hi hnot.1
      obtain ⟨k, hik, hk, hsync, hsame⟩ := synchronize_apply start (n := n) hi (by omega)
      obtain ⟨j, hkj, hj, hseek, hj'⟩ := ih (i := k) hk (by omega)
      rw [if_neg Bool.false_ne_true, bind_eq_ok hsync]
      refine ⟨j, by omega, hj, hseek, ?_⟩
      rw [hj', hsame, sought_succ hlt hresumes, Cursor.resume, advance_cursor hlt]
      rfl

theorem resume_apply (column start : Nat) (hi : i ≤ x.front.length) (hn : x.front.length - i < n) :
    ∃ j, min (i + 1) x.front.length ≤ j ∧ j ≤ x.front.length ∧
      Reading.resume column n (x.reader start i) = some (.ok (), x.reader start j) ∧
      x.cursor j = (x.cursor i).resume column := by
  obtain ⟨k, hik, hk, hsync, hsame⟩ := synchronize_apply start (n := n) hi (by omega)
  obtain ⟨j, hkj, hj, hseek, hj'⟩ := seekLine_apply column start (n := n) hk (by omega)
  exact ⟨j, by omega, hj, (bind_eq_ok hsync).trans hseek, hj'.trans (hsame column)⟩

abbrev Arrives (x : Input) (p : Reading α) (start i : Nat) (r : Except SyntaxError α) (d : Cursor) :
    Prop :=
  ∃ start' j, start' ≤ j ∧ i ≤ j ∧ j ≤ x.front.length ∧
    p (x.reader start i) = some (r, x.reader start' j) ∧ d = x.cursor j

theorem outcomes_apply (column : Nat) (hstart : start ≤ i) (hi : i ≤ x.front.length)
    (hn : x.front.length - i < n) :
    x.Arrives (Reading.outcomes column n) start i (.ok ((x.cursor i).topLevelStatements column).1)
      ((x.cursor i).topLevelStatements column).2 := by
  induction n generalizing start i with
  | zero => omega
  | succ n ih =>
    rw [Arrives, Reading.outcomes, asks_atEnd.bind_apply hi]
    cases hend : (x.cursor i).atEnd with
    | true =>
      rw [Cursor.topLevelStatements_eq_atEnd hend]
      exact ⟨start, i, hstart, Nat.le_refl i, hi, rfl, rfl⟩
    | false =>
      have hlt := lt_of_not_atEnd hi hend
      have hsize : (x.cursor i).size < n + 1 := by
        rw [size_cursor]
        exact hn
      have hread : Parser.topLevelStatement column (n + 1) (x.cursor i) = _ :=
        Cursor.topLevelStatement_eq hsize
      cases hr : (x.cursor i).topLevelStatement column with
      | mk r d =>
        rw [hr] at hread
        obtain ⟨start₁, k, hstart₁, hik, hk, rfl, hstep, -⟩ :=
          copies_topLevelStatement column (n + 1) start i hstart hi trivial r d hread
        have hattempt : Reading.attempt (Reading.topLevelStatement column (n + 1))
            (x.reader start i) = some (.ok r, x.reader start₁ k) := by
          rw [Reading.attempt, hstep]
          rfl
        rw [if_neg Bool.false_ne_true, bind_eq_ok hattempt]
        cases r with
        | ok s =>
          have hfewer := Cursor.size_topLevelStatement_lt hr
          rw [size_cursor, size_cursor] at hfewer
          obtain ⟨start', j, hstart', hkj, hj, hrest, hlast⟩ := ih hstart₁ hk (by omega)
          rw [Cursor.topLevelStatements_eq_ok hend hr]
          exact ⟨start', j, hstart', by omega, hj, bind_eq_ok hrest, hlast⟩
        | error e =>
          -- an error need not have taken a token, but going on behind it does
          obtain ⟨l, hkl, hl, hresume, hcursor⟩ :=
            resume_apply column start₁ hk (n := n + 1) (by omega)
          have hstart₁' : start₁ ≤ l := by omega
          obtain ⟨start', j, hstart', hlj, hj, hrest, hlast⟩ := ih hstart₁' hl (by omega)
          rw [hcursor] at hrest hlast
          rw [Cursor.topLevelStatements_eq_error hend hr]
          exact ⟨start', j, hstart', by omega, hj, (bind_eq_ok hresume).trans (bind_eq_ok hrest), hlast⟩

theorem program_apply (hstart : start ≤ i) (hi : i ≤ x.front.length) (hn : x.front.length - i < n) :
    x.Arrives (Reading.program n) start i (x.cursor i).program.1 (x.cursor i).program.2 := by
  have hread : Parser.program n (x.cursor i) = some (x.cursor i).program :=
    Cursor.program_bound (size_cursor (x := x) i ▸ hn)
  obtain ⟨start', j, hstart', hij, hj, hcursor, hstep, -⟩ :=
    copies_program n start i hstart hi trivial _ _ hread
  exact ⟨start', j, hstart', hij, hj, hstep, hcursor⟩

theorem recovering_apply (hstart : start ≤ i) (hi : i ≤ x.front.length)
    (hn : x.front.length - i < n) :
    x.Arrives (Reading.recovering n) start i (.ok (x.cursor i).recovering.1)
      (x.cursor i).recovering.2 := by
  obtain ⟨start', j, hstart', hij, hj, hstep, hcursor⟩ := outcomes_apply (x.cursor i).position.column
    hstart hi hn
  refine ⟨start', j, hstart', hij, hj, ?_, hcursor⟩
  rw [Reading.recovering, asks_column.bind_apply hi, bind_eq_ok hstep]
  rfl

end Programs

end IntScript.Grammar.Input
