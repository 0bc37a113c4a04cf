import IntScript.Proofs.Grammar.Indexed
import IntScript.Proofs.Grammar.Recovery
import IntScript.Proofs.Grammar.Steps

/-!
# Reading by index is reading with a cursor

Up to the first end mark the two stand at the same tokens. From there on each step by index does what the
step with the cursor does, finds a token wherever it looks, and does not pass the mark.
-/

namespace IntScript.Grammar

open IntScript.Action

def Reader.pathTo (i : Nat) : List Nat := List.range (i + 1)

/-- A list of tokens, seen from its first end mark. -/
structure Input where
  front : List Token
  mark : Token
  rest : List Token
  front_kind : ∀ t ∈ front, t.kind ≠ .eof
  mark_kind : mark.kind = .eof

namespace Input

variable (x : Input) {α β : Type}

def reader (start i : Nat) : Reader := ⟨x.front ++ x.mark :: x.rest, i, start, Reader.pathTo i⟩

def cursor (i : Nat) : Cursor := ⟨(x.front.take i).getLast?, x.front.drop i, x.mark.position⟩

def token (i : Nat) : Token := x.front[i]?.getD x.mark

def Asks (p : Reading α) (f : Nat → α) : Prop :=
  ∀ start i, i ≤ x.front.length → p (x.reader start i) = some (.ok (f i), x.reader start i)

variable {x} {p : Reading α} {f : Nat → α} {start i : Nat}

theorem token_of_lt (hlt : i < x.front.length) : x.token i = x.front[i] := by
  simp [token, hlt]

theorem previous_succ (hlt : i < x.front.length) :
    (x.cursor (i + 1)).previous = some (x.token i) := by
  rw [cursor, ← List.take_append_getElem hlt, List.getLast?_concat, token_of_lt hlt]

theorem places (hi : i ≤ x.front.length) :
    (i = x.front.length ∧ x.token i = x.mark ∧ (x.cursor i).ahead = []) ∨
      ∃ t, i < x.front.length ∧ x.token i = t ∧ t.kind ≠ .eof ∧
        (x.cursor i).ahead = t :: (x.cursor (i + 1)).ahead ∧
        (x.cursor i).advance = x.cursor (i + 1) := by
  obtain rfl | hlt := Nat.eq_or_lt_of_le hi
  · left
    simp [token, cursor]
  · right
    have hdrop : x.front.drop i = x.front[i] :: x.front.drop (i + 1) := List.drop_eq_getElem_cons hlt
    refine ⟨x.front[i], hlt, token_of_lt hlt, x.front_kind _ (List.getElem_mem hlt), hdrop, ?_⟩
    have hnext : x.cursor (i + 1) = ⟨some x.front[i], x.front.drop (i + 1), x.mark.position⟩ := by
      rw [← token_of_lt hlt, ← previous_succ hlt]
      rfl
    rw [hnext, cursor, Cursor.advance, hdrop]

theorem lt_of_not_atEnd (hi : i ≤ x.front.length) (h : (x.cursor i).atEnd = false) :
    i < x.front.length := by
  obtain ⟨-, -, hahead⟩ | ⟨t, hlt, -⟩ := places hi
  · rw [Cursor.atEnd, hahead] at h
    cases h
  · exact hlt

theorem advance_cursor (hlt : i < x.front.length) : (x.cursor i).advance = x.cursor (i + 1) := by
  obtain ⟨hlast, -⟩ | ⟨t, -, -, -, -, hadvance⟩ := places (Nat.le_of_lt hlt)
  · omega
  · exact hadvance

theorem size_cursor (i : Nat) : (x.cursor i).size = x.front.length - i := by
  simp [Cursor.size, cursor]

theorem Asks.bind_apply {k : α → Reading β} (h : x.Asks p f) (hi : i ≤ x.front.length) :
    (p >>= k) (x.reader start i) = k (f i) (x.reader start i) :=
  bind_eq_ok (h start i hi)

theorem asks_pure (a : α) : x.Asks (pure a) fun _ => a := by
  intro start i _
  rfl

theorem Asks.bind {k : α → Reading β} {g : α → Nat → β} (hp : x.Asks p f)
    (hk : ∀ a, x.Asks (k a) (g a)) : x.Asks (p >>= k) fun i => g (f i) i := by
  intro start i hi
  rw [hp.bind_apply hi]
  exact hk (f i) start i hi

theorem Asks.congr {g : Nat → α} (hp : x.Asks p f) (h : ∀ i, i ≤ x.front.length → f i = g i) :
    x.Asks p g := by
  intro start i hi
  rw [← h i hi]
  exact hp start i hi

theorem token_apply {index : Reader → Nat} {k : Nat} (hindex : index (x.reader start i) = k)
    (hk : k ≤ x.front.length) :
    Reading.token index (x.reader start i) = some (.ok (x.token k), x.reader start i) := by
  have hget : (x.front ++ x.mark :: x.rest)[k]? = some (x.token k) := by
    obtain hk | hk := Nat.eq_or_lt_of_le hk
    · simp [token, hk]
    · rw [List.getElem?_append_left hk, token_of_lt hk, List.getElem?_eq_getElem hk]
  rw [Reading.token, hindex]
  simp only [reader, hget]

theorem asks_peek : x.Asks Reading.peek x.token :=
  fun _ _ hi => token_apply rfl hi

theorem asks_previous : x.Asks Reading.previous fun i => x.token (i - 1) :=
  fun _ _ hi => token_apply rfl (Nat.le_trans (Nat.sub_le _ 1) hi)

theorem asks_check (kind : TokenKind) :
    x.Asks (Reading.check kind) fun i => decide ((x.token i).kind = kind) :=
  asks_peek.bind fun _ => asks_pure _

theorem nextIs_cursor (hi : i ≤ x.front.length) {kind : TokenKind} (hkind : kind ≠ .eof) :
    (x.cursor i).nextIs kind = decide ((x.token i).kind = kind) := by
  obtain ⟨-, htoken, hahead⟩ | ⟨t, -, htoken, -, hahead, -⟩ := places hi
  · simp [Cursor.nextIs, hahead, htoken, x.mark_kind, hkind.symm]
  · simp [Cursor.nextIs, hahead, htoken]

theorem atEnd_cursor (hi : i ≤ x.front.length) :
    (x.cursor i).atEnd = decide ((x.token i).kind = .eof) := by
  obtain ⟨-, htoken, hahead⟩ | ⟨t, -, htoken, hkind, hahead, -⟩ := places hi
  · simp [Cursor.atEnd, hahead, htoken, x.mark_kind]
  · simp [Cursor.atEnd, hahead, htoken, hkind]

theorem position_cursor (hi : i ≤ x.front.length) :
    (x.cursor i).position = (x.token i).position := by
  obtain ⟨-, htoken, hahead⟩ | ⟨t, -, htoken, -, hahead, -⟩ := places hi
  · rw [Cursor.position, hahead, htoken]
    rfl
  · rw [Cursor.position, hahead, htoken]

theorem found_cursor (hi : i ≤ x.front.length) :
    (x.cursor i).found = Reading.found (x.token i) := by
  obtain ⟨-, htoken, hahead⟩ | ⟨t, -, htoken, hkind, hahead, -⟩ := places hi
  · rw [Cursor.found, hahead, htoken, Reading.found, if_pos x.mark_kind]
  · rw [Cursor.found, hahead, htoken, Reading.found, if_neg hkind]

theorem asks_atEnd : x.Asks Reading.atEnd fun i => (x.cursor i).atEnd :=
  (asks_check .eof).congr fun _ hi => (atEnd_cursor hi).symm

theorem startsLine_succ (hlt : i < x.front.length) : (x.cursor (i + 1)).startsLine =
    decide ((x.token i).span.endLine < (x.token (i + 1)).span.line) := by
  unfold Cursor.startsLine
  rw [previous_succ hlt, position_cursor hlt]
  rfl

theorem asks_ite {c : Reading Bool} {q : Reading α} {b : Nat → Bool} {g : Nat → α} (hc : x.Asks c b)
    (hp : x.Asks p f) (hq : x.Asks q g) :
    x.Asks (do if ← c then p else q) fun i => if b i then f i else g i := by
  refine hc.bind (g := fun a i => if a then f i else g i) fun a => ?_
  cases a with
  | true => exact hp
  | false => exact hq

theorem asks_startsLine : x.Asks Reading.startsLine fun i => (x.cursor i).startsLine := by
  have hfirst : x.Asks (Action.read fun s => decide (s.current = 0)) fun i => decide (i = 0) :=
    fun _ _ _ => rfl
  refine (asks_ite hfirst (asks_pure true)
    (asks_previous.bind fun _ => asks_peek.bind fun _ => asks_pure _)).congr fun i hi => ?_
  cases i with
  | zero => rfl
  | succ i => exact (startsLine_succ hi).symm

theorem asks_endsStatement : x.Asks Reading.endsStatement fun i => (x.cursor i).endsStatement :=
  (asks_ite asks_atEnd (asks_pure true) asks_startsLine).congr fun i _ => by
    rw [Cursor.endsStatement]
    cases (x.cursor i).atEnd <;> rfl

theorem asks_column : x.Asks Reading.column fun i => (x.cursor i).position.column :=
  (asks_peek.bind fun _ => asks_pure _).congr fun _ hi => by rw [position_cursor hi]; rfl

theorem asks_fit (column : Nat) : x.Asks (Reading.fit column) fun i => (x.cursor i).fit column := by
  have hline : x.Asks (do
      let t ← Reading.peek
      return if t.span.column < column then Cursor.Fit.behind
        else if column < t.span.column then .deeper
        else .within) fun i =>
      if (x.token i).span.column < column then .behind
      else if column < (x.token i).span.column then .deeper
      else .within :=
    asks_peek.bind fun _ => asks_pure _
  refine (asks_ite asks_atEnd (asks_pure .behind)
    (asks_ite asks_startsLine hline (asks_pure .within))).congr fun i hi => ?_
  have hposition : (x.cursor i).position.column = (x.token i).span.column := by
    rw [position_cursor hi]
    rfl
  rw [Cursor.fit, hposition]
  cases (x.cursor i).startsLine <;> rfl

theorem advance_apply (hlt : i < x.front.length) :
    Reading.advance (x.reader start i) = some (.ok (x.token i), x.reader start (i + 1)) := by
  have hend : (x.token i).kind ≠ .eof := by
    rw [token_of_lt hlt]
    exact x.front_kind _ (List.getElem_mem hlt)
  have hle : i ≤ x.front.length := Nat.le_of_lt hlt
  have hmove : (x.reader start i).moveTo (i + 1) = x.reader start (i + 1) :=
    congrArg (Reader.mk _ (i + 1) start) List.range_succ.symm
  rw [Reading.advance, asks_peek.bind_apply hle, Reading.atEnd, (asks_check .eof).bind_apply hle,
    decide_eq_false hend, ← hmove]
  rfl

/-- From a place where the first condition holds of the start and the index, reading by index does what
the cursor's parser does if that answers. It goes on, not beyond the mark, and after a value the second
condition holds. -/
def Mirrors (x : Input) (P : Nat → Nat → Prop) (p : Reading α) (q : Parser α)
    (Q : α → Nat → Nat → Prop) : Prop :=
  ∀ start i, start ≤ i → i ≤ x.front.length → P start i → ∀ r d, q (x.cursor i) = some (r, d) →
    ∃ start' j, start' ≤ j ∧ i ≤ j ∧ j ≤ x.front.length ∧ d = x.cursor j ∧
      p (x.reader start i) = some (r, x.reader start' j) ∧ ∀ a, r = .ok a → Q a start' j

def Anywhere (_ _ : Nat) : Prop := True

def Inside (start i : Nat) : Prop := start < i

abbrev Copies (x : Input) (P : Nat → Nat → Prop) (p : Reading α) (q : Parser α) : Prop :=
  x.Mirrors P p q fun _ => Anywhere

variable {P P' : Nat → Nat → Prop} {q : Parser α} {Q Q' : α → Nat → Nat → Prop}
  {R : β → Nat → Nat → Prop}

theorem Mirrors.mono (h : x.Mirrors P p q Q) (hP : ∀ start i, P' start i → P start i)
    (hQ : ∀ a start i, Q a start i → Q' a start i) : x.Mirrors P' p q Q' := by
  intro start i hstart hi hpre r d hq
  obtain ⟨start', j, hstart', hij, hj, hd, hp, hpost⟩ := h start i hstart hi (hP _ _ hpre) r d hq
  exact ⟨start', j, hstart', hij, hj, hd, hp, fun a ha => hQ _ _ _ (hpost a ha)⟩

theorem Mirrors.anywhere (h : x.Mirrors Anywhere p q Q) : x.Copies P p q :=
  h.mono (fun _ _ _ => trivial) fun _ _ _ _ => trivial

theorem mirrors_pure {a : α} (h : ∀ start i, P start i → Q a start i) :
    x.Mirrors P (pure a) (pure a) Q := by
  intro start i hstart hi hpre r d hq
  cases hq
  refine ⟨start, i, hstart, Nat.le_refl i, hi, rfl, rfl, fun b hb => ?_⟩
  cases hb
  exact h start i hpre

theorem copies_give (a : α) : x.Copies P (pure a) (pure a) :=
  mirrors_pure fun _ _ _ => trivial

theorem mirrors_stuck : x.Mirrors P p Action.stuck Q := by
  intro start i hstart hi hpre r d hq
  cases hq

theorem mirrors_fail (e : SyntaxError) :
    x.Mirrors P (Action.fail e : Reading α) (Action.fail e) Q := by
  intro start i hstart hi hpre r d hq
  cases hq
  exact ⟨start, i, hstart, Nat.le_refl i, hi, rfl, rfl, nofun⟩

theorem mirrors_bind {k : α → Reading β} {k' : α → Parser β} (h : x.Mirrors P p q Q)
    (hk : ∀ a, x.Mirrors (Q a) (k a) (k' a) R) : x.Mirrors P (p >>= k) (q >>= k') R := by
  intro start i hstart hi hpre r d hq
  obtain ⟨e, he, rfl⟩ | ⟨a, d₁, ha, hrest⟩ := bind_eq_some_iff.1 hq
  · obtain ⟨start', j, hstart', hij, hj, hd, hp, -⟩ := h start i hstart hi hpre _ _ he
    exact ⟨start', j, hstart', hij, hj, hd, bind_eq_error hp, nofun⟩
  · obtain ⟨start₁, j₁, hstart₁, hij₁, hj₁, rfl, hp, hmid⟩ := h start i hstart hi hpre _ _ ha
    obtain ⟨start', j, hstart', hij, hj, hd, hk', hpost⟩ :=
      hk a start₁ j₁ hstart₁ hj₁ (hmid a rfl) _ _ hrest
    exact ⟨start', j, hstart', Nat.le_trans hij₁ hij, hj, hd, (bind_eq_ok hp).trans hk', hpost⟩

theorem mirrors_read {g : Cursor → α} (h : x.Asks p fun i => g (x.cursor i)) :
    x.Mirrors P p (Action.read g) fun _ => P := by
  intro start i hstart hi hpre r d hq
  cases hq
  exact ⟨start, i, hstart, Nat.le_refl i, hi, rfl, h start i hi, fun _ _ => hpre⟩

theorem mirrors_failHere (fault : Fault) :
    x.Mirrors P (Reading.failHere fault : Reading α) (Parser.failHere fault) Q := by
  intro start i hstart hi hpre r d hq
  cases hq
  refine ⟨start, i, hstart, Nat.le_refl i, hi, rfl, ?_, nofun⟩
  rw [Reading.failHere, asks_peek.bind_apply hi, position_cursor hi]
  rfl

theorem mirrors_unexpected (expected : Expectation) :
    x.Mirrors P (Reading.unexpected expected : Reading α) (Parser.unexpected expected) Q := by
  intro start i hstart hi hpre r d hq
  cases hq
  refine ⟨start, i, hstart, Nat.le_refl i, hi, rfl, ?_, nofun⟩
  rw [Reading.unexpected, asks_peek.bind_apply hi, position_cursor hi, found_cursor hi]
  rfl

def Picks (x : Input) (p : Reading (Option α)) (g : Cursor → Token → Option α) : Prop :=
  ∀ start i, (i = x.front.length → p (x.reader start i) = some (.ok none, x.reader start i)) ∧
    (i < x.front.length → p (x.reader start i) = match g (x.cursor i) (x.token i) with
      | none => some (.ok none, x.reader start i)
      | some a => some (.ok (some a), x.reader start (i + 1)))

def After (P : Nat → Nat → Prop) : Option α → Nat → Nat → Prop
  | none => P
  | some _ => Inside

theorem mirrors_take? {p : Reading (Option α)} {g : Cursor → Token → Option α}
    (h : x.Picks p g) : x.Mirrors P p (Parser.take? g) (After P) := by
  intro start i hstart hi hpre r d hq
  unfold Parser.take? at hq
  obtain ⟨hlast, -, hahead⟩ | ⟨t, hlt, rfl, -, hahead, hadvance⟩ := places hi
  · rw [hahead] at hq
    cases hq
    refine ⟨start, i, hstart, Nat.le_refl i, hi, rfl, (h start i).1 hlast, fun a ha => ?_⟩
    cases ha
    exact hpre
  · rw [hahead] at hq
    have hp := (h start i).2 hlt
    dsimp only at hq
    cases hg : g (x.cursor i) (x.token i) with
    | none =>
      rw [hg] at hq hp
      cases hq
      refine ⟨start, i, hstart, Nat.le_refl i, hi, rfl, hp, fun a ha => ?_⟩
      cases ha
      exact hpre
    | some a =>
      rw [hg] at hq hp
      cases hq
      refine ⟨start, i + 1, by omega, by omega, hlt, hadvance, hp, fun b hb => ?_⟩
      cases hb
      exact Nat.lt_succ_of_le hstart

theorem picks_takeMap {f : Token → Option α} (h : ∀ t, t.kind = .eof → f t = none) :
    x.Picks (Reading.takeMap f) fun _ => f := by
  intro start i
  constructor
  · intro hlast
    have htoken : x.token i = x.mark := by simp [token, hlast]
    rw [Reading.takeMap, asks_peek.bind_apply (Nat.le_of_eq hlast), htoken, h _ x.mark_kind]
    rfl
  · intro hlt
    rw [Reading.takeMap, asks_peek.bind_apply (Nat.le_of_lt hlt)]
    dsimp only
    cases f (x.token i) with
    | none => rfl
    | some a => exact bind_eq_ok (advance_apply hlt)

theorem picks_takeKind {kind : TokenKind} (hkind : kind ≠ .eof) :
    x.Picks (Reading.takeKind kind) fun _ t => if t.kind = kind then some t else none :=
  picks_takeMap fun _ ht => if_neg fun h => hkind (h.symm.trans ht)

theorem picks_unless {c : Reading Bool} {p : Reading (Option α)} {b : Nat → Bool}
    {g g' : Cursor → Token → Option α} (hc : x.Asks c b) (hp : x.Picks p g)
    (h : ∀ i, i < x.front.length → g' (x.cursor i) (x.token i) =
      if b i then none else g (x.cursor i) (x.token i)) :
    x.Picks (do if ← c then return none else p) g' := by
  intro start i
  constructor
  · intro hlast
    rw [hc.bind_apply (Nat.le_of_eq hlast)]
    cases b i with
    | true => rfl
    | false => exact (hp start i).1 hlast
  · intro hlt
    rw [hc.bind_apply (Nat.le_of_lt hlt), h i hlt]
    cases b i with
    | true => rfl
    | false => exact (hp start i).2 hlt

theorem picks_takeOnLine? {kind : TokenKind} (hkind : kind ≠ .eof) :
    x.Picks (Reading.takeOnLine? kind)
      fun c t => if t.kind = kind ∧ c.startsLine = false then some t else none := by
  refine picks_unless asks_startsLine (picks_takeKind hkind) fun i hlt => ?_
  cases (x.cursor i).startsLine <;> simp

theorem picks_takeOperator? {level : TokenKind → Option BinaryOperator} (hlevel : level .eof = none) :
    x.Picks (Reading.takeOperator? level)
      fun c t => if c.startsLine then none else level t.kind := by
  refine picks_unless asks_startsLine (picks_takeMap fun t ht => ?_) fun i hlt => rfl
  rw [ht, hlevel]

theorem asks_straysFrom (column : Nat) : x.Asks (Reading.straysFrom column) fun i =>
    (x.cursor i).startsLine && (x.cursor i).position.column ≠ column := by
  refine (asks_ite asks_startsLine (asks_column.bind fun _ => asks_pure _)
    (asks_pure false)).congr fun i _ => ?_
  cases (x.cursor i).startsLine <;> rfl

theorem picks_takeElse? (column : Nat) :
    x.Picks (Reading.takeElse? column) fun c t =>
      if t.kind = .elseKeyword ∧ (c.startsLine = false ∨ t.span.column = column) then some t
      else none := by
  refine picks_unless (asks_straysFrom column) (picks_takeKind (by decide)) fun i hlt => ?_
  have hcolumn : (x.cursor i).position.column = (x.token i).span.column := by
    rw [position_cursor (Nat.le_of_lt hlt)]
    rfl
  rw [hcolumn]
  cases (x.cursor i).startsLine <;> by_cases h : (x.token i).span.column = column <;> simp [h]

def Afterwards (P : Nat → Nat → Prop) : Bool → Nat → Nat → Prop
  | false => P
  | true => Inside

theorem mirrors_accept {kind : TokenKind} (hkind : kind ≠ .eof) :
    x.Mirrors P (Reading.accept kind) (Parser.accept kind) (Afterwards P) := by
  refine mirrors_bind (mirrors_take? (picks_takeKind hkind)) fun o => ?_
  cases o with
  | none => exact mirrors_pure fun _ _ h => h
  | some t => exact mirrors_pure fun _ _ h => h

theorem mirrors_expect {kind : TokenKind} (hkind : kind ≠ .eof) (expected : Expectation) :
    x.Mirrors P (Reading.expect kind expected) (Parser.expect kind expected) fun _ => Inside := by
  refine mirrors_bind (mirrors_take? (picks_takeOnLine? hkind)) fun o => ?_
  cases o with
  | none => exact mirrors_unexpected expected
  | some t => exact mirrors_pure fun _ _ h => h

theorem assignmentAhead_cursor (hlt : i < x.front.length) :
    (x.cursor i).assignmentAhead = ((x.token i).kind = .identifier &&
      (x.token (i + 1)).kind = .assign &&
        (x.token (i + 1)).span.line = (x.token i).span.endLine : Bool) := by
  obtain ⟨hlast, -⟩ | ⟨t, -, rfl, -, hahead, -⟩ := places (Nat.le_of_lt hlt)
  · omega
  · obtain ⟨-, hmark, hnone⟩ | ⟨e, -, rfl, -, hnext, -⟩ := places hlt
    · simp [Cursor.assignmentAhead, hahead, hnone, hmark, x.mark_kind]
    · simp [Cursor.assignmentAhead, hahead, hnext]

theorem lt_of_assignmentAhead (hi : i ≤ x.front.length) (h : (x.cursor i).assignmentAhead = true) :
    i + 1 < x.front.length := by
  obtain ⟨-, -, hahead⟩ | ⟨t, hlt, -⟩ := places hi
  · rw [Cursor.assignmentAhead, hahead] at h
    cases h
  · obtain ⟨-, hmark, -⟩ | ⟨e, hlt', -⟩ := places hlt
    · rw [assignmentAhead_cursor hlt, hmark, x.mark_kind] at h
      simp at h
    · exact hlt'

theorem assignmentAhead_apply (hlt : i < x.front.length) (hname : (x.token i).kind = .identifier) :
    Reading.assignmentAhead (x.reader start i) =
      some (.ok (x.cursor i).assignmentAhead, x.reader start i) := by
  -- A name is not the last token, so there is one behind it to look at.
  have hindex : min (i + 1) ((x.front ++ x.mark :: x.rest).length - 1) = i + 1 := by
    rw [List.length_append, List.length_cons]
    omega
  have hnext : Reading.peekNext (x.reader start i) = some (.ok (x.token (i + 1)), x.reader start i) :=
    token_apply hindex hlt
  rw [Reading.assignmentAhead, bind_eq_ok hnext, asks_peek.bind_apply (Nat.le_of_lt hlt),
    assignmentAhead_cursor hlt, hname]
  rfl

theorem takeTarget_cursor (c : Cursor) : Parser.takeTarget c =
    if c.assignmentAhead then some (.ok (c.ahead.head?.map (·.lexeme)), c.advance.advance)
    else some (.ok none, c) := by
  obtain ⟨previous, _ | ⟨t, _ | ⟨e, ts⟩⟩, finish⟩ := c
  · rfl
  · rfl
  · rfl

theorem takeTarget_apply (start : Nat) (hi : i ≤ x.front.length) : Reading.takeTarget (x.reader start i) =
    if (x.cursor i).assignmentAhead then some (.ok (some (x.token i).lexeme), x.reader start (i + 2))
    else some (.ok none, x.reader start i) := by
  rw [Reading.takeTarget, (asks_check .identifier).bind_apply hi]
  obtain ⟨-, htoken, hahead⟩ | ⟨t, hlt, -⟩ := places hi
  · have hnone : (x.cursor i).assignmentAhead = false := by rw [Cursor.assignmentAhead, hahead]
    rw [hnone, htoken, x.mark_kind]
    rfl
  · by_cases hname : (x.token i).kind = .identifier
    · rw [hname, decide_eq_true rfl, if_pos rfl, bind_eq_ok (assignmentAhead_apply hlt hname)]
      cases hfollows : (x.cursor i).assignmentAhead with
      | false => rfl
      | true =>
        rw [if_pos rfl, bind_eq_ok (advance_apply hlt),
          bind_eq_ok (advance_apply (lt_of_assignmentAhead hi hfollows))]
        rfl
    · rw [assignmentAhead_cursor hlt, decide_eq_false hname]
      rfl

theorem mirrors_takeTarget :
    x.Mirrors P Reading.takeTarget Parser.takeTarget (After P) := by
  intro start i hstart hi hpre r d hq
  rw [takeTarget_cursor] at hq
  have hp := takeTarget_apply start hi
  cases hfollows : (x.cursor i).assignmentAhead with
  | false =>
    rw [hfollows] at hq hp
    cases hq
    refine ⟨start, i, hstart, Nat.le_refl i, hi, rfl, hp, fun a ha => ?_⟩
    cases ha
    exact hpre
  | true =>
    have hlt' := lt_of_assignmentAhead hi hfollows
    obtain ⟨hlast, -⟩ | ⟨t, hlt, rfl, -, hahead, hadvance⟩ := places hi
    · omega
    · obtain ⟨hlast, -⟩ | ⟨e, -, -, -, -, hadvance'⟩ := places hlt
      · omega
      · rw [hfollows, hadvance, hadvance', hahead] at hq
        rw [hfollows] at hp
        cases hq
        refine ⟨start, i + 2, by omega, by omega, hlt', rfl, hp, fun a ha => ?_⟩
        cases ha
        exact Nat.lt_succ_of_le (Nat.le_succ_of_le hstart)

end Input

end IntScript.Grammar
