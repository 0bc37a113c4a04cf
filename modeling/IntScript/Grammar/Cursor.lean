import IntScript.Action
import IntScript.Grammar.SyntaxError

/-!
A cursor in a list of tokens, and the questions that layout asks of it. There are no tokens for line ends
or indentation: a token begins a line when it stands on a later line than the one before it ends on. The
list is cut at its first end mark, so no reading goes past that. What reads from a cursor never puts a token
back, and `Advances` says by how many tokens it moves on.
-/

namespace IntScript.Grammar

/-- The token taken last, the tokens ahead, and the position of the end mark behind them. -/
structure Cursor where
  previous : Option Token
  ahead : List Token
  finish : Position

namespace Cursor

/-- Where the end mark of a list stands: where its first one is or, if it has none, behind its last token,
whose column and length are taken to have a sum that does not overflow. -/
def finishOf (ts : List Token) : Position :=
  match ts.find? (·.kind = .eof), ts.getLast? with
  | some mark, _ => mark.position
  | none, some last => ⟨last.span.endLine, last.span.column + last.lexeme.length⟩
  | none, none => ⟨0, 0⟩

def ofTokens (ts : List Token) : Cursor := ⟨none, ts.takeWhile (·.kind ≠ .eof), finishOf ts⟩

def size (c : Cursor) : Nat := c.ahead.length

def atEnd (c : Cursor) : Bool := c.ahead.isEmpty

def position (c : Cursor) : Position :=
  match c.ahead with
  | [] => c.finish
  | t :: _ => t.position

def found (c : Cursor) : Found :=
  match c.ahead with
  | [] => .endOfFile
  | t :: _ => .token t.kind t.lexeme

def nextIs (c : Cursor) (kind : TokenKind) : Bool :=
  match c.ahead with
  | [] => false
  | t :: _ => t.kind = kind

def startsLine (c : Cursor) : Bool :=
  match c.previous with
  | none => true
  | some t => t.span.endLine < c.position.line

def endsStatement (c : Cursor) : Bool := c.atEnd || c.startsLine

def advance (c : Cursor) : Cursor :=
  match c.ahead with
  | [] => c
  | t :: ts => ⟨some t, ts, c.finish⟩

/-- The next token is a name, and an equals sign follows on the line on which that ends. -/
def assignmentAhead (c : Cursor) : Bool :=
  match c.ahead with
  | t :: e :: _ => t.kind = .identifier && e.kind = .assign && e.span.line = t.span.endLine
  | _ => false

inductive Fit where
  /-- At a statement of the block. -/
  | within
  /-- Behind the block. -/
  | behind
  /-- At a line that is indented too far. -/
  | deeper
deriving DecidableEq

/-- Lines of a block begin at its column. A line further left ends it, as does the end mark. -/
def fit (c : Cursor) (column : Nat) : Fit :=
  if c.atEnd then .behind
  else if !c.startsLine then .within
  else if c.position.column < column then .behind
  else if column < c.position.column then .deeper
  else .within

def seekLine (column : Nat) (finish : Position) : Option Token → List Token → Cursor
  | previous, [] => ⟨previous, [], finish⟩
  | previous, t :: ts =>
    if (Cursor.mk previous (t :: ts) finish).startsLine && t.span.column ≤ column then
      ⟨previous, t :: ts, finish⟩
    else seekLine column finish (some t) ts

/-- Drops the next token, then goes on to the first line at or left of the column. -/
def resume (c : Cursor) (column : Nat) : Cursor :=
  seekLine column c.finish c.advance.previous c.advance.ahead

@[simp] theorem size_advance (c : Cursor) : c.advance.size = c.size - 1 := by
  rcases c with ⟨p, _ | ⟨t, ts⟩, f⟩ <;> simp [advance, size]

theorem atEnd_iff (c : Cursor) : c.atEnd = true ↔ c.size = 0 := by
  simp [atEnd, size, List.isEmpty_iff, List.length_eq_zero_iff]

theorem size_seekLine_le (column : Nat) (finish : Position) (previous : Option Token)
    (ts : List Token) : (seekLine column finish previous ts).size ≤ ts.length := by
  induction ts generalizing previous with
  | nil => simp [seekLine, size]
  | cons t ts ih =>
    unfold seekLine
    split
    · simp [size]
    · exact Nat.le_succ_of_le (ih (some t))

theorem size_resume_le (c : Cursor) (column : Nat) : (c.resume column).size ≤ c.size - 1 := by
  rw [← size_advance]
  exact size_seekLine_le ..

end Cursor

abbrev Parser := Action Cursor SyntaxError

namespace Parser

variable {α β : Type}

def failHere (fault : Fault) : Parser α := fun c => Action.fail ⟨fault, c.position⟩ c

def unexpected (expected : Expectation) : Parser α := fun c =>
  failHere (.unexpectedToken expected c.found) c

def take? (f : Cursor → Token → Option α) : Parser (Option α) := fun c =>
  match c.ahead with
  | [] => some (.ok none, c)
  | t :: _ =>
    match f c t with
    | none => some (.ok none, c)
    | some a => some (.ok (some a), c.advance)

def accept (kind : TokenKind) : Parser Bool := do
  return (← take? fun _ t => if t.kind = kind then some t else none).isSome

def takeOnLine? (kind : TokenKind) : Parser (Option Token) :=
  take? fun c t => if t.kind = kind ∧ c.startsLine = false then some t else none

def expect (kind : TokenKind) (expected : Expectation) : Parser Token := do
  match ← takeOnLine? kind with
  | some t => return t
  | none => unexpected expected

def takeTarget : Parser (Option String) := fun c =>
  match c.ahead with
  | t :: e :: ts => if c.assignmentAhead then some (.ok (some t.lexeme), ⟨some e, ts, c.finish⟩)
    else some (.ok none, c)
  | _ => some (.ok none, c)

/-- On every cursor with at most `m` tokens ahead `p` has an answer, goes never back, and moves on by
at least `k a` tokens for a value `a`. -/
def Advances (m : Nat) (p : Parser α) (k : α → Nat) : Prop :=
  ∀ c : Cursor, c.size ≤ m → ∃ r c', p c = some (r, c') ∧ c'.size ≤ c.size ∧
    ∀ a, r = .ok a → c'.size + k a ≤ c.size

theorem Advances.mono {m m' : Nat} {p : Parser α} {k k' : α → Nat} (h : Advances m p k)
    (hm : m' ≤ m) (hk : ∀ a, k' a ≤ k a) : Advances m' p k' := by
  intro c hc
  obtain ⟨r, c', hp, hle, hok⟩ := h c (Nat.le_trans hc hm)
  exact ⟨r, c', hp, hle, fun a ha => Nat.le_trans (Nat.add_le_add_left (hk a) _) (hok a ha)⟩

theorem advances_pure {m : Nat} {a : α} {k : α → Nat} (hk : k a = 0) :
    Advances m (pure a : Parser α) k :=
  fun c _ => ⟨.ok a, c, rfl, Nat.le_refl _, fun b hb => by cases hb; omega⟩

theorem advances_fail (m : Nat) (e : SyntaxError) (k : α → Nat) :
    Advances m (Action.fail e : Parser α) k :=
  fun c _ => ⟨.error e, c, rfl, Nat.le_refl _, fun _ h => nomatch h⟩

theorem advances_failHere (m : Nat) (fault : Fault) (k : α → Nat) :
    Advances m (failHere fault : Parser α) k :=
  fun c _ => ⟨_, c, rfl, Nat.le_refl _, fun _ h => nomatch h⟩

theorem advances_unexpected (m : Nat) (expected : Expectation) (k : α → Nat) :
    Advances m (unexpected expected : Parser α) k :=
  fun c _ => ⟨_, c, rfl, Nat.le_refl _, fun _ h => nomatch h⟩

theorem advances_read (m : Nat) (f : Cursor → α) :
    Advances m (Action.read f : Parser α) fun _ => 0 :=
  fun c _ => ⟨_, c, rfl, Nat.le_refl _, fun _ _ => Nat.le_refl _⟩

theorem Advances.bind {m : Nat} {p : Parser α} {f : α → Parser β} {j : α → Nat} {k : β → Nat}
    (hp : Advances m p j) (hf : ∀ a, j a ≤ m → Advances (m - j a) (f a) fun b => k b - j a) :
    Advances m (p >>= f) k := by
  intro c hc
  obtain ⟨r, c', hpc, hle, hok⟩ := hp c hc
  cases r with
  | error e => exact ⟨.error e, c', Action.bind_eq_error hpc, hle, fun _ h => nomatch h⟩
  | ok a =>
    have hj := hok a rfl
    obtain ⟨r, c'', hfc, hle', hok'⟩ := hf a (by omega) c' (by omega)
    refine ⟨r, c'', (Action.bind_eq_ok hpc).trans hfc, Nat.le_trans hle' hle, fun b hb => ?_⟩
    have hk := hok' b hb
    simp only at hk
    omega

theorem Advances.bind_same {m : Nat} {p : Parser α} {f : α → Parser β} {k : β → Nat}
    (hp : Advances m p fun _ => 0) (hf : ∀ a, Advances m (f a) k) : Advances m (p >>= f) k :=
  hp.bind fun a _ => hf a

theorem advances_take? (m : Nat) (f : Cursor → Token → Option α) :
    Advances m (take? f) fun o => if o.isSome then 1 else 0 := by
  rintro ⟨p, _ | ⟨t, ts⟩, e⟩ -
  · exact ⟨_, _, rfl, Nat.le_refl _, fun a h => by cases h; exact Nat.le_refl _⟩
  · unfold take?
    simp only
    split
    · exact ⟨_, _, rfl, Nat.le_refl _, fun a h => by cases h; exact Nat.le_refl _⟩
    · exact ⟨_, _, rfl, by simp [Cursor.size, Cursor.advance], fun a h => by
        cases h; simp [Cursor.size, Cursor.advance]⟩

theorem advances_accept (m : Nat) (kind : TokenKind) :
    Advances m (accept kind) fun b => if b then 1 else 0 :=
  (advances_take? m _).bind fun _ _ => advances_pure (Nat.sub_self _)

theorem advances_takeOnLine? (m : Nat) (kind : TokenKind) :
    Advances m (takeOnLine? kind) fun o => if o.isSome then 1 else 0 :=
  advances_take? m _

theorem advances_expect (m : Nat) (kind : TokenKind) (expected : Expectation) :
    Advances m (expect kind expected) fun _ => 1 :=
  (advances_takeOnLine? m _).bind fun
    | some _, _ => advances_pure rfl
    | none, _ => advances_unexpected _ _ _

theorem advances_takeTarget (m : Nat) :
    Advances m takeTarget fun o => if o.isSome then 2 else 0 := by
  rintro ⟨p, _ | ⟨t, _ | ⟨e, ts⟩⟩, f⟩ -
  · exact ⟨_, _, rfl, Nat.le_refl _, fun a h => by cases h; exact Nat.le_refl _⟩
  · exact ⟨_, _, rfl, Nat.le_refl _, fun a h => by cases h; exact Nat.le_refl _⟩
  · unfold takeTarget
    simp only
    split
    · exact ⟨_, _, rfl, by simp [Cursor.size]; omega, fun a h => by cases h; simp [Cursor.size]⟩
    · exact ⟨_, _, rfl, Nat.le_refl _, fun a h => by cases h; exact Nat.le_refl _⟩

end Parser

end IntScript.Grammar
