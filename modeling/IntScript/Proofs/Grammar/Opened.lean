import IntScript.Grammar.Program
import IntScript.Proofs.Action.Triple
import IntScript.Proofs.Grammar.Takings
import IntScript.Proofs.Tree.Parts

/-!
# Reading with a record

The parsers of statements once more, keeping a record of the tokens that they take and of the blocks that
they open. What is recorded stays when reading fails. Apart from the record they do what the others do
(`Tracer.follows_program`), and each block of the tree has been recorded (`Tracer.counts_program`).
-/

namespace IntScript.Grammar

structure Trail where
  cursor : Cursor
  read : List Taking
  opened : List Opening

def Trail.takeTo (s : Trail) (frames : List Frame) (c : Cursor) : Trail :=
  let ts := s.cursor.ahead.take (s.cursor.size - c.size)
  ⟨c, (ts.map (⟨·, frames⟩)).reverse ++ s.read, s.opened⟩

abbrev Tracer (α : Type) : Type := Action Trail SyntaxError α

namespace Tracer

open IntScript.Action

variable {α β : Type}

def look (f : Cursor → α) : Tracer α := Action.read fun s => f s.cursor

def lift (frames : List Frame) (p : Parser α) : Tracer α := fun s =>
  (p s.cursor).map fun (r, c) => (r, s.takeTo frames c)

def opens (o : Opening) : Tracer Unit := Action.modify fun s => { s with opened := o :: s.opened }

def linesAt (statement : List Frame → Tracer Statement) (column : Nat) (around : List Frame) :
    Nat → Tracer (List Statement)
  | 0 => Action.stuck
  | n + 1 => do
    match ← look (·.fit column) with
    | .behind => return []
    | .deeper => lift around (Parser.failHere .unexpectedIndent)
    | .within =>
      let start ← Action.read (·.read.length)
      let s ← statement (⟨column, start⟩ :: around)
      return s :: (← linesAt statement column around n)

def indentedBlock (statement : List Frame → Tracer Statement) (construct : Construct)
    (frames : List Frame) (header : Token) (n : Nat) : Tracer Statement := do
  if ← look fun c => c.atEnd || c.position.column ≤ header.span.column then
    lift frames (Parser.failHere (.expectedIndentedBlock construct))
  else
    let column ← look (·.position.column)
    opens ⟨header, column, frames, ← Action.read (·.read)⟩
    return .block (← linesAt statement column frames n)

def body (statement : List Frame → Tracer Statement) (construct : Construct) (frames : List Frame)
    (header : Token) (n : Nat) : Tracer Statement := do
  let _ ← lift frames (Parser.takeOnLine? .colon)
  if ← look Cursor.endsStatement then indentedBlock statement construct frames header n
  else statement frames

def ifStatement (statement : List Frame → Tracer Statement) (frames : List Frame) (header : Token)
    (n : Nat) : Tracer Statement := do
  let condition ← lift frames (Parser.expression n)
  let thenBranch ← body statement .ifBranch frames header n
  match ← lift frames (Parser.takeElse? header.span.column) with
  | none => return .ifElse condition thenBranch none
  | some t => return .ifElse condition thenBranch (← body statement .elseBranch frames t n)

def defStatement (statement : List Frame → Tracer Statement) (frames : List Frame) (header : Token)
    (n : Nat) : Tracer Statement := do
  let name ← lift frames (Parser.expect .identifier .functionName)
  let _ ← lift frames (Parser.expect .lparen .parenAfterName)
  let names ← lift frames
    (Parser.untilParen (Parser.parameters name.lexeme n []) .parenAfterParameters)
  return .define name.lexeme names (← body statement (.function name.lexeme) frames header n)

def openStatement (statement : List Frame → Tracer Statement) (frames : List Frame) (n : Nat) :
    Tracer Statement := do
  match ← lift frames (Parser.take? fun _ t => if beginsStatement t.kind then some t else none) with
  | none => lift frames (Parser.plainStatement n)
  | some t =>
    match t.kind with
    | .print => lift frames (Parser.printStatement n)
    | .ifKeyword => ifStatement statement frames t n
    | .defKeyword => defStatement statement frames t n
    | _ => lift frames (Parser.returnStatement n)

/-- The innermost of some statements. -/
def statement : Nat → List Frame → Tracer Statement
  | 0, _ => Action.stuck
  | n + 1, frames => do
    let s ← openStatement (statement n) frames (n + 1)
    let _ ← lift frames Parser.endOfStatement
    return s

def program (n : Nat) : Tracer Statement := do
  let column ← look (·.position.column)
  let statements ← linesAt (statement n) column [] n
  if ← look Cursor.atEnd then return .block statements
  else lift [] (Parser.unexpected .topLevelStatement)

section Follows

def Follows (q : Tracer α) (p : Parser α) : Prop :=
  ∀ s, (q s).map (fun (r, s') => (r, s'.cursor)) = p s.cursor

theorem follows_lift (frames : List Frame) (p : Parser α) : Follows (lift frames p) p := by
  intro s
  rw [lift]
  cases p s.cursor <;> rfl

theorem follows_look (f : Cursor → α) : Follows (look f) (Action.read f) := fun _ => rfl

theorem follows_pure (a : α) : Follows (pure a) (pure a) := fun _ => rfl

theorem follows_stuck : Follows (stuck : Tracer α) stuck := fun _ => rfl

theorem follows_bind {q : Tracer α} {p : Parser α} {f : α → Tracer β} {g : α → Parser β}
    (h : Follows q p) (hfg : ∀ a, Follows (f a) (g a)) : Follows (q >>= f) (p >>= g) := by
  intro s
  have hs := h s
  rw [bind_apply, bind_apply, ← hs]
  rcases q s with _ | ⟨_ | a, s'⟩
  · rfl
  · rfl
  · exact hfg a s'

theorem follows_read {p : Parser α} {f : β → Tracer α} (g : Trail → β) (h : ∀ b, Follows (f b) p) :
    Follows (Action.read g >>= f) p :=
  fun s => h (g s) s

theorem follows_opens {p : Parser α} {q : Tracer α} (o : Opening) (h : Follows q p) :
    Follows (opens o >>= fun _ => q) p :=
  fun s => h { s with opened := o :: s.opened }

variable {q : List Frame → Tracer Statement} {p : Parser Statement} (h : ∀ frames, Follows (q frames) p)
include h

theorem follows_linesAt (column : Nat) (around : List Frame) (n : Nat) :
    Follows (linesAt q column around n) (Parser.linesAt p column n) := by
  induction n with
  | zero => exact follows_stuck
  | succ n ih =>
    refine follows_bind (follows_look _) fun fit => ?_
    cases fit with
    | behind => exact follows_pure _
    | deeper => exact follows_lift _ _
    | within =>
      refine follows_read _ fun start => ?_
      exact follows_bind (h _) fun s => follows_bind ih fun ss => follows_pure _

theorem follows_indentedBlock (construct : Construct) (frames : List Frame) (header : Token)
    (n : Nat) : Follows (indentedBlock q construct frames header n)
      (Parser.indentedBlock p construct header.span.column n) := by
  refine follows_bind (follows_look _) fun shallow => ?_
  cases shallow with
  | true => exact follows_lift _ _
  | false =>
    refine follows_bind (follows_look _) fun column => follows_read _ fun past => ?_
    exact follows_opens _ (follows_bind (follows_linesAt h column frames n) fun ss => follows_pure _)

theorem follows_body (construct : Construct) (frames : List Frame) (header : Token) (n : Nat) :
    Follows (body q construct frames header n) (Parser.body p construct header.span.column n) := by
  refine follows_bind (follows_lift _ _) fun _ => follows_bind (follows_look _) fun ends => ?_
  cases ends with
  | false => exact h frames
  | true => exact follows_indentedBlock h construct frames header n

theorem follows_ifStatement (frames : List Frame) (header : Token) (n : Nat) :
    Follows (ifStatement q frames header n) (Parser.ifStatement p header.span.column n) := by
  refine follows_bind (follows_lift _ _) fun condition =>
    follows_bind (follows_body h _ _ _ _) fun thenBranch =>
      follows_bind (follows_lift _ _) fun o => ?_
  cases o with
  | none => exact follows_pure _
  | some t => exact follows_bind (follows_body h _ _ _ _) fun elseBranch => follows_pure _

theorem follows_defStatement (frames : List Frame) (header : Token) (n : Nat) :
    Follows (defStatement q frames header n) (Parser.defStatement p header.span.column n) :=
  follows_bind (follows_lift _ _) fun _ => follows_bind (follows_lift _ _) fun _ =>
    follows_bind (follows_lift _ _) fun _ => follows_bind (follows_body h _ _ _ _) fun _ =>
      follows_pure _

theorem follows_openStatement (frames : List Frame) (n : Nat) :
    Follows (openStatement q frames n) (Parser.openStatement p n) := by
  refine follows_bind (follows_lift _ _) fun o => ?_
  cases o with
  | none => exact follows_lift _ _
  | some t =>
    dsimp only
    generalize t.kind = kind
    cases kind with
    | ifKeyword => exact follows_ifStatement h frames _ n
    | defKeyword => exact follows_defStatement h frames _ n
    | _ => exact follows_lift _ _

omit h in
theorem follows_statement (n : Nat) (frames : List Frame) :
    Follows (statement n frames) (Parser.statement n) := by
  induction n generalizing frames with
  | zero => exact follows_stuck
  | succ n ih =>
    exact follows_bind (follows_openStatement ih frames _) fun s =>
      follows_bind (follows_lift _ _) fun _ => follows_pure s

omit h in
/-- The record changes nothing in what is read. -/
theorem follows_program (n : Nat) : Follows (program n) (Parser.program n) := by
  refine follows_bind (follows_look _) fun column =>
    follows_bind (follows_linesAt (follows_statement n) column [] n) fun ss =>
      follows_bind (follows_look _) fun ended => ?_
  cases ended with
  | false => exact follows_lift _ _
  | true => exact follows_pure _

end Follows

section Counts

/-- As many blocks are recorded as the value counts, less those that were recorded before. -/
def Counts (before : Nat) (q : Tracer α) (count : α → Nat) : Prop :=
  ∀ s a s', q s = some (.ok a, s') → s'.opened.length + before = s.opened.length + count a

variable {before : Nat} {count : α → Nat} {countOf : β → Nat}

theorem counts_lift {p : Parser α} (frames : List Frame)
    (h : ∀ c a c', p c = some (.ok a, c') → count a = before) : Counts before (lift frames p) count := by
  intro s a s' hq
  obtain ⟨⟨r, c⟩, hread, heq⟩ := Option.map_eq_some_iff.1 hq
  cases heq
  rw [h _ _ _ hread]
  rfl

theorem counts_skip {p : Parser α} (frames : List Frame) : Counts 0 (lift frames p) fun _ => 0 :=
  counts_lift frames fun _ _ _ _ => rfl

theorem counts_pure {a : α} (h : count a = before) : Counts before (pure a) count := by
  intro s b s' hq
  cases hq
  rw [h]

theorem counts_stuck : Counts before (stuck : Tracer α) count := by
  intro s a s' hq
  cases hq

theorem counts_bind {q : Tracer β} {f : β → Tracer α} (hq : Counts 0 q countOf)
    (hf : ∀ b, Counts (before + countOf b) (f b) count) : Counts before (q >>= f) count := by
  intro s a s' hp
  rcases bind_eq_some_iff.1 hp with ⟨e, -, he⟩ | ⟨b, s₁, hb, ha⟩
  · cases he
  · have hleft := hq s b s₁ hb
    have hright := hf b s₁ a s' ha
    omega

theorem counts_read {f : β → Tracer α} (g : Trail → β) (h : ∀ b, Counts before (f b) count) :
    Counts before (Action.read g >>= f) count :=
  fun s => h (g s) s

theorem counts_opens (o : Opening) : Counts 0 (opens o) fun _ => 1 := by
  intro s a s' hq
  cases hq
  rfl

theorem counts_plain {p : Parser Statement} (frames : List Frame)
    (h : ∀ c s c', p c = some (.ok s, c') → s.blockCount = 0) :
    Counts 0 (lift frames p) Statement.blockCount :=
  counts_lift frames h

theorem blockCount_map {p : Parser α} {make : α → Statement} (hmake : ∀ a, (make a).blockCount = 0)
    (c : Cursor) (s : Statement) (c' : Cursor) (h : (do return make (← p)) c = some (.ok s, c')) :
    s.blockCount = 0 := by
  rcases bind_eq_some_iff.1 h with ⟨e, -, he⟩ | ⟨a, d, -, h⟩
  · cases he
  · cases h
    exact hmake a

theorem blockCount_plainStatement (n : Nat) (c : Cursor) (s : Statement) (c' : Cursor)
    (h : Parser.plainStatement n c = some (.ok s, c')) : s.blockCount = 0 := by
  rcases bind_eq_some_iff.1 h with ⟨e, -, he⟩ | ⟨o, d, -, h⟩
  · cases he
  · cases o with
    | none => exact blockCount_map (fun _ => rfl) d s c' h
    | some name => exact blockCount_map (fun _ => rfl) d s c' h

variable {q : List Frame → Tracer Statement} (h : ∀ frames, Counts 0 (q frames) Statement.blockCount)
include h

theorem counts_linesAt (column : Nat) (around : List Frame) (n : Nat) :
    Counts 0 (linesAt q column around n) Statement.blockCountOf := by
  induction n with
  | zero => exact counts_stuck
  | succ n ih =>
    refine counts_read _ fun fit => ?_
    cases fit with
    | behind => exact counts_pure rfl
    | deeper => exact counts_lift _ fun c a c' hread => by cases hread
    | within =>
      refine counts_read _ fun start => counts_bind (h _) fun s => counts_bind ih fun ss => ?_
      exact counts_pure (by simp [Statement.blockCountOf])

theorem counts_indentedBlock (construct : Construct) (frames : List Frame) (header : Token)
    (n : Nat) : Counts 0 (indentedBlock q construct frames header n) Statement.blockCount := by
  refine counts_read _ fun shallow => ?_
  cases shallow with
  | true => exact counts_lift _ fun c a c' hread => by cases hread
  | false =>
    refine counts_read _ fun column => counts_read _ fun past =>
      counts_bind (counts_opens _) fun _ => ?_
    exact counts_bind (counts_linesAt h column frames n) fun ss =>
      counts_pure (by simp [Statement.blockCount])

theorem counts_body (construct : Construct) (frames : List Frame) (header : Token) (n : Nat) :
    Counts 0 (body q construct frames header n) Statement.blockCount := by
  refine counts_bind (counts_skip frames) fun _ => counts_read _ fun ends => ?_
  cases ends with
  | false => exact h frames
  | true => exact counts_indentedBlock h construct frames header n

theorem counts_ifStatement (frames : List Frame) (header : Token) (n : Nat) :
    Counts 0 (ifStatement q frames header n) Statement.blockCount := by
  refine counts_bind (counts_skip frames) fun condition =>
    counts_bind (counts_body h _ _ _ _) fun thenBranch => counts_bind (counts_skip frames) fun o => ?_
  cases o with
  | none => exact counts_pure (by simp [Statement.blockCount, Statement.branchBlockCount])
  | some t =>
    exact counts_bind (counts_body h _ _ _ _) fun elseBranch =>
      counts_pure (by simp [Statement.blockCount, Statement.branchBlockCount])

theorem counts_defStatement (frames : List Frame) (header : Token) (n : Nat) :
    Counts 0 (defStatement q frames header n) Statement.blockCount :=
  counts_bind (counts_skip frames) fun _ => counts_bind (counts_skip frames) fun _ =>
    counts_bind (counts_skip frames) fun _ => counts_bind (counts_body h _ _ _ _) fun _ =>
      counts_pure (by simp [Statement.blockCount])

theorem counts_openStatement (frames : List Frame) (n : Nat) :
    Counts 0 (openStatement q frames n) Statement.blockCount := by
  refine counts_bind (counts_skip frames) fun o => ?_
  cases o with
  | none => exact counts_plain frames (blockCount_plainStatement n)
  | some t =>
    dsimp only
    split
    · exact counts_plain frames (blockCount_map fun _ => rfl)
    · exact counts_ifStatement h frames t n
    · exact counts_defStatement h frames t n
    · exact counts_plain frames (blockCount_map fun _ => rfl)

omit h in
theorem counts_statement (n : Nat) (frames : List Frame) :
    Counts 0 (statement n frames) Statement.blockCount := by
  induction n generalizing frames with
  | zero => exact counts_stuck
  | succ n ih =>
    refine counts_bind (counts_openStatement ih frames _) fun s =>
      counts_bind (counts_skip frames) fun _ => ?_
    exact counts_pure (by simp)

omit h in
/-- A program has one block that is not recorded, which holds its lines. -/
theorem counts_program (n : Nat) : Counts 1 (program n) Statement.blockCount := by
  refine counts_read _ fun column =>
    counts_bind (counts_linesAt (counts_statement n) column [] n) fun ss =>
      counts_read _ fun ended => ?_
  cases ended with
  | false => exact counts_lift _ fun c a c' hread => by cases hread
  | true => exact counts_pure (by simp [Statement.blockCount])

end Counts

end Tracer

end IntScript.Grammar
