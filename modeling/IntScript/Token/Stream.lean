import IntScript.Token.Scan

/-!
The tokens of a text, one after the other, each with its place. A stream that is asked again after its end
mark gives the end mark again; after a string that was left open only the end mark follows, because the
string has taken the rest of the text. `tokenize` reads a whole text.
-/

namespace IntScript

/-- A point in a text: bytes before it, its line (from 1) and its column (characters, from 0). -/
structure Place where
  offset : Nat
  line : Nat
  column : Nat
deriving DecidableEq

namespace Place

def front : Place := ⟨0, 1, 0⟩

/-- The point behind one more character. Only a newline ends a line. -/
def step (p : Place) (c : Char) : Place :=
  if c = '\n' then ⟨p.offset + c.utf8Size, p.line + 1, 0⟩
  else ⟨p.offset + c.utf8Size, p.line, p.column + 1⟩

def past (p : Place) (cs : List Char) : Place := cs.foldl step p

@[simp] theorem past_nil (p : Place) : p.past [] = p := rfl

@[simp] theorem past_cons (p : Place) (c : Char) (cs : List Char) :
    p.past (c :: cs) = (p.step c).past cs := rfl

theorem past_append (p : Place) (cs ds : List Char) : p.past (cs ++ ds) = (p.past cs).past ds :=
  List.foldl_append

end Place

inductive LexError where
  /-- The string that opens at this line and column has no closing quote. -/
  | unterminatedString (line column : Nat)
deriving DecidableEq

def LexError.message : LexError → String
  | unterminatedString line column =>
    s!"Unterminated string literal at line {line}, column {column}"

namespace Token

def ofPiece (p : Piece) (start stop : Place) : Token :=
  ⟨p.kind, String.ofList p.lexeme,
    ⟨start.offset, stop.offset, start.line, start.column, stop.line⟩⟩

def endMark (p : Place) : Token := ⟨.eof, "", ⟨p.offset, p.offset, p.line, p.column, p.line⟩⟩

/-- A text that is being read: where reading stands, what is left, and whether the end mark was given. -/
structure Stream where
  place : Place
  rest : List Char
  ended : Bool

namespace Stream

def ofString (source : String) : Stream := ⟨.front, source.toList, false⟩

/-- The next token. At the end of the text that is the end mark, however often it was given before. -/
def nextToken (s : Stream) : Except LexError Token × Stream :=
  let (skipped, rest) := splitTrivia false s.rest
  let start := s.place.past skipped
  match rest with
  | [] => (.ok (endMark start), ⟨start, [], true⟩)
  | c :: cs =>
    match readPiece c cs with
    | none => (.error (.unterminatedString start.line start.column),
        ⟨start.past (c :: cs), [], s.ended⟩)
    | some p =>
      let stop := start.past p.taken
      (.ok (ofPiece p start stop), ⟨stop, p.rest, s.ended⟩)

def next (s : Stream) : Option (Except LexError Token) × Stream :=
  if s.ended then (none, s)
  else
    let (token, s') := s.nextToken
    (some token, s')

theorem rest_lt_of_nextToken {s s' : Stream} {t : Token} (h : s.nextToken = (.ok t, s'))
    (hend : s'.ended = false) : s'.rest.length < s.rest.length := by
  have hskip := splitTrivia_append false s.rest
  unfold nextToken at h
  cases hrest : (splitTrivia false s.rest).2 with
  | nil =>
    simp only [hrest, Prod.mk.injEq] at h
    simp [← h.2] at hend
  | cons c cs =>
    simp only [hrest] at h
    cases hp : readPiece c cs with
    | none => simp [hp] at h
    | some p =>
      simp only [hp, Prod.mk.injEq] at h
      have htaken := List.length_pos_iff.2 (readPiece_taken_ne_nil hp)
      have hlen := congrArg List.length (readPiece_append hp)
      rw [← hskip, ← h.2, hrest]
      simp only [List.length_append, List.length_cons] at hlen ⊢
      omega

def tokens (s : Stream) : Except LexError (List Token) :=
  match h : s.nextToken with
  | (.error e, _) => .error e
  | (.ok t, s') =>
    if hend : s'.ended then .ok [t]
    else
      have := rest_lt_of_nextToken h (by simpa using hend)
      do return t :: (← s'.tokens)
termination_by s.rest.length

end Stream

/-- The tokens of a text. The last one, and no other, is an end mark. -/
def tokenize (source : String) : Except LexError (List Token) := (Stream.ofString source).tokens

end Token

end IntScript
