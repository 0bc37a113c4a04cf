import IntScript.Text.Alphabetic
import IntScript.Text.Numeric
import IntScript.Text.WhiteSpace
import IntScript.Token

/-!
How characters group into tokens, without regard to where they stand. Between tokens there is white space
and there are comments, from `#` to the end of the line. A token is as long as it can be: digits that run
into a letter make one name with it, and `==` is never two assignments. In a string a backslash takes the
next character with it. Reading a piece loses no character (`readPiece_append`) and takes at least one
(`readPiece_taken_ne_nil`).
-/

namespace IntScript.Token

def beginsName (c : Char) : Bool := Text.isAlphabetic c || c == '_'

def continuesName (c : Char) : Bool := Text.isAlphabetic c || Text.isNumeric c || c == '_'

/-- Splits off the white space and comments at the front. The flag tells that a comment is open. -/
def splitTrivia : Bool → List Char → List Char × List Char
  | _, [] => ([], [])
  | inComment, c :: cs =>
    let inComment := (inComment && c != '\n') || c == '#'
    if inComment || Text.isWhiteSpace c then
      let (skipped, rest) := splitTrivia inComment cs
      (c :: skipped, rest)
    else ([], c :: cs)

theorem splitTrivia_append (inComment : Bool) (cs : List Char) :
    (splitTrivia inComment cs).1 ++ (splitTrivia inComment cs).2 = cs := by
  induction cs generalizing inComment with
  | nil => rfl
  | cons c cs ih =>
    simp only [splitTrivia]
    split
    · exact congrArg (c :: ·) (ih _)
    · rfl

/-- A token without its place: its kind and lexeme, the characters it was read from, and what follows. -/
structure Piece where
  kind : TokenKind
  lexeme : List Char
  taken : List Char
  rest : List Char

def Piece.verbatim (kind : TokenKind) (taken rest : List Char) : Piece := ⟨kind, taken, taken, rest⟩

def symbolKind : Char → TokenKind
  | '+' => .plus
  | '-' => .minus
  | '*' => .star
  | '/' => .slash
  | '=' => .assign
  | '<' => .less
  | '>' => .greater
  | ',' => .comma
  | ':' => .colon
  | '(' => .lparen
  | ')' => .rparen
  | _ => .unknown

/-- The kind of a character together with an equals sign right after it. -/
def equalKind? : Char → Option TokenKind
  | '=' => some .equalEqual
  | '!' => some .bangEqual
  | '<' => some .lessEqual
  | '>' => some .greaterEqual
  | _ => none

def nameKind (name : List Char) : TokenKind :=
  (TokenKind.keyword? (String.ofList name)).getD .identifier

def unescape : Char → Char
  | 'n' => '\n'
  | 't' => '\t'
  | c => c

/-- Reads a string after its opening quote: the text it denotes, the characters up to the closing quote
and with it, and the rest. There is none without a closing quote. -/
def closeString : List Char → Option (List Char × List Char × List Char)
  | [] => none
  | '"' :: cs => some ([], ['"'], cs)
  | ['\\'] => none
  | '\\' :: c :: cs =>
    (closeString cs).map fun (text, taken, rest) => (unescape c :: text, '\\' :: c :: taken, rest)
  | c :: cs => (closeString cs).map fun (text, taken, rest) => (c :: text, c :: taken, rest)

def readWord? (cs : List Char) : Option Piece :=
  let digits := cs.takeWhile Char.isDigit
  let after := cs.dropWhile Char.isDigit
  if after.head?.any beginsName then
    let name := digits ++ after.takeWhile continuesName
    some (.verbatim (nameKind name) name (after.dropWhile continuesName))
  else if digits.isEmpty then none
  else some (.verbatim .integer digits after)

/-- Reads a name or a number from a text that starts with `c`, or else `c` alone. -/
def readWordOrSymbol (c : Char) (cs : List Char) : Piece :=
  (readWord? (c :: cs)).getD (.verbatim (symbolKind c) [c] cs)

def readPlain (c : Char) (cs : List Char) : Piece :=
  match equalKind? c, cs with
  | some kind, '=' :: rest => .verbatim kind [c, '='] rest
  | _, _ => readWordOrSymbol c cs

/-- Reads one token from a text that starts with `c`. There is none only for a string left open. -/
def readPiece (c : Char) (cs : List Char) : Option Piece :=
  if c = '"' then
    (closeString cs).map fun (text, taken, rest) => ⟨.string, text, '"' :: taken, rest⟩
  else some (readPlain c cs)

theorem continuesName_of_beginsName {c : Char} (h : beginsName c = true) :
    continuesName c = true := by
  simp only [beginsName, continuesName, Bool.or_eq_true] at h ⊢
  exact h.imp_left Or.inl

theorem closeString_append {cs text taken rest : List Char}
    (h : closeString cs = some (text, taken, rest)) : taken ++ rest = cs := by
  fun_induction closeString cs generalizing text taken rest with
  | case1 => simp at h
  | case2 => simp_all [eq_comm]
  | case3 => simp at h
  | case4 c cs ih =>
    obtain ⟨⟨text, taken, rest⟩, hcs, heq⟩ := Option.map_eq_some_iff.1 h
    simp only [Prod.mk.injEq] at heq
    obtain ⟨-, rfl, rfl⟩ := heq
    simp [ih hcs]
  | case5 c cs _ _ _ ih =>
    obtain ⟨⟨text, taken, rest⟩, hcs, heq⟩ := Option.map_eq_some_iff.1 h
    simp only [Prod.mk.injEq] at heq
    obtain ⟨-, rfl, rfl⟩ := heq
    simp [ih hcs]

theorem readWord?_append {cs : List Char} {p : Piece} (h : readWord? cs = some p) :
    p.taken ++ p.rest = cs := by
  simp only [readWord?] at h
  split at h
  · injection h with h
    subst h
    simp [Piece.verbatim, List.append_assoc]
  · split at h
    · simp at h
    · injection h with h
      subst h
      simp [Piece.verbatim]

theorem readWord?_taken_ne_nil {cs : List Char} {p : Piece} (h : readWord? cs = some p) :
    p.taken ≠ [] := by
  simp only [readWord?] at h
  split at h
  next hname =>
    injection h with h
    subst h
    cases hafter : cs.dropWhile Char.isDigit with
    | nil => simp [hafter] at hname
    | cons d ds =>
      have hd : beginsName d = true := by simpa [hafter] using hname
      simp [Piece.verbatim, continuesName_of_beginsName hd]
  next =>
    split at h
    next => simp at h
    next hdigits =>
      injection h with h
      subst h
      simpa [Piece.verbatim, List.isEmpty_iff] using hdigits

theorem readWordOrSymbol_append (c : Char) (cs : List Char) :
    (readWordOrSymbol c cs).taken ++ (readWordOrSymbol c cs).rest = c :: cs := by
  unfold readWordOrSymbol
  cases hw : readWord? (c :: cs) with
  | none => rfl
  | some w => exact readWord?_append hw

theorem readWordOrSymbol_taken_ne_nil (c : Char) (cs : List Char) :
    (readWordOrSymbol c cs).taken ≠ [] := by
  unfold readWordOrSymbol
  cases hw : readWord? (c :: cs) with
  | none => simp [Piece.verbatim]
  | some w => exact readWord?_taken_ne_nil hw

theorem readPlain_append (c : Char) (cs : List Char) :
    (readPlain c cs).taken ++ (readPlain c cs).rest = c :: cs := by
  unfold readPlain
  split
  · rfl
  · exact readWordOrSymbol_append c _

theorem readPlain_taken_ne_nil (c : Char) (cs : List Char) : (readPlain c cs).taken ≠ [] := by
  unfold readPlain
  split
  · simp [Piece.verbatim]
  · exact readWordOrSymbol_taken_ne_nil c _

theorem readPiece_append {c : Char} {cs : List Char} {p : Piece} (h : readPiece c cs = some p) :
    p.taken ++ p.rest = c :: cs := by
  unfold readPiece at h
  split at h
  · obtain ⟨⟨text, taken, rest⟩, hcs, rfl⟩ := Option.map_eq_some_iff.1 h
    simp_all [closeString_append hcs]
  · injection h with h
    exact h ▸ readPlain_append c cs

theorem readPiece_taken_ne_nil {c : Char} {cs : List Char} {p : Piece}
    (h : readPiece c cs = some p) : p.taken ≠ [] := by
  unfold readPiece at h
  split at h
  · obtain ⟨⟨text, taken, rest⟩, -, rfl⟩ := Option.map_eq_some_iff.1 h
    simp
  · injection h with h
    exact h ▸ readPlain_taken_ne_nil c cs

end IntScript.Token
