import IntScript.Proofs.Token.Pieces

/-!
# Tokens to be written

A glyph says how a token is spelled. It is legible if its spelling, which stays on one line, is read as
the token. Signs, keywords, names, texts and literals without a sign all have legible glyphs.
-/

namespace IntScript

def TokenKind.spelling : TokenKind → List Char
  | print => ['p', 'r', 'i', 'n', 't']
  | ifKeyword => ['i', 'f']
  | elseKeyword => ['e', 'l', 's', 'e']
  | defKeyword => ['d', 'e', 'f']
  | returnKeyword => ['r', 'e', 't', 'u', 'r', 'n']
  | plus => ['+']
  | minus => ['-']
  | star => ['*']
  | slash => ['/']
  | assign => ['=']
  | equalEqual => ['=', '=']
  | bangEqual => ['!', '=']
  | less => ['<']
  | lessEqual => ['<', '=']
  | greater => ['>']
  | greaterEqual => ['>', '=']
  | comma => [',']
  | colon => [':']
  | lparen => ['(']
  | rparen => [')']
  | _ => []

namespace Word

theorem isDigit_toDigits (n : Nat) : ∀ d ∈ Nat.toDigits 10 n, d.isDigit = true :=
  fun _ hd => Nat.isDigit_of_mem_toDigits (by decide) (by decide) hd

theorem digits?_toDigits (n : Nat) : digits? (Nat.toDigits 10 n) = some n := by
  have hdigits : (Nat.toDigits 10 n).all Char.isDigit = true :=
    List.all_eq_true.2 (isDigit_toDigits n)
  rw [digits?, if_pos ⟨Nat.toDigits_ne_nil, hdigits⟩, Nat.ofDigitChars_ten_toDigits]

theorem ofDecimal?_digits {cs : List Char} (h : ∀ c ∈ cs, c.isDigit = true) :
    ofDecimal? cs = (digits? cs).bind fun n => ofInt? n := by
  unfold ofDecimal?
  split
  · exact absurd (h '-' (by simp)) (by decide)
  · exact absurd (h '+' (by simp)) (by decide)
  · rfl

theorem ofDecimal?_toDigits (n : Nat) : ofDecimal? (Nat.toDigits 10 n) = ofInt? n := by
  rw [ofDecimal?_digits (isDigit_toDigits n), digits?_toDigits, Option.bind_some]

theorem decimal_of_nonneg {value : Word} (h : 0 ≤ value.toInt) :
    value.decimal = Nat.toDigits 10 value.toInt.natAbs := by
  rw [decimal, if_neg (by omega)]

theorem ofDecimal?_decimal {value : Word} (h : 0 ≤ value.toInt) :
    ofDecimal? value.decimal = some value := by
  rw [decimal_of_nonneg h, ofDecimal?_toDigits]
  apply ofInt?_eq_some_iff.2
  omega

theorem nonneg_of_ofDecimal? {cs : List Char} {value : Word} (hcs : ∀ c ∈ cs, c.isDigit = true)
    (h : ofDecimal? cs = some value) : 0 ≤ value.toInt := by
  rw [ofDecimal?_digits hcs] at h
  obtain ⟨n, -, hn⟩ := Option.bind_eq_some_iff.1 h
  rw [ofInt?_eq_some_iff.1 hn]
  exact Int.natCast_nonneg n

end Word

/-- The kind and lexeme of a token, and the characters that are written for it. -/
structure Glyph where
  kind : TokenKind
  lexeme : List Char
  spelling : List Char

namespace Glyph

open Token

def verbatim (kind : TokenKind) (spelling : List Char) : Glyph := ⟨kind, spelling, spelling⟩

def sign (kind : TokenKind) : Glyph := verbatim kind kind.spelling

def name (x : String) : Glyph := verbatim .identifier x.toList

def integer (value : Word) : Glyph := verbatim .integer value.decimal

def escape : Char → List Char
  | '\n' => ['\\', 'n']
  | '"' => ['\\', '"']
  | '\\' => ['\\', '\\']
  | c => [c]

def text (s : String) : Glyph := ⟨.string, s.toList, '"' :: (s.toList.flatMap escape ++ ['"'])⟩

structure Legible (g : Glyph) : Prop where
  reads : ∃ c cs, g.spelling = c :: cs ∧ IsVisible c ∧
    readPiece c cs = some ⟨g.kind, g.lexeme, g.spelling, []⟩
  oneLine : '\n' ∉ g.spelling

theorem Legible.readPiece {g : Glyph} (h : g.Legible) {rest : List Char} (hrest : Breaks rest) :
    ∃ c cs, g.spelling = c :: cs ∧ IsVisible c ∧
      readPiece c (cs ++ rest) = some ⟨g.kind, g.lexeme, g.spelling, rest⟩ := by
  obtain ⟨c, cs, hspelling, hvisible, hread⟩ := h.reads
  obtain ⟨t, ht, hreread⟩ := readPiece_reread hread hrest
  have hcs : cs = t := (List.cons.inj (hspelling.symm.trans ht)).2
  rw [← hcs] at hreread
  exact ⟨c, cs, hspelling, hvisible, hreread⟩

theorem legible_sign {kind : TokenKind} (h : kind.spelling ≠ []) : (sign kind).Legible := by
  cases kind <;> first
    | exact absurd rfl h
    | exact ⟨⟨_, _, rfl, by decide, rfl⟩, by decide⟩

theorem readPiece_word {c : Char} {cs : List Char} {piece : Piece} (hc : continuesName c = true)
    (h : readWord? (c :: cs) = some piece) : Token.readPiece c cs = some piece := by
  obtain ⟨hquote, hkind⟩ := equalKind?_of_continuesName hc
  rw [Token.readPiece, if_neg hquote, readPlain_eq (.inl hkind), readWordOrSymbol, h]
  rfl

theorem legible_word {word : List Char} {kind : TokenKind} (hne : word ≠ [])
    (hword : ∀ c ∈ word, continuesName c = true)
    (h : readWord? word = some (.verbatim kind word [])) : (verbatim kind word).Legible := by
  obtain ⟨c, cs, rfl⟩ := List.exists_cons_of_ne_nil hne
  have hc : continuesName c = true := hword c (by simp)
  constructor
  · exact ⟨c, cs, rfl, isVisible_of_continuesName hc, readPiece_word hc h⟩
  · intro hnewline
    exact absurd (hword '\n' hnewline) (by decide)

theorem legible_name {x : String} (h : IsName x) : (name x).Legible := by
  obtain ⟨hkeyword, hshape⟩ := h
  have hkind : nameKind x.toList = .identifier := by
    rw [nameKind, String.ofList_toList, hkeyword]
    rfl
  have hread : readWord? (x.toList ++ []) = some (.verbatim (nameKind x.toList) x.toList []) :=
    readWord?_name hshape (by simp)
  rw [List.append_nil, hkind] at hread
  apply legible_word _ hshape.continues hread
  obtain ⟨digits, first, rest, heq, -⟩ := hshape
  rw [heq]
  simp

theorem legible_integer {value : Word} (h : 0 ≤ value.toInt) : (integer value).Legible := by
  have hdigits := Word.isDigit_toDigits value.toInt.natAbs
  have hne : Nat.toDigits 10 value.toInt.natAbs ≠ [] := Nat.toDigits_ne_nil
  have hread : readWord? (Nat.toDigits 10 value.toInt.natAbs ++ []) =
      some (.verbatim .integer (Nat.toDigits 10 value.toInt.natAbs) []) :=
    readWord?_digits hne hdigits (by simp)
  rw [List.append_nil] at hread
  rw [integer, Word.decimal_of_nonneg h]
  exact legible_word hne (fun c hc => continuesName_of_isDigit (hdigits c hc)) hread

theorem closeString_escape (c : Char) (cs : List Char) :
    closeString (escape c ++ cs) =
      (closeString cs).map fun (text, taken, rest) => (c :: text, escape c ++ taken, rest) := by
  unfold escape
  split
  · rfl
  · rfl
  · rfl
  next hquote hbackslash => exact closeString_cons hquote hbackslash

theorem closeString_flatMap_escape (s : List Char) :
    closeString (s.flatMap escape ++ ['"']) = some (s, s.flatMap escape ++ ['"'], []) := by
  induction s with
  | nil => rfl
  | cons c s ih =>
    rw [List.flatMap_cons, List.append_assoc, closeString_escape, ih]
    rfl

theorem legible_text (s : String) : (text s).Legible := by
  constructor
  · refine ⟨'"', _, rfl, by decide, ?_⟩
    rw [Token.readPiece, if_pos rfl, closeString_flatMap_escape]
    rfl
  · have hescape (c : Char) : '\n' ∉ escape c := by
      unfold escape
      split
      · decide
      · decide
      · decide
      next hnewline _ _ => simpa using fun hc => hnewline hc.symm
    simp [text, hescape]

end Glyph

end IntScript
