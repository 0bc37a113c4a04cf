import IntScript.Proofs.Token.Pieces
import IntScript.Token.Stream
import Mathlib

/-!
# What the tokens of a text are

An identifier is a name, an integer is made of digits, and no piece of a text is an end mark.
-/

namespace IntScript.Token

structure Piece.Regular (p : Piece) : Prop where
  name : p.kind = .identifier → IsName (String.ofList p.lexeme)
  digits : p.kind = .integer → ∀ d ∈ p.lexeme, d.isDigit = true
  inText : p.kind ≠ .eof

def plainKind : TokenKind → Bool
  | .identifier | .integer | .eof => false
  | _ => true

variable {c : Char} {cs word : List Char} {piece : Piece}

theorem Piece.regular_of_plainKind (h : plainKind piece.kind = true) : piece.Regular := by
  have hne (kind : TokenKind) (hkind : plainKind kind = false) : piece.kind ≠ kind := by
    intro heq
    rw [heq, hkind] at h
    cases h
  constructor
  · exact fun heq => absurd heq (hne .identifier rfl)
  · exact fun heq => absurd heq (hne .integer rfl)
  · exact hne .eof rfl

theorem plainKind_symbolKind (c : Char) : plainKind (symbolKind c) = true := by
  unfold symbolKind
  split <;> rfl

theorem plainKind_of_equalKind? {kind : TokenKind} (h : equalKind? c = some kind) :
    plainKind kind = true := by
  unfold equalKind? at h
  split at h <;> cases h <;> rfl

theorem plainKind_of_keyword? {name : String} {kind : TokenKind}
    (h : TokenKind.keyword? name = some kind) : plainKind kind = true := by
  rw [TokenKind.keyword?] at h
  split_ifs at h <;> cases h <;> rfl

theorem regular_name (h : NameShape word) (rest : List Char) :
    (Piece.verbatim (nameKind word) word rest).Regular := by
  cases hkeyword : TokenKind.keyword? (String.ofList word) with
  | some kind =>
    apply Piece.regular_of_plainKind
    rw [Piece.verbatim, nameKind, hkeyword]
    exact plainKind_of_keyword? hkeyword
  | none =>
    have hkind : nameKind word = .identifier := by
      rw [nameKind, hkeyword]
      rfl
    have hname : IsName (String.ofList word) := ⟨hkeyword, by rwa [String.toList_ofList]⟩
    rw [hkind]
    exact ⟨fun _ => hname, fun h => (by cases h), fun h => (by cases h)⟩

theorem regular_readWordOrSymbol (c : Char) (cs : List Char) :
    (readWordOrSymbol c cs).Regular := by
  rw [readWordOrSymbol]
  cases hword : readWord? (c :: cs) with
  | none => exact Piece.regular_of_plainKind (plainKind_symbolKind c)
  | some word =>
    rw [Option.getD_some]
    rcases readWord?_cases hword with ⟨hshape, hpiece⟩ | ⟨-, hdigits, hpiece⟩
    · rw [hpiece]
      exact regular_name hshape _
    · rw [hpiece]
      exact ⟨fun h => (by cases h), fun _ => hdigits, fun h => (by cases h)⟩

theorem regular_readPiece (h : readPiece c cs = some piece) : piece.Regular := by
  rw [readPiece] at h
  split at h
  next =>
    obtain ⟨⟨text, taken, rest⟩, -, rfl⟩ := Option.map_eq_some_iff.1 h
    exact Piece.regular_of_plainKind rfl
  next =>
    cases h
    unfold readPlain
    split
    next hkind => exact Piece.regular_of_plainKind (plainKind_of_equalKind? hkind)
    next => exact regular_readWordOrSymbol c _

theorem Stream.nextToken_cases {s s' : Stream} {t : Token} (h : s.nextToken = (.ok t, s')) :
    (∃ p, t = endMark p) ∨ ∃ piece p q, Piece.Regular piece ∧ t = ofPiece piece p q := by
  rw [nextToken] at h
  dsimp only at h
  split at h
  next =>
    cases h
    exact .inl ⟨_, rfl⟩
  next c cs _ =>
    cases hpiece : readPiece c cs with
    | none => simp [hpiece] at h
    | some piece =>
      rw [hpiece] at h
      cases h
      exact .inr ⟨piece, _, _, regular_readPiece hpiece, rfl⟩

theorem Stream.mem_tokens {s : Stream} {ts : List Token} (h : s.tokens = .ok ts) {t : Token}
    (ht : t ∈ ts) :
    (∃ p, t = endMark p) ∨ ∃ piece p q, Piece.Regular piece ∧ t = ofPiece piece p q := by
  fun_induction Stream.tokens s generalizing ts with
  | case1 => cases h
  | case2 s u s' hnext hend =>
    cases h
    rw [List.mem_singleton.1 ht]
    exact nextToken_cases hnext
  | case3 s u s' hnext hend hlt ih =>
    cases hrest : s'.tokens with
    | error e =>
      rw [hrest] at h
      cases h
    | ok us =>
      rw [hrest] at h
      cases h
      rcases List.mem_cons.1 ht with rfl | ht
      · exact nextToken_cases hnext
      · exact ih hrest ht

end IntScript.Token
