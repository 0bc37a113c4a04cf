/-!
Tokens of a program text: what they are, how they read, and where they stand.
-/

namespace IntScript

/-- Classes of tokens. `eof` marks the end of a text, `unknown` a character that begins no token. -/
inductive TokenKind where
  | integer | string | identifier
  | print | ifKeyword | elseKeyword | defKeyword | returnKeyword
  | plus | minus | star | slash | assign
  | equalEqual | bangEqual | less | lessEqual | greater | greaterEqual
  | comma | colon | lparen | rparen
  | eof | unknown
deriving DecidableEq

namespace TokenKind

def all : List TokenKind :=
  [integer, string, identifier, print, ifKeyword, elseKeyword, defKeyword, returnKeyword, plus, minus,
    star, slash, assign, equalEqual, bangEqual, less, lessEqual, greater, greaterEqual, comma, colon,
    lparen, rparen, eof, unknown]

theorem mem_all (k : TokenKind) : k ∈ all := by
  cases k <;> decide

def keyword? (word : String) : Option TokenKind :=
  if word = "print" then some print
  else if word = "if" then some ifKeyword
  else if word = "else" then some elseKeyword
  else if word = "def" then some defKeyword
  else if word = "return" then some returnKeyword
  else none

def describe : TokenKind → String
  | integer => "integer"
  | string => "string"
  | identifier => "identifier"
  | print => "'print'"
  | ifKeyword => "'if'"
  | elseKeyword => "'else'"
  | defKeyword => "'def'"
  | returnKeyword => "'return'"
  | plus => "'+'"
  | minus => "'-'"
  | star => "'*'"
  | slash => "'/'"
  | assign => "'='"
  | equalEqual => "'=='"
  | bangEqual => "'!='"
  | less => "'<'"
  | lessEqual => "'<='"
  | greater => "'>'"
  | greaterEqual => "'>='"
  | comma => "','"
  | colon => "':'"
  | lparen => "'('"
  | rparen => "')'"
  | eof => "end of file"
  | unknown => "unknown character"

def name : TokenKind → String
  | integer => "Integer"
  | string => "String"
  | identifier => "Identifier"
  | print => "Print"
  | ifKeyword => "If"
  | elseKeyword => "Else"
  | defKeyword => "Def"
  | returnKeyword => "Return"
  | plus => "Plus"
  | minus => "Minus"
  | star => "Star"
  | slash => "Slash"
  | assign => "Assign"
  | equalEqual => "EqualEqual"
  | bangEqual => "BangEqual"
  | less => "Less"
  | lessEqual => "LessEqual"
  | greater => "Greater"
  | greaterEqual => "GreaterEqual"
  | comma => "Comma"
  | colon => "Colon"
  | lparen => "LParen"
  | rparen => "RParen"
  | eof => "Eof"
  | unknown => "Unknown"

def ofName? (s : String) : Option TokenKind := all.find? (·.name = s)

end TokenKind

/-- Where a token stands: its bytes from `start` up to `stop`, the line (from 1) and column (in
characters, from 0) of its first character, and the line of its last one. -/
structure Span where
  start : Nat
  stop : Nat
  line : Nat
  column : Nat
  endLine : Nat
deriving DecidableEq

/-- A token. The lexeme of a string is the text it denotes, any other lexeme the token's own characters. -/
structure Token where
  kind : TokenKind
  lexeme : String
  span : Span
deriving DecidableEq

end IntScript
