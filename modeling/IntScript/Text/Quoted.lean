import IntScript.Text.GraphemeExtend
import IntScript.Text.Unprintable

/-!
Texts in quotes, such that every character can be told apart: quotes, backslashes and the usual control
characters are escaped by a backslash; characters that would not show by themselves are given by their
code point in hexadecimal.
-/

namespace IntScript.Text

def escape (c : Char) : List Char :=
  match c with
  | '\x00' => ['\\', '0']
  | '\t' => ['\\', 't']
  | '\r' => ['\\', 'r']
  | '\n' => ['\\', 'n']
  | '"' => ['\\', '"']
  | '\\' => ['\\', '\\']
  | c =>
    if extendsGrapheme c || isUnprintable c then
      ['\\', 'u', '\x7b'] ++ Nat.toDigits 16 c.toNat ++ ['\x7d']
    else [c]

def quoted (s : String) : String :=
  String.ofList (['"'] ++ s.toList.flatMap escape ++ ['"'])

end IntScript.Text
