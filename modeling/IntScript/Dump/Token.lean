import IntScript.Dump.Layout
import IntScript.Text.Quoted
import IntScript.Token

/-!
Dumps of tokens, each on one line.
-/

namespace IntScript

def Span.shown (s : Span) : Dump.Shown :=
  .record "Span" [
    ("start", .atom (toString s.start)),
    ("end", .atom (toString s.stop)),
    ("line", .atom (toString s.line)),
    ("column", .atom (toString s.column)),
    ("end_line", .atom (toString s.endLine))]

def Token.shown (t : Token) : Dump.Shown :=
  .record "Token" [
    ("kind", .atom t.kind.name),
    ("lexeme", .atom (Text.quoted t.lexeme)),
    ("span", t.span.shown)]

def Token.dump (ts : List Token) : String :=
  String.join (ts.map fun t => Dump.inline t.shown ++ "\n")

end IntScript
