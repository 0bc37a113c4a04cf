/-!
Two layouts for nested data: on one line, or with every part on a line of its own, indented by four blanks
for each level and followed by a comma.
-/

namespace IntScript.Dump

inductive Shown where
  /-- Shown as this text. -/
  | atom (text : String)
  /-- A name, and parts in parentheses. -/
  | tuple (name : String) (parts : List Shown)
  /-- A name, and parts with names of their own in braces. -/
  | record (name : String) (fields : List (String × Shown))
  /-- Items in brackets. -/
  | list (items : List Shown)

def indent (level : Nat) : String := String.ofList (List.replicate (4 * level) ' ')

def commas : List String → String
  | [] => ""
  | [s] => s
  | s :: t :: ts => s ++ ", " ++ commas (t :: ts)

mutual

def inline : Shown → String
  | .atom text => text
  | .tuple name parts => name ++ "(" ++ commas (inlineParts parts) ++ ")"
  | .record name fields => name ++ " \x7b " ++ commas (inlineFields fields) ++ " \x7d"
  | .list items => "[" ++ commas (inlineParts items) ++ "]"

def inlineParts : List Shown → List String
  | [] => []
  | x :: xs => inline x :: inlineParts xs

def inlineFields : List (String × Shown) → List String
  | [] => []
  | (name, x) :: xs => (name ++ ": " ++ inline x) :: inlineFields xs

end

mutual

/-- The data over several lines. The first of them stands behind what its own line began with. -/
def indented (level : Nat) : Shown → String
  | .atom text => text
  | .tuple name parts => name ++ "(\n" ++ indentedParts (level + 1) parts ++ indent level ++ ")"
  | .record name fields =>
    name ++ " \x7b\n" ++ indentedFields (level + 1) fields ++ indent level ++ "\x7d"
  | .list [] => "[]"
  | .list (x :: xs) => "[\n" ++ indentedParts (level + 1) (x :: xs) ++ indent level ++ "]"

def indentedParts (level : Nat) : List Shown → String
  | [] => ""
  | x :: xs => indent level ++ indented level x ++ ",\n" ++ indentedParts level xs

def indentedFields (level : Nat) : List (String × Shown) → String
  | [] => ""
  | (name, x) :: xs =>
    indent level ++ name ++ ": " ++ indented level x ++ ",\n" ++ indentedFields level xs

end

end IntScript.Dump
