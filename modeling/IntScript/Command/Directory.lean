/-!
A directory of named files as data, and what comes of reading one of them. A path is walked step by step.
Every step but the last must lead through a directory, so a trailing slash asks for one too. Two dots lead
back. Outside the directory nothing is known but that there are directories to come back from, so no name
is found there.
-/

namespace IntScript

inductive ReadFailure where
  | notFound
  | isDirectory
  | notDirectory
  | nameTooLong
  | invalidText
  /-- Another reason, in the words of the system. -/
  | other (reason : String)

def ReadFailure.message : ReadFailure → String
  | notFound => "No such file or directory (os error 2)"
  | isDirectory => "Is a directory (os error 21)"
  | notDirectory => "Not a directory (os error 20)"
  | nameTooLong => "File name too long (os error 36)"
  | invalidText => "stream did not contain valid UTF-8"
  | other reason => reason

def ReadFailure.decode (bytes : ByteArray) : Except ReadFailure String :=
  match String.fromUTF8? bytes with
  | some s => .ok s
  | none => .error .invalidText

inductive Entry where
  | directory
  | file (bytes : ByteArray)

abbrev Directory := List (String × Entry)

namespace Directory

def namesOf (path : String) : List String :=
  (path.splitOn "/").filter fun name => name != "" && name != "."

def nameLimit : Nat := 255

def pathLimit : Nat := 4095

inductive Spot where
  /-- At what has these names, from the directory down. -/
  | inside (names : List String)
  /-- In some directory that is not part of this one. -/
  | outside

/-- What has these names. There is a directory wherever the path of an entry leads through. -/
def entry? (d : Directory) (names : List String) : Option Entry :=
  match names, d.find? fun (path, _) => namesOf path = names with
  | [], _ => some .directory
  | _, some (_, e) => some e
  | names, none =>
    if d.any fun (path, _) => names.isPrefixOf (namesOf path) then some .directory else none

def entryAt? (d : Directory) : Spot → Option Entry
  | .inside names => d.entry? names
  | .outside => some .directory

def enter (d : Directory) (spot : Spot) (name : String) : Except ReadFailure Spot :=
  if name = "" ∨ name = "." then .ok spot
  else if name = ".." then
    match spot with
    | .inside (first :: names) => .ok (.inside (first :: names).dropLast)
    | _ => .ok .outside
  else if nameLimit < name.utf8ByteSize then .error .nameTooLong
  else
    match spot with
    | .inside names =>
      if (d.entry? (names ++ [name])).isSome then .ok (.inside (names ++ [name]))
      else .error .notFound
    | .outside => .error .notFound

def step (d : Directory) (spot : Spot) (name : String) : Except ReadFailure Spot :=
  match d.entryAt? spot with
  | some .directory => d.enter spot name
  | some (.file _) => .error .notDirectory
  | none => .error .notFound

/-- What stands at a path. A path that begins with a slash begins outside. -/
def find (d : Directory) (path : String) : Except ReadFailure Entry :=
  if path = "" then .error .notFound
  else if pathLimit < path.utf8ByteSize then .error .nameTooLong
  else do
    let start := if path.startsWith "/" then Spot.outside else .inside []
    let spot ← (path.splitOn "/").foldlM d.step start
    match d.entryAt? spot with
    | some e => .ok e
    | none => .error .notFound

def read (d : Directory) (path : String) : Except ReadFailure String := do
  match ← d.find path with
  | .directory => .error .isDirectory
  | .file bytes => ReadFailure.decode bytes

end Directory

end IntScript
