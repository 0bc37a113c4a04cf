import IntScript.Command

/-!
The program itself: it takes its arguments, reads its input, and writes what the command answers.
-/

namespace IntScript

/-- The number of an error, which the system gives with either sign. -/
def errorNumber (code : UInt32) : UInt32 := if code < 0x80000000 then code else 0 - code

def ReadFailure.ofSystem (e : IO.Error) : ReadFailure :=
  match e with
  | .noFileOrDirectory .. => .notFound
  | .inappropriateType _ code _ => if errorNumber code = 20 then .notDirectory else .isDirectory
  | .invalidArgument _ code _ => if errorNumber code = 36 then .nameTooLong else .other (toString e)
  | e => .other (toString e)

def readInput (path : String) : IO (Except ReadFailure String) := do
  try
    let bytes ← if path = "-" then (← IO.getStdin).readBinToEnd else IO.FS.readBinFile path
    return ReadFailure.decode bytes
  catch e => return .error (.ofSystem e)

/-- The answer of the command, with as large a budget as it takes. -/
partial def settle (answer : Nat → Option Command.Outcome) (budget : Nat) : Command.Outcome :=
  match answer budget with
  | some outcome => outcome
  | none => settle answer (2 * budget)

def serve (args : List String) : IO UInt32 := do
  let request := Command.Request.ofArgs args
  let input ← match request with
    | .ok (.process _ path) => readInput path
    | _ => pure (.ok "")
  let outcome := settle (fun budget => Command.respond budget (fun _ => input) request) 1000
  IO.print outcome.stdout
  IO.eprint outcome.stderr
  return outcome.exit.toUInt32

end IntScript

def main (args : List String) : IO UInt32 := IntScript.serve args
