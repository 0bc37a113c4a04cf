import IntScript.Token.Stream
import IntScript.Grammar.Program
import IntScript.Run.Eval

/-!
From the text of a program to its output. There are three stages, and a failure tells in which of them it
happened. Nothing is written unless the whole text is a program.
-/

namespace IntScript

inductive Failure where
  | tokenizing (e : LexError)
  | parsing (e : SyntaxError)
  | running (e : RuntimeError)
deriving DecidableEq

namespace Failure

def stage : Failure → String
  | tokenizing _ => "Tokenizing"
  | parsing _ => "Parsing"
  | running _ => "Running"

def cause : Failure → String
  | tokenizing e => e.message
  | parsing e => e.message
  | running e => e.message

def message (f : Failure) : String := f.stage ++ ": " ++ f.cause

end Failure

def Statement.ofSource (source : String) : Except Failure Statement := do
  let tokens ← (Token.tokenize source).mapError .tokenizing
  (Statement.ofTokens tokens).mapError .parsing

namespace Script

/-- Runs a text with calls nested so deep at most, and gives the sink back as the run left it. -/
def run {ω : Type} [Sink ω] (budget : Nat) (source : String) (out : ω) :
    Option (Except Failure Unit × ω) :=
  match Statement.ofSource source with
  | .error e => some (.error e, out)
  | .ok program =>
    (Run.program budget program (.fresh out)).map fun (result, machine) =>
      (result.mapError .running, machine.out)

/-- Everything that a text prints, if it runs to its end. -/
def output (budget : Nat) (source : String) : Option (Except Failure String) :=
  (run budget source Transcript.empty).map fun (result, transcript) =>
    result.map fun _ => transcript.text

end Script

end IntScript
