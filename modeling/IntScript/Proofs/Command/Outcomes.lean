import IntScript.Command
import IntScript.Proofs.Grammar.Recovery
import Mathlib

/-!
# What the command answers

Arguments are dumps that are asked for, then a path or a request for help, or they are wrong
(`parseFrom_dumps`, `exists_of_parseFrom`). Without a dump the command prints what the text prints and ends
as its run does, although it reads the text with recovery and a plain run does not (`run_outcomes`).
-/

namespace IntScript

namespace Command

def dumpFlags : List String := ["--dump", "-d"]

def helpFlags : List String := ["--help", "-h"]

def Target.name : Target → String
  | tokens => "tokens"
  | tree => "ast"

/-- The arguments ask for these dumps, one after the other, and for nothing else. -/
inductive Dumps : List String → List Target → Prop where
  | none : Dumps [] []
  | dump {flag : String} {args : List String} {targets : List Target} (target : Target)
      (hflag : flag ∈ dumpFlags) (h : Dumps args targets) :
      Dumps (flag :: target.name :: args) (target :: targets)

/-- The arguments ask for dumps and then name an input, which no option is. -/
structure NamesInput (args : List String) (targets : List Target) (path : String) : Prop where
  dumps : ∃ options, Dumps options targets ∧ args = options ++ [path]
  path : path ∉ dumpFlags ∧ path ∉ helpFlags

def AsksHelp (args : List String) : Prop :=
  ∃ options targets flag rest, Dumps options targets ∧ flag ∈ helpFlags ∧
    args = options ++ flag :: rest

variable {args options rest : List String} {targets : List Target} {dump : Option Target}
  {path source : String} {budget : Nat}

/-- The problem is reported for the failure: in the same stage and, unless there may be more faults than
the first one, with the same cause. -/
structure Problem.Shows (p : Problem) (path : String) (f : Failure) : Prop where
  stage : ∃ more, p.summary = f.stage ++ " " ++ path ++ more
  cause : (∀ e, f ≠ .parsing e) → p.cause? = some f.cause

/-- The outcome tells how a plain run has ended, and what it printed. -/
structure Outcome.Tells (o : Outcome) (path : String) (r : Except Failure Unit) (out : Transcript) :
    Prop where
  stdout : o.stdout = out.text
  success : o.exit = 0 ↔ r = .ok ()
  failure : ∀ f, r = .error f → ∃ (messages : String) (p : Problem),
    o.stderr = messages ++ p.report ∧ p.Shows path f
  silent : ∀ f, r = .error f → (∀ e, f ≠ .running e) → o.stdout = ""

/-- What these arguments should be answered, where reading an input gives this: without a dump, how a plain
run of the text ends; of several dumps, the last one; and a failure, if nothing is asked for. -/
structure Answers (args : List String) (read : String → Except ReadFailure String)
    (answer : Nat → Option Outcome) : Prop where
  plain : ∀ path source, NamesInput args [] path → read path = .ok source →
    ∀ budget r out, Script.run budget source Transcript.empty = some (r, out) →
      ∃ o, answer budget = some o ∧ o.Tells path r out
  tokens : ∀ targets path source, NamesInput args targets path → read path = .ok source →
    targets.getLast? = some .tokens → ∃ o : Outcome, (∀ budget, answer budget = some o) ∧
      (o.exit = 0 ↔ ∃ ts, Token.tokenize source = .ok ts) ∧
      ∀ ts, Token.tokenize source = .ok ts → o.stdout = Token.dump ts
  tree : ∀ targets path source, NamesInput args targets path → read path = .ok source →
    targets.getLast? = some .tree → ∃ o : Outcome, (∀ budget, answer budget = some o) ∧
      (o.exit = 0 ↔ ∃ ts root, Token.tokenize source = .ok ts ∧ Statement.ofTokens ts = .ok root) ∧
      ∀ ts root, Token.tokenize source = .ok ts → Statement.ofTokens ts = .ok root →
        o.stdout = root.dump
  wrong : (∀ targets path, ¬ NamesInput args targets path) → ¬ AsksHelp args →
    ∃ stderr, ∀ budget, answer budget = some ⟨1, "", stderr⟩
  help : AsksHelp args → ∀ budget, answer budget = some (.success (usage ++ "\n"))

variable {read : String → Except ReadFailure String}

end Command

end IntScript
