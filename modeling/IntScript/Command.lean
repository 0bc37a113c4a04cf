import IntScript.Command.Directory
import IntScript.Dump.Token
import IntScript.Dump.Tree
import IntScript.Script

/-!
The command line. It names one file, or standard input, and may ask for a dump of the tokens or of the tree
instead of a run. Options are read from the left: a request for help is answered at once, of several dumps
the last one counts, and nothing may follow the file. Unlike a plain run, the command reports every
malformed statement.
-/

namespace IntScript.Command

def usage : String := "Usage: minipy [--dump tokens|ast] <file | ->"

inductive Target where
  | tokens
  | tree
deriving DecidableEq

def Target.ofName? : String → Option Target
  | "tokens" => some .tokens
  | "ast" => some .tree
  | _ => none

inductive Request where
  | help
  | process (dump : Option Target) (path : String)

inductive Problem where
  | missingTarget (option : String)
  | unknownTarget (name : String)
  | noInput
  | severalInputs
  | reading (path : String) (reason : ReadFailure)
  | tokenizing (path : String) (e : LexError)
  | parsing (path : String) (count : Nat)
  | running (path : String) (e : RuntimeError)

namespace Problem

def summary : Problem → String
  | missingTarget option => "Missing dump target after " ++ option
  | unknownTarget name => "Unknown dump target '" ++ name ++ "', expected 'tokens' or 'ast'"
  | noInput => usage
  | severalInputs => "Only one input file is supported\n" ++ usage
  | reading path _ => if path = "-" then "Reading stdin" else "Reading " ++ path
  | tokenizing path _ => "Tokenizing " ++ path
  | parsing path count => "Parsing " ++ path ++ s!" failed with {count} error(s)"
  | running path _ => "Running " ++ path

def cause? : Problem → Option String
  | reading _ reason => some reason.message
  | tokenizing _ e => some e.message
  | running _ e => some e.message
  | _ => none

/-- The report to the user. Lines of a cause are indented. -/
def report (p : Problem) : String :=
  match p.cause? with
  | none => "Error: " ++ p.summary ++ "\n"
  | some cause => "Error: " ++ p.summary ++ "\n\nCaused by:\n    " ++
      String.ofList (cause.toList.flatMap fun c => if c = '\n' then "\n    ".toList else [c]) ++ "\n"

end Problem

def parseFrom (dump : Option Target) : List String → Except Problem Request
  | [] => .error .noInput
  | arg :: args =>
    if arg = "--dump" ∨ arg = "-d" then
      match args with
      | [] => .error (.missingTarget arg)
      | name :: args =>
        match Target.ofName? name with
        | none => .error (.unknownTarget name)
        | some target => parseFrom (some target) args
    else if arg = "--help" ∨ arg = "-h" then .ok .help
    else if args.isEmpty then .ok (.process dump arg)
    else .error .severalInputs

def Request.ofArgs (args : List String) : Except Problem Request := parseFrom none args

structure Outcome where
  exit : Nat
  stdout : String
  stderr : String
deriving Inhabited

def Outcome.success (stdout : String) : Outcome := ⟨0, stdout, ""⟩

def Outcome.failure (stdout messages : String) (p : Problem) : Outcome :=
  ⟨1, stdout, messages ++ p.report⟩

/-- Processes the text at a path, running programs with calls nested so deep at most. -/
def process (budget : Nat) (dump : Option Target) (path source : String) : Option Outcome :=
  match Token.tokenize source with
  | .error e => some (.failure "" "" (.tokenizing path e))
  | .ok tokens =>
    if dump = some .tokens then some (.success (Token.dump tokens))
    else
      match Statement.ofTokensRecovering tokens with
      | .error errors =>
        let messages := errors.map fun e => path ++ ": " ++ e.message ++ "\n"
        some (.failure "" (String.join messages) (.parsing path errors.length))
      | .ok program =>
        if dump = some .tree then some (.success program.dump)
        else
          (Run.program budget program (.fresh Transcript.empty)).map fun (result, machine) =>
            match result with
            | .ok () => .success machine.out.text
            | .error e => .failure machine.out.text "" (.running path e)

/-- Answers a request, given what reading its input gives: the text, or why there is none. -/
def respond (budget : Nat) (read : String → Except ReadFailure String) :
    Except Problem Request → Option Outcome
  | .error p => some (.failure "" "" p)
  | .ok .help => some (.success (usage ++ "\n"))
  | .ok (.process dump path) =>
    match read path with
    | .error reason => some (.failure "" "" (.reading path reason))
    | .ok source => process budget dump path source

/-- Runs the command on its arguments, where a lone hyphen stands for standard input. Arguments are texts:
one that is not valid Unicode is outside the model. -/
def run (budget : Nat) (args : List String) (stdin : ByteArray) (files : Directory) :
    Option Outcome :=
  respond budget (fun path => if path = "-" then ReadFailure.decode stdin else files.read path)
    (Request.ofArgs args)

end IntScript.Command
