import FrontEnd.Log.Severity
import FrontEnd.Text.Form
import FrontEnd.Text.Quoted

/-!
# Options of the command line

What a command line asks for: a command, the places to read, and how much to log. The
threshold is the one that was given; without one it follows from how often more and less
talk was asked for.
-/

namespace FrontEnd.CommandLine

open Text

/-- What to do with every place. -/
inductive Command where
  /-- List the tokens. -/
  | tokens
  /-- List the tree and the diagnostics. -/
  | parse
  deriving DecidableEq, Repr

namespace Command

/-- The word that names a command. -/
def word : Command → String
  | tokens => "tokens"
  | parse => "parse"

/-- The command that a word names. -/
def ofWord? (word : String) : Option Command :=
  [tokens, parse].find? fun command => command.word == word

/-- The head of a command in forms. -/
def head : Command → String
  | tokens => "Tokens"
  | parse => "Parse"

end Command

/-- Where a text is read from. -/
inductive Place where
  /-- The standard input. -/
  | input
  | file (path : String)
  deriving DecidableEq, Repr

namespace Place

/-- The steps of a path; empty steps and steps that stay in place count only at its front. -/
def steps (path : String) : List String :=
  match path.splitOn "/" with
  | [] => []
  | first :: rest => first :: rest.filter fun step => step != "" && step != "."

/-- The place that a file argument names: the path `-` is the standard input. -/
def ofArgument (path : String) : Place :=
  if steps path = ["-"] then input else file path

/-- The name of a place in messages. -/
def name : Place → String
  | input => "<stdin>"
  | file path => path

/-- A place in forms. -/
def form : Place → Form
  | input => .word "Stdin"
  | file path => .tuple "File" [.word (Quoted.text path)]

end Place

/-- What a command line asks for. -/
structure Options where
  /-- How often more talk was asked for. -/
  verbose : Nat
  /-- How often less talk was asked for. -/
  quiet : Nat
  /-- The threshold that was given. -/
  given : Option Threshold
  command : Command
  /-- The file arguments, in order. -/
  files : List String
  deriving DecidableEq, Repr

namespace Options

/-- The threshold of the log. -/
def threshold (options : Options) : Threshold :=
  match options.given with
  | some threshold => threshold
  | none =>
    match (options.verbose : Int) - options.quiet with
    | .ofNat 0 => some .info
    | .ofNat 1 => some .debug
    | .ofNat _ => some .trace
    | .negSucc 0 => some .error
    | .negSucc _ => none

/-- The places to read, in order: the standard input if there is no file argument. -/
def places (options : Options) : List Place :=
  if options.files.isEmpty then [.input] else options.files.map Place.ofArgument

/-- Options with all their fields. -/
def form (options : Options) : Form :=
  .record "Args"
    [("logging", .record "LoggingArgs"
      [("verbose", .word (toString options.verbose)), ("quiet", .word (toString options.quiet)),
        ("level", .optional (options.given.map fun threshold => .word threshold.head))] true),
      ("command", .tuple options.command.head
        [.record "SourceArgs" [("files", .list (options.files.map fun file => .word (Quoted.text file)))]
          true])] true

end Options

end FrontEnd.CommandLine
