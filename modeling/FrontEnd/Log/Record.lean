import FrontEnd.CommandLine.Options
import FrontEnd.Log.Severity
import FrontEnd.Source.Failure
import FrontEnd.Tree.Basic
import FrontEnd.Tree.Diagnostic

/-!
# Log records

What the parts of the library log. A record has a severity, the part it comes from, and a
message.
-/

namespace FrontEnd

open Text

/-- Something that was logged. -/
inductive Record where
  /-- A source failed and was taken to end. -/
  | sourceFailed (failure : Failure)
  /-- A character begins no token. -/
  | strayChar (c : Char)
  /-- A token was taken from the text. -/
  | scanned (token : Token)
  /-- A statement was parsed. -/
  | parsed (statement : Statement)
  /-- A statement was dropped. -/
  | dropped (diagnostic : Diagnostic)
  /-- A token begins no statement. -/
  | skipped (token : Token)
  /-- An illegal token is about to be listed. -/
  | illegalToken (name : String)
  /-- The tokens of a text have been listed. -/
  | tokensListed (name : String) (illegal : Nat)
  /-- The tree of a text is about to be listed. -/
  | treeParsed (name : String) (statements : Nat)
  /-- The command line was read. -/
  | started (options : CommandLine.Options)
  /-- The version of the program. -/
  | ofVersion (version : String)
  /-- The command is done, not without failures. -/
  | finished (failures : Nat)
  deriving DecidableEq, Repr

namespace Record

/-- The severity of a record. -/
def severity : Record → Severity
  | sourceFailed _ => .error
  | strayChar _ => .debug
  | scanned _ => .trace
  | parsed _ => .trace
  | dropped _ => .debug
  | skipped _ => .trace
  | illegalToken _ => .warn
  | tokensListed _ _ => .debug
  | treeParsed _ _ => .debug
  | started _ => .trace
  | ofVersion _ => .debug
  | finished _ => .debug

/-- The part that a record comes from. -/
def origin : Record → String
  | sourceFailed _ => "monkey_ast_parsing::lexer::char_reader"
  | strayChar _ => "monkey_ast_parsing::lexer"
  | scanned _ => "monkey_ast_parsing::lexer"
  | parsed _ => "monkey_ast_parsing::parser"
  | dropped _ => "monkey_ast_parsing::parser"
  | skipped _ => "monkey_ast_parsing::parser"
  | illegalToken _ => "monkey::commands"
  | tokensListed _ _ => "monkey::commands"
  | treeParsed _ _ => "monkey::commands"
  | started _ => "monkey"
  | ofVersion _ => "monkey"
  | finished _ => "monkey"

/-- The message of a record. -/
def message : Record → String
  | sourceFailed failure =>
    "reading source failed, treating it as the end of input: " ++ failure.message
  | strayChar c => "illegal character " ++ Quoted.char c
  | scanned token => "scanned " ++ token.inspect
  | parsed statement => "parsed " ++ statement.form.inline
  | dropped diagnostic => "dropping statement: " ++ diagnostic.message
  | skipped token => "skipping " ++ token.text
  | illegalToken name => name ++ ": found an illegal token"
  | tokensListed name illegal => name ++ ": " ++ toString illegal ++ " illegal tokens"
  | treeParsed name statements => name ++ ": parsed " ++ toString statements ++ " statements"
  | started options => "starting monkey with args " ++ options.form.inline
  | ofVersion version => "monkey version: " ++ version
  | finished failures => "finished with " ++ toString failures ++ " failures"

/-- Whether a record tells of a token that was taken from the text. -/
def isScanning : Record → Bool
  | strayChar _ => true
  | scanned _ => true
  | _ => false

end Record

/-- The records that a threshold lets through. -/
def Threshold.filter (threshold : Threshold) (log : List Record) : List Record :=
  log.filter fun record => Threshold.lets threshold record.severity

end FrontEnd
