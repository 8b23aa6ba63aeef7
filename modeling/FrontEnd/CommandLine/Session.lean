import FrontEnd.CommandLine.Options
import FrontEnd.Listing.Tokens
import FrontEnd.Listing.Tree

/-!
# Running a command

A command visits places one after the other and lists the source of each. It stops at the
first place that cannot be opened, or whose source fails, and reports it. It fails if it
stopped, or if a listing had illegal tokens or dropped statements.
-/

namespace FrontEnd.CommandLine

/-- The name of the program. -/
def programName : String := "monkey"

/-- The version of the program. -/
def programVersion : String := "0.0.0"

/-- A place and the source that it opens. -/
abbrev Opening : Type := Place × Except Failure Source

/-- How far a command has come. -/
structure Session where
  out : Sink
  /-- Where diagnostics go. -/
  notes : Sink
  /-- The places visited so far. -/
  visited : List Place
  /-- The number of illegal tokens or dropped statements so far. -/
  failures : Nat
  /-- Why the command stopped. -/
  report : Option Report
  deriving DecidableEq, Repr

namespace Session

/-- A command that visited nothing. -/
def start : Session :=
  ⟨.ofLimit none, .ofLimit none, [], 0, none⟩

/-- The session after a listing came to an answer. -/
def conclude (session : Session) : Except Report Nat → Session
  | .ok failures => { session with failures := session.failures + failures }
  | .error report => { session with report := some report }

/-- The session after one more place. -/
def visit (session : Session) (command : Command) (opening : Opening) : Run Session :=
  let (place, opened) := opening
  let session := { session with visited := session.visited ++ [place] }
  match opened with
  | .error failure => return session.conclude (.error (.notOpened place.name failure))
  | .ok source =>
    match command with
    | .tokens => do
      let (answer, out) ← source.listTokens place.name session.out
      return { session with out := out }.conclude answer
    | .parse => do
      let (answer, out, notes) ← source.listTree place.name session.out session.notes
      return { session with out := out, notes := notes }.conclude answer

/-- The session after more places, up to the one at which the command stops. -/
def visitAll (session : Session) (command : Command) : List Opening → Run Session
  | [] => return session
  | opening :: rest => do
    let session ← session.visit command opening
    if session.report.isSome then return session else session.visitAll command rest

/-- Logs that a command begins. -/
def announce (options : Options) : Run Unit := do
  Run.tell (.started options)
  Run.tell (.ofVersion programVersion)

/-- Logs that a command is done, if it did not stop and there were failures. -/
def close (session : Session) : Run Unit :=
  if session.report.isNone ∧ session.failures ≠ 0 then Run.tell (.finished session.failures)
  else return ()

/-- The number that the program ends with. -/
def exitCode (session : Session) : Nat :=
  if session.report.isNone ∧ session.failures = 0 then 0 else 1

end Session

/-- A whole command over the sources that its places open. -/
def runCommand (options : Options) (openings : List Opening) : Run Session := do
  Session.announce options
  let session ← Session.start.visitAll options.command openings
  session.close
  return session

end FrontEnd.CommandLine
