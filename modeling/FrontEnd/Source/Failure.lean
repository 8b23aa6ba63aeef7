import FrontEnd.Text.Form
import FrontEnd.Text.Quoted

/-!
# Failures of a source

A source can fail when it is opened or read. A failure has a cause; its message is that of
the cause, one given with it, or the one of the system, which adds its own number.
-/

namespace FrontEnd

open Text

/-- The cause of a failure. -/
inductive Cause where
  | notFound
  | permissionDenied
  | brokenPipe
  | wouldBlock
  | notADirectory
  | isADirectory
  | invalidData
  | timedOut
  /-- The source was disturbed and can simply be read again. -/
  | interrupted
  | unexpectedEnd
  | nameTooLong
  | other
  deriving DecidableEq, Repr

namespace Cause

/-- The name of a cause. -/
def name : Cause → String
  | notFound => "NotFound"
  | permissionDenied => "PermissionDenied"
  | brokenPipe => "BrokenPipe"
  | wouldBlock => "WouldBlock"
  | notADirectory => "NotADirectory"
  | isADirectory => "IsADirectory"
  | invalidData => "InvalidData"
  | timedOut => "TimedOut"
  | interrupted => "Interrupted"
  | unexpectedEnd => "UnexpectedEof"
  | nameTooLong => "InvalidFilename"
  | other => "Other"

/-- What is said about a cause when nothing more is known. -/
def message : Cause → String
  | notFound => "entity not found"
  | permissionDenied => "permission denied"
  | brokenPipe => "broken pipe"
  | wouldBlock => "operation would block"
  | notADirectory => "not a directory"
  | isADirectory => "is a directory"
  | invalidData => "invalid data"
  | timedOut => "timed out"
  | interrupted => "operation interrupted"
  | unexpectedEnd => "unexpected end of file"
  | nameTooLong => "invalid filename"
  | other => "other error"

end Cause

/-- A failure of a source. -/
inductive Failure where
  /-- Nothing is known but the cause. -/
  | plain (cause : Cause)
  /-- A message came with the cause. -/
  | described (cause : Cause) (message : String)
  /-- The system failed with one of its own numbers. -/
  | system (code : Nat) (cause : Cause) (message : String)
  deriving DecidableEq, Repr

namespace Failure

/-- The cause of a failure. -/
def cause : Failure → Cause
  | plain cause => cause
  | described cause _ => cause
  | system _ cause _ => cause

/-- What is said about a failure. -/
def message : Failure → String
  | plain cause => cause.message
  | described _ message => message
  | system code _ message => message ++ " (os error " ++ toString code ++ ")"

/-- Whether the source can simply be read again. -/
def isInterruption (failure : Failure) : Bool :=
  failure.cause == .interrupted

/-- A failure with its fields. -/
def form : Failure → Form
  | plain cause => .tuple "Kind" [.word cause.name]
  | described cause message =>
    .record "Custom" [("kind", .word cause.name), ("error", .word (Quoted.text message))] true
  | system code cause message =>
    .record "Os"
      [("code", .word (toString code)), ("kind", .word cause.name),
        ("message", .word (Quoted.text message))] true

/-- There is nothing under the name. -/
def missing : Failure := .system 2 .notFound "No such file or directory"

/-- A name leads through something that is no directory. -/
def notDirectory : Failure := .system 20 .notADirectory "Not a directory"

/-- A directory was read as a file. -/
def directory : Failure := .system 21 .isADirectory "Is a directory"

/-- A name is longer than names can be. -/
def longName : Failure := .system 36 .nameTooLong "File name too long"

end Failure

end FrontEnd
