import FrontEnd.CommandLine.Reading
import FrontEnd.CommandLine.Session

/-!
# The program

The command line over the files, the standard streams and the environment of the system: it
opens the places of a command one at a time, hands each of them to the session, and writes
what the session has written and logged since.
-/

namespace FrontEnd.CommandLine

/-- The failure that an error of the system stands for. -/
def failureOfError : IO.Error → Failure
  | .noFileOrDirectory .. => .missing
  | .permissionDenied _ code _ => .system code.toNat .permissionDenied "Permission denied"
  | .inappropriateType _ code _ => if code = 20 then .notDirectory else .directory
  | .invalidArgument _ 36 _ => .longName
  | error => .described .other error.toString

/-- All bytes of a stream that can still be read. -/
partial def readStream (stream : IO.FS.Stream) (bytes : ByteArray) : IO ByteArray := do
  let piece ← stream.read 4096
  if piece.isEmpty then return bytes else readStream stream (bytes ++ piece)

/-- The source that a place opens: all its bytes, or the failure to read them. -/
def openPlace : Place → IO (Except Failure Source)
  | .input => do
    let bytes ← readStream (← IO.getStdin) .empty
    return .ok (.ofBytes bytes.toList)
  | .file path => do
    match ← (IO.FS.Handle.mk path .read).toBaseIO with
    | .error error => return .error (failureOfError error)
    | .ok handle =>
      match ← handle.readBinToEnd.toBaseIO with
      | .error error => return .ok (.ofEvents [.failure (failureOfError error)])
      | .ok bytes => return .ok (.ofBytes bytes.toList)

/-- A text with spaces after it, up to a width. -/
def padded (width : Nat) (text : String) : String :=
  text ++ String.ofList (List.replicate (width - text.length) ' ')

/-- Writes the records that the threshold lets through. -/
def writeLog (threshold : Threshold) (colour : Bool) (log : List Record) : IO Unit := do
  for record in threshold.filter log do
    let severity := if colour then record.severity.painted else record.severity.name
    IO.eprintln (padded 5 severity ++ " --- " ++ padded 32 record.origin ++ " : " ++ record.message)

/-- The value of a run, whose log is written; a fault ends the program. -/
def perform {α : Type} (threshold : Threshold) (colour : Bool) (run : Run α) : IO α := do
  writeLog threshold colour run.log
  match run.outcome with
  | .ok a => return a
  | .error fault => throw (IO.userError fault.message)

/-- Writes what a session has written after the first `out` and `notes` bytes. -/
def writeNew (session : Session) (out notes : Nat) : IO Unit := do
  let stdout ← IO.getStdout
  stdout.write ⟨session.out.written.extract out session.out.written.size⟩
  stdout.flush
  let stderr ← IO.getStderr
  stderr.write ⟨session.notes.written.extract notes session.notes.written.size⟩
  stderr.flush

/-- The session after all places, up to the one at which the command stops. -/
def visitPlaces (options : Options) (colour : Bool) : List Place → Session → IO Session
  | [], session => return session
  | place :: rest, session => do
    let opened ← openPlace place
    let next ← perform options.threshold colour (session.visit options.command (place, opened))
    writeNew next session.out.written.size session.notes.written.size
    if next.report.isSome then return next else visitPlaces options colour rest next

/-- Runs the command of the options. -/
def runOptions (options : Options) : IO UInt32 := do
  let colour := (← IO.getEnv "FORCE_COLOR").isSome
  perform options.threshold colour (Session.announce options)
  let session ← visitPlaces options colour options.places Session.start
  perform options.threshold colour session.close
  if let some report := session.report then
    IO.eprintln ("Error: " ++ "\n  caused by: ".intercalate report.chain)
  return UInt32.ofNat session.exitCode

/-- How the program is called. -/
def usage : String :=
  "Usage: " ++ programName ++ " [-v|-q|--log-level LEVEL]... tokens|parse [FILE]..."

/-- What is said when no command is run. -/
def stopText : Stop → String
  | .help | .nothing => usage
  | .version => programName ++ " " ++ programVersion
  | .noCommand => "error: a command is required"
  | .unknownCommand => "error: unknown command"
  | .unknownArgument => "error: unexpected argument"
  | .badValue => "error: invalid value"
  | .noValue => "error: a value is required"
  | .unusedValue => "error: unexpected value"
  | .conflict => "error: options can not be used together"

end FrontEnd.CommandLine

open FrontEnd.CommandLine

/-- Reads the command line and runs its command. -/
def main (words : List String) : IO UInt32 := do
  match read words (← IO.getEnv "RUST_LOG") with
  | .ok options => runOptions options
  | .error stop =>
    match stop with
    | .help | .version =>
      IO.println (stopText stop)
      return 0
    | _ =>
      IO.eprintln (stopText stop)
      return 2
