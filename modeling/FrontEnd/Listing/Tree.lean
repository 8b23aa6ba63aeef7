import FrontEnd.Listing.Sink
import FrontEnd.Tree.Window

/-!
# Tree listings

The program of a source, spread over lines, and one line for each diagnostic on a sink of its
own. A source that fails has no tree; the diagnostics wait until the tree is written.
-/

namespace FrontEnd

/-- The line of a diagnostic about the source with the given name. -/
def Diagnostic.line (name : String) (diagnostic : Diagnostic) : String :=
  name ++ ": error: " ++ diagnostic.message ++ "\n"

/-- The lines of a program. -/
def Program.lines (program : Program) : String :=
  program.form.spread ++ "\n"

namespace Sink

/-- Texts one after the other, up to the first that the sink does not take whole. -/
def writeAll (sink : Sink) : List String → Bool × Sink
  | [] => (true, sink)
  | text :: rest =>
    match sink.write text with
    | (true, sink) => sink.writeAll rest
    | (false, sink) => (false, sink)

end Sink

namespace Source

/-- The listing of a source with the given name: the program on `out` and the diagnostics on
`notes`. The answer is the number of statements that were dropped. -/
def listTree (name : String) (source : Source) (out notes : Sink) :
    Run (Except Report Nat × Sink × Sink) := do
  let (program, window) ← source.parse
  match window.takeFailure.1 with
  | some failure => return (.error (.notRead name failure), out, notes)
  | none =>
    Run.tell (.treeParsed name program.size)
    match out.write program.lines with
    | (false, out) => return (.error .sinkFull, out, notes)
    | (true, out) =>
      match notes.writeAll (window.diagnostics.toList.map (Diagnostic.line name)) with
      | (false, notes) => return (.error .sinkFull, out, notes)
      | (true, notes) => return (.ok window.diagnostics.size, out, notes)

end Source

end FrontEnd
