import FrontEnd.Source.Failure
import FrontEnd.Text.Utf8

/-!
# Sinks and reports

A sink takes bytes in order, up to its limit if it has one; a text that does not fit is taken
as far as it does, and the sink is full. A report says why a listing or a command stopped.
-/

namespace FrontEnd

open Text

/-- Something that bytes are written to. -/
structure Sink where
  /-- How many bytes the sink takes, if not any number. -/
  limit : Option Nat
  written : Array UInt8
  deriving DecidableEq, Repr

namespace Sink

/-- A sink that nothing was written to. -/
def ofLimit (limit : Option Nat) : Sink :=
  ⟨limit, #[]⟩

/-- The bytes, of those that are to be written, that the sink still takes. -/
def fitting (sink : Sink) (bytes : List UInt8) : List UInt8 :=
  match sink.limit with
  | none => bytes
  | some limit => bytes.take (limit - sink.written.size)

/-- Whether the sink takes a text whole, and the sink after it took what it does. -/
def write (sink : Sink) (text : String) : Bool × Sink :=
  let bytes := Utf8.encode text
  let taken := sink.fitting bytes
  (taken.length == bytes.length, { sink with written := sink.written ++ taken })

/-- The text of what was written; bytes of a cut character show as a replacement. -/
def text (sink : Sink) : String :=
  String.ofList (Utf8.decode sink.written.toList)

/-- A sink without limit takes every text whole. -/
theorem write_of_unlimited {sink : Sink} (h : sink.limit = none) (text : String) :
  sink.write text = (true, { sink with written := sink.written ++ Utf8.encode text })
  := by simp [write, fitting, h]

/-- A sink takes the bytes of a text from the front. -/
theorem isPrefix_fitting (sink : Sink) (bytes : List UInt8) :
  sink.fitting bytes <+: bytes
  := by
  unfold fitting
  split
  · exact List.prefix_refl bytes
  · exact List.take_prefix _ bytes

end Sink

/-- Why a listing or a command stopped. -/
inductive Report where
  /-- A sink did not take a text. -/
  | sinkFull
  /-- A place could not be opened. -/
  | notOpened (name : String) (failure : Failure)
  /-- A source failed. -/
  | notRead (name : String) (failure : Failure)
  deriving DecidableEq, Repr

/-- What is said about a report: a message, and then its cause if there is one. -/
def Report.chain : Report → List String
  | sinkFull => ["sink is full"]
  | notOpened name failure => ["could not open " ++ name, failure.message]
  | notRead name failure => ["could not read " ++ name, failure.message]

end FrontEnd
