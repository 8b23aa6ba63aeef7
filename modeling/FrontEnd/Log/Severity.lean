/-!
# Severities

The severities of log records, and thresholds between them. A threshold lets the records of
one severity and of all graver ones through, or none at all.
-/

namespace FrontEnd

/-- How grave a record is, from the gravest on. -/
inductive Severity where
  | error
  | warn
  | info
  | debug
  | trace
  deriving DecidableEq, Repr

namespace Severity

/-- The place of a severity, counted from the gravest. -/
def rank : Severity → Nat
  | error => 0
  | warn => 1
  | info => 2
  | debug => 3
  | trace => 4

/-- The name of a severity. -/
def name : Severity → String
  | error => "ERROR"
  | warn => "WARN"
  | info => "INFO"
  | debug => "DEBUG"
  | trace => "TRACE"

/-- The number of the colour that a terminal shows a severity in. -/
def colour : Severity → String
  | error => "91"
  | warn => "93"
  | info => "32"
  | debug => "34"
  | trace => "35"

/-- The name of a severity between the sequences that turn its colour on and off. -/
def painted (severity : Severity) : String :=
  "\x1b[" ++ severity.colour ++ "m" ++ severity.name ++ "\x1b[39m"

end Severity

/-- The least grave severity that is let through; with `none`, nothing is. -/
abbrev Threshold : Type := Option Severity

namespace Threshold

/-- Every threshold. -/
def all : List Threshold :=
  [none, some .error, some .warn, some .info, some .debug, some .trace]

/-- Whether records of a severity are let through. -/
def lets (threshold : Threshold) (severity : Severity) : Bool :=
  threshold.any fun limit => severity.rank ≤ limit.rank

/-- The name of a threshold. -/
def name : Threshold → String
  | none => "OFF"
  | some severity => severity.name

/-- The head of a threshold in forms. -/
def head : Threshold → String
  | none => "Off"
  | some .error => "Error"
  | some .warn => "Warn"
  | some .info => "Info"
  | some .debug => "Debug"
  | some .trace => "Trace"

/-- The threshold that a text names, in letters of either case. -/
def ofText? (text : String) : Option Threshold :=
  all.find? fun threshold => (name threshold).toLower == text.toLower

end Threshold

end FrontEnd
