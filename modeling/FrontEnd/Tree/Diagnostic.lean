import FrontEnd.Token.Basic

/-!
# Diagnostics

Why a statement was dropped: the token after the one under view is of another kind than the
statement needs there.
-/

namespace FrontEnd

open Text

/-- A token of kind `expected` was needed where `found` stands. -/
structure Diagnostic where
  expected : Kind
  found : Token
  deriving DecidableEq, Repr

namespace Diagnostic

/-- What is said about a dropped statement. -/
def message (diagnostic : Diagnostic) : String :=
  "expected next token to be " ++ diagnostic.expected.name ++ ", got " ++ diagnostic.found.text
    ++ " instead"

/-- A diagnostic with its fields. -/
def form (diagnostic : Diagnostic) : Form :=
  .record "UnexpectedToken"
    [("expected", .word diagnostic.expected.head), ("found", diagnostic.found.form)] true

end Diagnostic

end FrontEnd
