import FrontEnd.Listing.Sink
import FrontEnd.Token.Stream

/-!
# Token listings

The tokens of a source, one on each line: the name of its kind, a space and its literal. The
listing counts the illegal tokens and logs each of them before its line.
-/

namespace FrontEnd

namespace Token

/-- The line of a token. -/
def line (token : Token) : String :=
  token.kind.name ++ " " ++ token.literal ++ "\n"

end Token

namespace TokenStream

/-- The tokens up to the end, each on its line; the answer is the number of illegal tokens,
`illegal` of them already counted, and the stream at its end. -/
def listLines (name : String) (illegal : Nat) (out : Sink) (stream : TokenStream) :
    Run (Except Report (Nat × TokenStream) × Sink) := do
  let ⟨(token, rest), h⟩ ← stream.next.attach
  if hend : token.isEnd then return (.ok (illegal, rest), out)
  else
    if token.kind = .illegal then Run.tell (.illegalToken name)
    let (whole, out) := out.write token.line
    if whole then
      have := (weight_of_next h).2 (by simpa using hend)
      listLines name (if token.kind = .illegal then illegal + 1 else illegal) out rest
    else return (.error .sinkFull, out)
termination_by stream.weight

/-- The listing of a source with the given name; the answer is the number of illegal tokens. -/
def list (name : String) (stream : TokenStream) (out : Sink) : Run (Except Report Nat × Sink) := do
  match ← stream.listLines name 0 out with
  | (.error report, out) => return (.error report, out)
  | (.ok (illegal, last), out) =>
    match last.takeFailure.1 with
    | some failure => return (.error (.notRead name failure), out)
    | none =>
      Run.tell (.tokensListed name illegal)
      return (.ok illegal, out)

end TokenStream

/-- The token listing of a source with the given name. -/
def Source.listTokens (name : String) (source : Source) (out : Sink) :
    Run (Except Report Nat × Sink) :=
  (TokenStream.ofSource source).list name out

end FrontEnd
