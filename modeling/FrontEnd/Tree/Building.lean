import FrontEnd.Tree.Window

/-!
# Building programs

Programs are also built step by step: by adding a statement made of tokens, by adding the
statements of a text, by choosing statements by their places, and by starting anew. A step
that is refused, or that comes to a fault, leaves the program as it was.
-/

namespace FrontEnd

/-- The kind and the literal that a token is to be made of. -/
abbrev TokenParts : Type := Kind × String

/-- A step in building a program. -/
inductive BuildStep where
  /-- Add a binding of these tokens. -/
  | addBinding (token name : TokenParts) (value : Option TokenParts)
  /-- Add a result of these tokens. -/
  | addResult (token : TokenParts) (value : Option TokenParts)
  /-- Add the statements of a text. -/
  | addParsed (text : String)
  /-- Keep the statements at these places, in this order. -/
  | select (places : List Nat)
  /-- Start anew. -/
  | clear
  deriving DecidableEq, Repr

/-- Why a step is refused. -/
inductive Refusal where
  /-- The name is no identifier. -/
  | name
  /-- The value is no identifier. -/
  | value
  deriving DecidableEq, Repr

/-- The token made of its parts. -/
def Token.ofParts (parts : TokenParts) : Except Fault Token :=
  Token.make parts.1 parts.2

/-- The value made of the parts of its token, if there is one. -/
def Expr.ofParts? : Option TokenParts → Except Fault (Except Refusal (Option Expr))
  | none => .ok (.ok none)
  | some parts => do
    match Identifier.ofToken? (← Token.ofParts parts) with
    | none => return .error .value
    | some name => return .ok (some (.identifier name))

namespace Program

/-- A program with one more binding made of tokens. -/
def addBinding (program : Program) (token name : TokenParts) (value : Option TokenParts) :
    Except Fault (Except Refusal Program) := do
  let token ← Token.ofParts token
  match Identifier.ofToken? (← Token.ofParts name) with
  | none => return .error .name
  | some name =>
    match ← Expr.ofParts? value with
    | .error refusal => return .error refusal
    | .ok value => return .ok (program.push (← Statement.makeBinding token name value))

/-- A program with one more result made of tokens. -/
def addResult (program : Program) (token : TokenParts) (value : Option TokenParts) :
    Except Fault (Except Refusal Program) := do
  let token ← Token.ofParts token
  match ← Expr.ofParts? value with
  | .error refusal => return .error refusal
  | .ok value => return .ok (program.push (← Statement.makeResult token value))

/-- One step in building a program. -/
def build (program : Program) : BuildStep → Run (Except Refusal Program)
  | .addBinding token name value => program.addBinding token name value
  | .addResult token value => program.addResult token value
  | .addParsed text => do
    let (parsed, _) ← Program.parse text
    return .ok (program ++ parsed)
  | .select places => return .ok (program.select places)
  | .clear => return .ok empty

/-- Steps in building a program, one after the other; a step that is refused, or that comes to
a fault, changes nothing. -/
def buildAll (program : Program) : List BuildStep → Program
  | [] => program
  | step :: rest =>
    match (program.build step).outcome with
    | .ok (.ok next) => next.buildAll rest
    | _ => program.buildAll rest

end Program

end FrontEnd
