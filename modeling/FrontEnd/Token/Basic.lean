import FrontEnd.Text.Form
import FrontEnd.Text.Quoted
import FrontEnd.Token.Kind

/-!
# Tokens

A token is a kind and the literal it was read from. The tokens of kinds with a fixed literal
are written `Token.fixed? kind`; `Token.endOfInput` and `Token.illegal` are two of them.
-/

namespace FrontEnd

open Text

/-- A kind together with a literal. -/
structure Token where
  kind : Kind
  literal : String
  deriving DecidableEq, Repr

namespace Token

/-- The token of a kind whose literal is fixed. -/
def fixed? (kind : Kind) : Option Token :=
  kind.literal?.map fun literal => ⟨kind, literal⟩

/-- The token at the end of the input. -/
def endOfInput : Token := ⟨.endOfInput, ""⟩

/-- The token of a character that begins no token. -/
def illegal : Token := ⟨.illegal, "ILLEGAL"⟩

/-- Whether a token is at the end of the input. -/
def isEnd (token : Token) : Bool :=
  token.kind == .endOfInput

/-- The literal is one that the kind admits. -/
def Admitted (token : Token) : Prop :=
  token.kind.admits token.literal

/-- A token in a message: its name and, in brackets, its literal. -/
def text (token : Token) : String :=
  token.kind.name ++ " (" ++ Quoted.text token.literal ++ ")"

/-- A token as the head of its kind applied to its literal, on one line. -/
def inspect (token : Token) : String :=
  token.kind.head ++ "(" ++ Quoted.text token.literal ++ ")"

/-- A token is one word of a form. -/
def form (token : Token) : Form :=
  .word token.inspect

end Token

end FrontEnd
