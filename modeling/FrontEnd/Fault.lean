import FrontEnd.Token.Basic

/-!
# Faults

What a caller can do wrong. The builders and streams of this library check what they are
given and answer a fault instead of a value where a caller broke its part.
-/

namespace FrontEnd

open Text

/-- A broken condition of a checked operation. -/
inductive Fault where
  /-- A token was asked for with a literal that its kind does not admit. -/
  | foreignLiteral (kind : Kind) (literal : String)
  /-- A character was pushed back while another one was waiting. -/
  | slotTaken
  /-- A binding was built from another token than `let`. -/
  | notLet (token : Token)
  /-- A result was built from another token than `return`. -/
  | notReturn (token : Token)
  deriving DecidableEq, Repr

/-- What is said about a fault. -/
def Fault.message : Fault → String
  | foreignLiteral kind literal =>
    Quoted.text literal ++ " can not be the literal of a " ++ kind.name ++ " token"
  | slotTaken => "only one character can be pushed back"
  | notLet token => token.inspect ++ " is not a let token"
  | notReturn token => token.inspect ++ " is not a return token"

/-- The token of a kind with a literal, refused unless the kind admits the literal. -/
def Token.make (kind : Kind) (literal : String) : Except Fault Token :=
  if kind.admits literal then .ok ⟨kind, literal⟩ else .error (.foreignLiteral kind literal)

/-- Building a token succeeds exactly with the literals that its kind admits. -/
theorem Token.make_eq_ok_iff {kind : Kind} {literal : String} {token : Token} :
  Token.make kind literal = .ok token ↔ kind.admits literal ∧ token = ⟨kind, literal⟩
  := by
  unfold Token.make
  split
  · next h => simp [h, eq_comm (a := token)]
  · next h => simp [h]

end FrontEnd
