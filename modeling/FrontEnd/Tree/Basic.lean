import FrontEnd.Fault

/-!
# Program trees

A program is a list of statements: bindings `let NAME = …;` and results `return …;`. Every
node keeps the token that introduced it. Statements are built by `Statement.makeBinding` and
`Statement.makeResult`, which refuse a token that introduces something else, and identifiers
by `Identifier.ofToken?`, which takes identifier tokens only.
-/

namespace FrontEnd

open Text

/-- A name, with the token that spells it. -/
structure Identifier where
  token : Token
  value : String
  deriving DecidableEq, Repr

/-- An expression. -/
inductive Expr where
  | identifier (name : Identifier)
  deriving DecidableEq, Repr

/-- A statement, with the token that introduces it. -/
inductive Statement where
  /-- A binding of a name, and its value if there is one. -/
  | binding (token : Token) (name : Identifier) (value : Option Expr)
  /-- A result, and its value if there is one. -/
  | result (token : Token) (value : Option Expr)
  deriving DecidableEq, Repr

/-- The statements of a whole text, in order. -/
structure Program where
  statements : List Statement
  deriving DecidableEq, Repr

/-! ### Identifiers and expressions -/

namespace Identifier

/-- The identifier that a token spells. -/
def ofToken? (token : Token) : Option Identifier :=
  if token.kind = .identifier then some ⟨token, token.literal⟩ else none

/-- An identifier with its fields. -/
def form (name : Identifier) : Form :=
  .record "Identifier" [("token", name.token.form), ("value", .word (Quoted.text name.value))] true

theorem ofToken?_eq_some_iff {token : Token} {name : Identifier} :
  ofToken? token = some name ↔ token.kind = .identifier ∧ name = ⟨token, token.literal⟩
  := by
  unfold ofToken?
  split
  · next h => simp [h, eq_comm (a := name)]
  · next h => simp [h]

end Identifier

namespace Expr

/-- The name of an expression that is one. -/
def name : Expr → Identifier
  | identifier name => name

/-- The literal of the token that introduces an expression. -/
def literal : Expr → String
  | identifier name => name.token.literal

/-- An expression with its fields. -/
def form : Expr → Form
  | identifier name => .tuple "Identifier" [name.form]

end Expr

/-! ### Statements -/

namespace Statement

/-- A binding, refused unless its token is `let`. -/
def makeBinding (token : Token) (name : Identifier) (value : Option Expr) :
    Except Fault Statement :=
  if token.kind = .letWord then .ok (binding token name value) else .error (.notLet token)

/-- A result, refused unless its token is `return`. -/
def makeResult (token : Token) (value : Option Expr) : Except Fault Statement :=
  if token.kind = .returnWord then .ok (result token value) else .error (.notReturn token)

/-- The token that introduces a statement. -/
def token : Statement → Token
  | binding token _ _ => token
  | result token _ => token

/-- The value of a statement. -/
def value : Statement → Option Expr
  | binding _ _ value => value
  | result _ value => value

/-- The literal of the token that introduces a statement. -/
def literal (statement : Statement) : String :=
  statement.token.literal

/-- Whether a statement binds a name. -/
def isBinding : Statement → Bool
  | binding _ _ _ => true
  | result _ _ => false

/-- A statement with its fields. -/
def form : Statement → Form
  | binding token name value =>
    .tuple "Let" [.record "LetStatement"
      [("token", token.form), ("name", name.form), ("value", .optional (value.map Expr.form))] true]
  | result token value =>
    .tuple "Return" [.record "ReturnStatement"
      [("token", token.form), ("value", .optional (value.map Expr.form))] true]

end Statement

/-! ### Programs -/

namespace Program

/-- The program without statements. -/
def empty : Program := ⟨[]⟩

/-- A program with one more statement at its end. -/
def push (program : Program) (statement : Statement) : Program :=
  ⟨program.statements ++ [statement]⟩

/-- A program followed by another one. -/
def append (program next : Program) : Program :=
  ⟨program.statements ++ next.statements⟩

instance : Append Program := ⟨append⟩

/-- The number of statements. -/
def size (program : Program) : Nat :=
  program.statements.length

/-- Whether there is no statement. -/
def isEmpty (program : Program) : Bool :=
  program.statements.isEmpty

/-- The literal of the first statement, and the empty text if there is none. -/
def literal (program : Program) : String :=
  match program.statements with
  | [] => ""
  | first :: _ => first.literal

/-- The statements at the given places; a place without a statement gives none. -/
def select (program : Program) (places : List Nat) : Program :=
  ⟨places.filterMap fun place => program.statements[place]?⟩

/-- A program with its statements. -/
def form (program : Program) : Form :=
  .record "Program" [("statements", .list (program.statements.map Statement.form))] true

@[simp]
theorem statements_empty :
  empty.statements = []
  := rfl

@[simp]
theorem statements_push (program : Program) (statement : Statement) :
  (program.push statement).statements = program.statements ++ [statement]
  := rfl

@[simp]
theorem statements_append (program next : Program) :
  (program ++ next).statements = program.statements ++ next.statements
  := rfl

end Program

end FrontEnd
