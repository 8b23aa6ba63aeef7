/-!
# Kinds of tokens

The kinds of tokens, their names, and the texts that belong to them. A kind either has one
fixed literal or, for numbers and identifiers, a whole class of them; `Kind.admits` says which
literals a kind accepts. `Kind.ofWord` and `Kind.ofSymbol?` find the kind of a word and of a
symbol that stands alone.
-/

namespace FrontEnd

/-- The kind of a token. -/
inductive Kind where
  /-- A character that begins no token. -/
  | illegal
  /-- The end of the input, which repeats for ever. -/
  | endOfInput
  | number
  | identifier
  | plus
  | bang
  | minus
  | assign
  | slash
  | asterisk
  | greater
  | less
  | equal
  | notEqual
  | comma
  | semicolon
  | leftParen
  | rightParen
  | leftBrace
  | rightBrace
  | letWord
  | fnWord
  | trueWord
  | falseWord
  | ifWord
  | elseWord
  | returnWord
  deriving DecidableEq, Repr

namespace Kind

/-- Every kind, in the order in which they are listed. -/
def all : List Kind :=
  [illegal, endOfInput, number, identifier, plus, bang, minus, assign, slash, asterisk,
    greater, less, equal, notEqual, comma, semicolon, leftParen, rightParen, leftBrace,
    rightBrace, letWord, fnWord, trueWord, falseWord, ifWord, elseWord, returnWord]

theorem mem_all (kind : Kind) :
  kind ∈ all
  := by cases kind <;> decide

/-- The name of a kind in listings and messages. -/
def name : Kind → String
  | illegal => "ILLEGAL"
  | endOfInput => "EOF"
  | number => "NUMBER"
  | identifier => "IDENT"
  | plus => "PLUS"
  | bang => "BANG"
  | minus => "MINUS"
  | assign => "ASSIGN"
  | slash => "SLASH"
  | asterisk => "ASTERISK"
  | greater => "GT"
  | less => "LT"
  | equal => "EQ"
  | notEqual => "NOT_EQ"
  | comma => "COMMA"
  | semicolon => "SEMICOLON"
  | leftParen => "LPAREN"
  | rightParen => "RPAREN"
  | leftBrace => "LCURLY"
  | rightBrace => "RCURLY"
  | letWord => "LET"
  | fnWord => "FN"
  | trueWord => "TRUE"
  | falseWord => "FALSE"
  | ifWord => "IF"
  | elseWord => "ELSE"
  | returnWord => "RETURN"

/-- The head under which tokens of a kind appear in forms. -/
def head : Kind → String
  | illegal => "Illegal"
  | endOfInput => "Eof"
  | number => "Number"
  | identifier => "Ident"
  | plus => "Plus"
  | bang => "Bang"
  | minus => "Minus"
  | assign => "Assign"
  | slash => "Slash"
  | asterisk => "Asterisk"
  | greater => "Gt"
  | less => "Lt"
  | equal => "Eq"
  | notEqual => "NotEq"
  | comma => "Comma"
  | semicolon => "SemiColon"
  | leftParen => "LParen"
  | rightParen => "RParen"
  | leftBrace => "LCurly"
  | rightBrace => "RCurly"
  | letWord => "Let"
  | fnWord => "Fn"
  | trueWord => "True"
  | falseWord => "False"
  | ifWord => "If"
  | elseWord => "Else"
  | returnWord => "Return"

/-- The kind with a given name. -/
def ofName? (name : String) : Option Kind :=
  all.find? fun kind => kind.name == name

theorem ofName?_name (kind : Kind) :
  ofName? kind.name = some kind
  := by cases kind <;> decide

/-- A kind is determined by its name. -/
theorem name_injective {k k' : Kind} (h : k.name = k'.name) :
  k = k'
  := by
  have hk := ofName?_name k
  rw [h, ofName?_name k'] at hk
  exact (Option.some.inj hk).symm

/-! ### Literals -/

/-- The literal that every token of a kind has, if there is only one. -/
def literal? : Kind → Option String
  | illegal => some "ILLEGAL"
  | endOfInput => some ""
  | number => none
  | identifier => none
  | plus => some "+"
  | bang => some "!"
  | minus => some "-"
  | assign => some "="
  | slash => some "/"
  | asterisk => some "*"
  | greater => some ">"
  | less => some "<"
  | equal => some "=="
  | notEqual => some "!="
  | comma => some ","
  | semicolon => some ";"
  | leftParen => some "("
  | rightParen => some ")"
  | leftBrace => some "\x7b"
  | rightBrace => some "\x7d"
  | letWord => some "let"
  | fnWord => some "fn"
  | trueWord => some "true"
  | falseWord => some "false"
  | ifWord => some "if"
  | elseWord => some "else"
  | returnWord => some "return"

/-- Whether a kind is a reserved word. -/
def isReserved : Kind → Bool
  | letWord | fnWord | trueWord | falseWord | ifWord | elseWord | returnWord => true
  | _ => false

/-- The kind of a word: the reserved word that it spells, or an identifier. -/
def ofWord (word : String) : Kind :=
  match all.find? fun kind => kind.isReserved && kind.literal? == some word with
  | some kind => kind
  | none => identifier

/-- The kind of a symbol that is a token by itself, whatever follows it. -/
def ofSymbol? : Char → Option Kind
  | '+' => some plus
  | '-' => some minus
  | '*' => some asterisk
  | '/' => some slash
  | ',' => some comma
  | ';' => some semicolon
  | '(' => some leftParen
  | ')' => some rightParen
  | '{' => some leftBrace
  | '}' => some rightBrace
  | '>' => some greater
  | '<' => some less
  | _ => none

/-- Whether a token of this kind may have this literal: the fixed one if there is one, a text
that begins with a digit for numbers, and a nonempty text that is no reserved word for
identifiers. -/
def admits (kind : Kind) (literal : String) : Bool :=
  match kind with
  | identifier => !literal.isEmpty && ofWord literal == identifier
  | number => literal.toList.head?.any Char.isDigit
  | _ => kind.literal? == some literal

end Kind

end FrontEnd
