import FrontEnd.Chars.Stream
import FrontEnd.Text.Alphabetic
import FrontEnd.Text.Blank

/-!
# Token streams

A token stream takes tokens from a character stream on demand. White space separates tokens.
A token is a run of alphabetic characters, a number, `=` or `!` or one of them followed by
`=`, a symbol that stands alone, or else one character, which makes an illegal token. At the
end of the input there is the end token, again and again.
-/

namespace FrontEnd

open Text

namespace CharStream

/-- The rest of a word that began with `first`, a reserved word or an identifier. -/
def wordAfter (first : Char) (chars : CharStream) : Run (Token × CharStream) := do
  let (rest, chars) ← chars.takeWhile isAlphabetic
  let literal := String.ofList (first :: rest)
  return (← Token.make (Kind.ofWord literal) literal, chars)

/-- A point and the digits after it, if a point is next. -/
def fraction (chars : CharStream) : Run (List Char × CharStream) := do
  match ← chars.read with
  | (none, chars) => return ([], chars)
  | (some c, chars) =>
    if c = '.' then
      let (digits, chars) ← chars.takeWhile Char.isDigit
      return ('.' :: digits, chars)
    else return ([], ← chars.unread c)

/-- The rest of a number that began with `first`: digits with at most one point in them or
after them. -/
def numberAfter (first : Char) (chars : CharStream) : Run (Token × CharStream) := do
  let (whole, chars) ← chars.takeWhile Char.isDigit
  let (part, chars) ← chars.fraction
  return (← Token.make .number (String.ofList (first :: whole ++ part)), chars)

/-- The token of kind `two` if `=` is next, which is taken with it, and else that of kind
`one`. -/
def equalsAfter (one two : Kind) (chars : CharStream) : Run (Token × CharStream) := do
  match ← chars.peek with
  | (some '=', chars) =>
    let (_, chars) ← chars.read
    return ((Token.fixed? two).getD .illegal, chars)
  | (_, chars) => return ((Token.fixed? one).getD .illegal, chars)

/-- The token that begins with `first`. -/
def tokenAfter (first : Char) (chars : CharStream) : Run (Token × CharStream) :=
  if first = '=' then chars.equalsAfter .assign .equal
  else if first = '!' then chars.equalsAfter .bang .notEqual
  else if isAlphabetic first then chars.wordAfter first
  else if first.isDigit then chars.numberAfter first
  else
    match Kind.ofSymbol? first with
    | some kind => do
      return (← Token.make kind (String.singleton first), chars)
    | none => do
      Run.tell (.strayChar first)
      return (.illegal, chars)

/-- The token at the front, where there is no white space. -/
def nextToken (chars : CharStream) : Run (Token × CharStream) := do
  match ← chars.read with
  | (none, chars) => return (.endOfInput, chars)
  | (some c, chars) => chars.tokenAfter c

end CharStream

/-- The tokens of a source, one at a time. -/
structure TokenStream where
  chars : CharStream
  deriving DecidableEq, Repr

namespace TokenStream

/-- The tokens of a source that was not called yet. -/
def ofSource (source : Source) : TokenStream :=
  ⟨.ofSource source CharStream.defaultCapacity⟩

/-- The number of tokens that the stream can give at most. -/
def weight (stream : TokenStream) : Nat :=
  stream.chars.weight

/-- The next token, and the stream after it. -/
def next (stream : TokenStream) : Run (Token × TokenStream) := do
  let (_, chars) ← stream.chars.takeWhile isBlank
  let (token, chars) ← chars.nextToken
  Run.tell (.scanned token)
  return (token, ⟨chars⟩)

/-- The next token, unless it is the end. -/
def next? (stream : TokenStream) : Run (Option Token × TokenStream) := do
  let (token, rest) ← stream.next
  return (if token.isEnd then none else some token, rest)

/-- The failure that ended the source, and the stream without it. -/
def takeFailure (stream : TokenStream) : Option Failure × TokenStream :=
  (stream.chars.takeFailure.1, ⟨stream.chars.takeFailure.2⟩)

/-- A token stream with its fields. -/
def form (stream : TokenStream) : Form :=
  .record "Lexer" [("reader", stream.chars.form)] true

/-! ### Taking tokens -/

private theorem weight_of_wordAfter {first : Char} {chars rest : CharStream} {token : Token}
    (h : (chars.wordAfter first).Yields (token, rest)) :
  rest.weight ≤ chars.weight
  := by
  obtain ⟨⟨cs, last⟩, htake, h⟩ := Run.yields_bind.mp h
  obtain ⟨token', -, h⟩ := Run.yields_bind.mp h
  simp only [Run.yields_pure, Prod.mk.injEq] at h
  obtain ⟨-, rfl⟩ := h
  exact CharStream.weight_of_takeWhile htake

private theorem weight_of_fraction {chars rest : CharStream} {part : List Char}
    (h : chars.fraction.Yields (part, rest)) :
  rest.weight ≤ chars.weight
  := by
  obtain ⟨⟨c?, next⟩, hread, h⟩ := Run.yields_bind.mp h
  cases c? with
  | none =>
    simp only [Run.yields_pure, Prod.mk.injEq] at h
    obtain ⟨-, rfl⟩ := h
    exact CharStream.weight_of_read_none hread
  | some c =>
    have hlt := CharStream.weight_of_read_some hread
    simp only at h
    split at h
    · obtain ⟨⟨digits, last⟩, htake, h⟩ := Run.yields_bind.mp h
      simp only [Run.yields_pure, Prod.mk.injEq] at h
      obtain ⟨-, rfl⟩ := h
      have hle := CharStream.weight_of_takeWhile htake
      omega
    · obtain ⟨last, hunread, h⟩ := Run.yields_bind.mp h
      simp only [Run.yields_pure, Prod.mk.injEq] at h
      obtain ⟨-, rfl⟩ := h
      have heq := CharStream.weight_of_unread hunread
      omega

private theorem weight_of_numberAfter {first : Char} {chars rest : CharStream} {token : Token}
    (h : (chars.numberAfter first).Yields (token, rest)) :
  rest.weight ≤ chars.weight
  := by
  obtain ⟨⟨whole, middle⟩, htake, h⟩ := Run.yields_bind.mp h
  obtain ⟨⟨part, last⟩, hpart, h⟩ := Run.yields_bind.mp h
  obtain ⟨token', -, h⟩ := Run.yields_bind.mp h
  simp only [Run.yields_pure, Prod.mk.injEq] at h
  obtain ⟨-, rfl⟩ := h
  exact Nat.le_trans (weight_of_fraction hpart) (CharStream.weight_of_takeWhile htake)

private theorem weight_of_peek {chars rest : CharStream} {c? : Option Char}
    (h : chars.peek.Yields (c?, rest)) :
  rest.weight ≤ chars.weight
  := by
  obtain ⟨⟨c', next⟩, hread, h⟩ := Run.yields_bind.mp h
  cases c' with
  | none =>
    simp only [Run.yields_pure, Prod.mk.injEq] at h
    obtain ⟨-, rfl⟩ := h
    exact CharStream.weight_of_read_none hread
  | some c =>
    obtain ⟨last, hunread, h⟩ := Run.yields_bind.mp h
    simp only [Run.yields_pure, Prod.mk.injEq] at h
    obtain ⟨-, rfl⟩ := h
    have hlt := CharStream.weight_of_read_some hread
    have heq := CharStream.weight_of_unread hunread
    omega

private theorem weight_of_read {chars rest : CharStream} {c? : Option Char}
    (h : chars.read.Yields (c?, rest)) :
  rest.weight ≤ chars.weight
  := by
  cases c? with
  | none => exact CharStream.weight_of_read_none h
  | some c => exact Nat.le_of_lt (CharStream.weight_of_read_some h)

private theorem weight_of_equalsAfter {one two : Kind} {chars rest : CharStream} {token : Token}
    (h : (chars.equalsAfter one two).Yields (token, rest)) :
  rest.weight ≤ chars.weight
  := by
  obtain ⟨⟨c?, next⟩, hpeek, h⟩ := Run.yields_bind.mp h
  have hle := weight_of_peek hpeek
  split at h
  · obtain ⟨⟨_, last⟩, hread, h⟩ := Run.yields_bind.mp h
    simp only [Run.yields_pure, Prod.mk.injEq] at h hle
    obtain ⟨-, rfl⟩ := h
    have hle' := weight_of_read hread
    simp_all
    omega
  · simp only [Run.yields_pure, Prod.mk.injEq] at h
    simp_all

/-- The characters of a token are no longer in the stream. -/
theorem weight_of_tokenAfter {first : Char} {chars rest : CharStream} {token : Token}
    (h : (chars.tokenAfter first).Yields (token, rest)) :
  rest.weight ≤ chars.weight
  := by
  unfold CharStream.tokenAfter at h
  split at h
  · exact weight_of_equalsAfter h
  split at h
  · exact weight_of_equalsAfter h
  split at h
  · exact weight_of_wordAfter h
  split at h
  · exact weight_of_numberAfter h
  split at h
  · obtain ⟨token', -, h⟩ := Run.yields_bind.mp h
    simp only [Run.yields_pure, Prod.mk.injEq] at h
    exact Nat.le_of_eq (congrArg _ h.2.symm)
  · obtain ⟨_, -, h⟩ := Run.yields_bind.mp h
    simp only [Run.yields_pure, Prod.mk.injEq] at h
    exact Nat.le_of_eq (congrArg _ h.2.symm)

/-- A token other than the end takes a character from the stream. -/
theorem weight_of_nextToken {chars rest : CharStream} {token : Token}
    (h : chars.nextToken.Yields (token, rest)) :
  rest.weight ≤ chars.weight ∧ (token.isEnd = false → rest.weight < chars.weight)
  := by
  obtain ⟨⟨c?, next⟩, hread, h⟩ := Run.yields_bind.mp h
  cases c? with
  | none =>
    simp only [Run.yields_pure, Prod.mk.injEq] at h
    obtain ⟨rfl, rfl⟩ := h
    exact ⟨CharStream.weight_of_read_none hread, fun hend => absurd hend (by decide)⟩
  | some c =>
    have hlt := Nat.lt_of_le_of_lt (weight_of_tokenAfter h) (CharStream.weight_of_read_some hread)
    exact ⟨Nat.le_of_lt hlt, fun _ => hlt⟩

/-- A token other than the end takes something from the stream. -/
theorem weight_of_next {stream rest : TokenStream} {token : Token}
    (h : stream.next.Yields (token, rest)) :
  rest.weight ≤ stream.weight ∧ (token.isEnd = false → rest.weight < stream.weight)
  := by
  obtain ⟨⟨_, chars⟩, hblank, h⟩ := Run.yields_bind.mp h
  obtain ⟨⟨token', chars'⟩, htoken, h⟩ := Run.yields_bind.mp h
  obtain ⟨_, -, h⟩ := Run.yields_bind.mp h
  simp only [Run.yields_pure, Prod.mk.injEq] at h
  obtain ⟨rfl, rfl⟩ := h
  have hle := CharStream.weight_of_takeWhile hblank
  obtain ⟨hnext, hlt⟩ := weight_of_nextToken htoken
  exact ⟨Nat.le_trans hnext hle, fun hend => Nat.lt_of_lt_of_le (hlt hend) hle⟩

/-- The tokens up to the end. -/
def toList (stream : TokenStream) : Run (List Token × TokenStream) := do
  let ⟨(token, rest), h⟩ ← stream.next.attach
  if hend : token.isEnd then return ([], rest)
  else
    have := (weight_of_next h).2 (by simpa using hend)
    (fun (tokens, last) => (token :: tokens, last)) <$> toList rest
termination_by stream.weight

end TokenStream

end FrontEnd
