import FrontEnd.Token.Stream

/-!
# Reading statements

A window shows two tokens of a token stream: the one under view and the one after it. Moving
it on, it reads statements: `let NAME =` and `return`, each with everything up to the next
semicolon or the end. A `let` without a name and `=` after it is dropped and leaves a
diagnostic, and reading goes on with the next token; a token that begins no statement is
skipped. The values of statements are not looked into.
-/

namespace FrontEnd

open Text

/-- Two tokens of a stream, and the diagnostics of the statements dropped so far. -/
structure Window where
  /-- The tokens behind the window. -/
  tokens : TokenStream
  /-- The token under view. -/
  current : Token
  /-- The token after the one under view. -/
  following : Token
  diagnostics : Array Diagnostic
  deriving DecidableEq, Repr

namespace Window

/-- The window onto the first two tokens. -/
def ofTokens (tokens : TokenStream) : Run Window := do
  let (current, tokens) ← tokens.next
  let (following, tokens) ← tokens.next
  return ⟨tokens, current, following, #[]⟩

/-- The window onto the first two tokens of a source that was not called yet. -/
def ofSource (source : Source) : Run Window :=
  ofTokens (.ofSource source)

/-- The number of tokens that the window can come to at most. -/
def weight (window : Window) : Nat :=
  window.tokens.weight + (if window.current.isEnd then 0 else 1)
    + (if window.following.isEnd then 0 else 1)

/-- The window moved on by one token. -/
def advance (window : Window) : Run Window := do
  let (next, tokens) ← window.tokens.next
  return { window with tokens := tokens, current := window.following, following := next }

/-- The failure that ended the source, and the window without it. -/
def takeFailure (window : Window) : Option Failure × Window :=
  (window.tokens.takeFailure.1, { window with tokens := window.tokens.takeFailure.2 })

/-- A window with its fields. -/
def form (window : Window) : Form :=
  .record "Parser"
    [("lexer", window.tokens.form), ("current", window.current.form),
      ("peek", window.following.form),
      ("errors", .list (window.diagnostics.toList.map Diagnostic.form))] true

/-- Moving on adds nothing, and takes something unless the end is under view. -/
theorem weight_of_advance {window next : Window} (h : window.advance.Yields next) :
  next.weight ≤ window.weight ∧ (window.current.isEnd = false → next.weight < window.weight)
  := by
  obtain ⟨⟨token, tokens⟩, htoken, h⟩ := Run.yields_bind.mp h
  obtain rfl := Run.yields_pure.mp h
  obtain ⟨hle, hlt⟩ := TokenStream.weight_of_next htoken
  simp only [weight]
  cases hend : token.isEnd with
  | true =>
    refine ⟨?_, fun hcurrent => ?_⟩
    · simp only [if_true]
      omega
    · simp only [if_true, hcurrent, Bool.false_eq_true, if_false]
      omega
  | false =>
    have hlt := hlt hend
    refine ⟨?_, fun hcurrent => ?_⟩
    · simp only [Bool.false_eq_true, if_false]
      omega
    · simp only [hcurrent, Bool.false_eq_true, if_false]
      omega

/-! ### Statements -/

/-- The window moved on to the next semicolon, or to the end if there is none. -/
def skipToSemicolon (window : Window) : Run Window :=
  if hstop : window.current.kind = .semicolon ∨ window.current.kind = .endOfInput then pure window
  else do
    let ⟨next, h⟩ ← window.advance.attach
    have := (weight_of_advance h).2 (by simpa [Token.isEnd] using (not_or.mp hstop).2)
    skipToSemicolon next
termination_by window.weight

/-- The window moved on if the following token is of a kind; else the window with one more
diagnostic. -/
def expect (window : Window) (kind : Kind) : Run (Bool × Window) :=
  if window.following.kind = kind then do
    return (true, ← window.advance)
  else do
    let diagnostic : Diagnostic := ⟨kind, window.following⟩
    Run.tell (.dropped diagnostic)
    return (false, { window with diagnostics := window.diagnostics.push diagnostic })

/-- The binding that begins under view, unless it is dropped. -/
def binding (window : Window) : Run (Option Statement × Window) := do
  match ← window.expect .identifier with
  | (false, next) => return (none, next)
  | (true, next) =>
    match Identifier.ofToken? next.current with
    | none => return (none, next)
    | some name =>
      match ← next.expect .assign with
      | (false, next) => return (none, next)
      | (true, next) =>
        let next ← next.skipToSemicolon
        return (some (← Statement.makeBinding window.current name none), next)

/-- The result that begins under view. -/
def result (window : Window) : Run (Option Statement × Window) := do
  let next ← window.advance
  let next ← next.skipToSemicolon
  return (some (← Statement.makeResult window.current none), next)

/-- The statement that begins under view, if there is one and it is not dropped. -/
def statement (window : Window) : Run (Option Statement × Window) :=
  match window.current.kind with
  | .letWord => window.binding
  | .returnWord => window.result
  | _ => do
    Run.tell (.skipped window.current)
    return (none, window)

theorem weight_of_skipToSemicolon {window next : Window}
    (h : window.skipToSemicolon.Yields next) :
  next.weight ≤ window.weight
  := by
  fun_induction skipToSemicolon window with
  | case1 =>
    obtain rfl := Run.yields_pure.mp h
    exact Nat.le_refl _
  | case2 window hstop ih =>
    obtain ⟨⟨middle, hmiddle⟩, -, h⟩ := Run.yields_bind.mp h
    exact Nat.le_trans (ih middle hmiddle h) (weight_of_advance hmiddle).1

/-- An expectation that is met moves the window on, and one that is not leaves it. -/
theorem weight_of_expect {window next : Window} {kind : Kind} {met : Bool}
    (h : (window.expect kind).Yields (met, next)) :
  next.weight ≤ window.weight
    ∧ (window.current.isEnd = false →
        next.weight < window.weight ∨ met = false ∧ next.current = window.current)
  := by
  unfold expect at h
  split at h
  · obtain ⟨middle, hmiddle, h⟩ := Run.yields_bind.mp h
    simp only [Run.yields_pure, Prod.mk.injEq] at h
    obtain ⟨-, rfl⟩ := h
    obtain ⟨hle, hlt⟩ := weight_of_advance hmiddle
    exact ⟨hle, fun hcurrent => Or.inl (hlt hcurrent)⟩
  · obtain ⟨_, -, h⟩ := Run.yields_bind.mp h
    simp only [Run.yields_pure, Prod.mk.injEq] at h
    obtain ⟨rfl, rfl⟩ := h
    exact ⟨Nat.le_refl _, fun _ => Or.inr ⟨rfl, rfl⟩⟩

private theorem weight_of_binding {window next : Window} {statement? : Option Statement}
    (hcurrent : window.current.isEnd = false)
    (h : window.binding.Yields (statement?, next)) :
  next.weight < window.weight ∨ next.weight ≤ window.weight ∧ next.current = window.current
  := by
  obtain ⟨⟨met, named⟩, hnamed, h⟩ := Run.yields_bind.mp h
  obtain ⟨hle, hlt⟩ := weight_of_expect hnamed
  cases met with
  | false =>
    simp only [Run.yields_pure, Prod.mk.injEq] at h
    obtain ⟨-, rfl⟩ := h
    exact (hlt hcurrent).imp id fun hsame => ⟨hle, hsame.2⟩
  | true =>
    left
    have hlt : named.weight < window.weight := (hlt hcurrent).resolve_right (by simp)
    simp only at h
    split at h
    · simp only [Run.yields_pure, Prod.mk.injEq] at h
      obtain ⟨-, rfl⟩ := h
      exact hlt
    · obtain ⟨⟨met, assigned⟩, hassigned, h⟩ := Run.yields_bind.mp h
      have hle := (weight_of_expect hassigned).1
      cases met with
      | false =>
        simp only [Run.yields_pure, Prod.mk.injEq] at h
        obtain ⟨-, rfl⟩ := h
        omega
      | true =>
        obtain ⟨last, hlast, h⟩ := Run.yields_bind.mp h
        obtain ⟨made, -, h⟩ := Run.yields_bind.mp h
        simp only [Run.yields_pure, Prod.mk.injEq] at h
        obtain ⟨-, rfl⟩ := h
        have hskip := weight_of_skipToSemicolon hlast
        omega

private theorem weight_of_result {window next : Window} {statement? : Option Statement}
    (hcurrent : window.current.isEnd = false)
    (h : window.result.Yields (statement?, next)) :
  next.weight < window.weight
  := by
  obtain ⟨middle, hmiddle, h⟩ := Run.yields_bind.mp h
  obtain ⟨last, hlast, h⟩ := Run.yields_bind.mp h
  obtain ⟨made, -, h⟩ := Run.yields_bind.mp h
  simp only [Run.yields_pure, Prod.mk.injEq] at h
  obtain ⟨-, rfl⟩ := h
  have hlt := (weight_of_advance hmiddle).2 hcurrent
  have hle := weight_of_skipToSemicolon hlast
  omega

/-- Reading a statement moves the window on, or leaves the token under view. -/
theorem weight_of_statement {window next : Window} {statement? : Option Statement}
    (hcurrent : window.current.isEnd = false)
    (h : window.statement.Yields (statement?, next)) :
  next.weight < window.weight ∨ next.weight ≤ window.weight ∧ next.current = window.current
  := by
  unfold statement at h
  split at h
  · exact weight_of_binding hcurrent h
  · exact Or.inl (weight_of_result hcurrent h)
  · obtain ⟨_, -, h⟩ := Run.yields_bind.mp h
    simp only [Run.yields_pure, Prod.mk.injEq] at h
    obtain ⟨-, rfl⟩ := h
    exact Or.inr ⟨Nat.le_refl _, rfl⟩

private theorem weight_of_statement_advance {window middle next : Window}
    {statement? : Option Statement} (hcurrent : window.current.isEnd = false)
    (h : window.statement.Yields (statement?, middle)) (h' : middle.advance.Yields next) :
  next.weight < window.weight
  := by
  obtain ⟨hle, hlt⟩ := weight_of_advance h'
  rcases weight_of_statement hcurrent h with hmiddle | ⟨hmiddle, hsame⟩
  · omega
  · have hlt := hlt (by rw [hsame, hcurrent])
    omega

/-- The statements from the token under view to the end. -/
def statements (window : Window) : Run (List Statement × Window) :=
  if hend : window.current.isEnd then pure ([], window)
  else do
    let ⟨(statement?, middle), h⟩ ← window.statement.attach
    if let some statement := statement? then Run.tell (.parsed statement)
    let ⟨next, h'⟩ ← middle.advance.attach
    have := weight_of_statement_advance (by simpa using hend) h h'
    (fun (rest, last) => (statement?.toList ++ rest, last)) <$> statements next
termination_by window.weight

/-- The program from the token under view to the end. -/
def program (window : Window) : Run (Program × Window) :=
  (fun (statements, last) => (⟨statements⟩, last)) <$> window.statements

end Window

/-- The program that a source spells, with the diagnostics of what was dropped and the window
at its end. -/
def Source.parse (source : Source) : Run (Program × Window) := do
  let window ← Window.ofSource source
  window.program

/-- The program that a text spells, with the window at its end. -/
def Program.parse (text : String) : Run (Program × Window) :=
  (Source.ofBytes (Utf8.encode text)).parse

end FrontEnd
