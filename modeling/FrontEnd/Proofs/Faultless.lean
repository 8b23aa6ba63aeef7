import FrontEnd.Proofs.Tree.Places

/-!
# No operation comes to a fault

Whatever a source does and whatever is done with a token stream or with a window, each operation
comes to its value. So no character is pushed back where one is waiting, no token is made with a
literal that its kind does not admit, and no statement with a token that introduces something
else (`faultless`). What is answered for want of a token or of a name is never needed: `=` and
`!` always begin a token with a fixed literal, and an expected name always is one. A binding or a
result is therefore dropped with a diagnostic only.
-/

namespace FrontEnd

open Text

/-! ### Lexemes -/

namespace Lexeme

/-- A lexeme that begins with `=` or `!` is a token with a fixed literal. -/
theorem fixed?_eq {first : Char} {rest : List Char} {token : Token}
    (h : Lexeme (first :: rest) token) (hfirst : first = '=' ∨ first = '!') :
  Token.fixed? token.kind = some token ∧ token.kind ≠ .illegal
  := by
  have htail := h.tail
  rw [h.eq_ofLexeme]
  rcases hfirst with rfl | rfl
  · rcases htail with rfl | rfl
    · decide
    · decide
  · rcases htail with rfl | rfl
    · decide
    · decide

end Lexeme

/-- `=` and `!` begin a token with a fixed literal, whatever comes after them. -/
theorem CharStream.exists_yields_equals (chars : CharStream) {first : Char}
    (hfirst : first = '=' ∨ first = '!') :
  ∃ token rest, (chars.tokenAfter first).Yields (token, rest)
    ∧ Token.fixed? token.kind = some token ∧ token.kind ≠ .illegal
  := by
  obtain ⟨text, rest, token, next, htoken, hmunch, -⟩ := chars.gives_text.tokenAfter first
  obtain ⟨c, text, rfl⟩ := List.exists_cons_of_ne_nil hmunch.lexeme.ne_nil
  obtain ⟨rfl, -⟩ := List.cons.inj hmunch.split
  use token, next, htoken
  apply hmunch.lexeme.fixed?_eq hfirst

/-! ### Token streams -/

namespace TokenStream

/-- Something that can be done with a token stream. -/
inductive Step where
  /-- Take the next token. -/
  | next
  /-- Take the next token, unless it is the end. -/
  | next?
  /-- Take the failure that ended the source. -/
  | takeFailure

/-- The stream after a step. -/
def perform (stream : TokenStream) : Step → Run TokenStream
  | .next => Prod.snd <$> stream.next
  | .next? => Prod.snd <$> stream.next?
  | .takeFailure => pure stream.takeFailure.2

variable {stream : TokenStream} {ts : List Token} {fate : Option Failure}

theorem Holds.admitted (h : stream.Holds ts fate) (place : Nat) :
  (ts.getD place .endOfInput).Admitted
  := by
  rw [List.getD_eq_getElem?_getD]
  cases hplace : ts[place]? with
  | none => rfl
  | some token =>
    obtain ⟨text, hlexeme⟩ := h.exists_lexeme token (List.mem_of_getElem? hplace)
    apply hlexeme.admitted

/-- A token is always there to be taken, and it is one that its kind admits. -/
theorem exists_yields_next (stream : TokenStream) :
  ∃ token rest, stream.next.Yields (token, rest) ∧ token.Admitted
  := by
  obtain ⟨ts, fate, hts⟩ := stream.exists_holds
  obtain ⟨rest, hnext, -⟩ := hts.next
  use ts.headD .endOfInput, rest, hnext
  rw [List.headD_eq_getD]
  apply hts.admitted

theorem exists_yields_perform (stream : TokenStream) (step : Step) :
  ∃ rest, (stream.perform step).Yields rest
  := by
  obtain ⟨token, rest, hnext, -⟩ := stream.exists_yields_next
  cases step with
  | next => use rest, hnext.map Prod.snd
  | next? =>
    use rest
    apply Run.Yields.map Prod.snd (a := (if token.isEnd then none else some token, rest))
    apply hnext.bind
    rfl
  | takeFailure =>
    use stream.takeFailure.2
    rfl

theorem exists_yields_performAll (stream : TokenStream) (steps : List Step) :
  ∃ last, (steps.foldlM perform stream).Yields last
  := by
  -- Nothing needs to be kept: every stream can take every step.
  obtain ⟨last, hlast, -⟩ : ∃ last, (steps.foldlM perform stream).Yields last ∧ True := by
    apply Run.exists_yields_foldlM _ trivial
    intro middle step _
    simpa using middle.exists_yields_perform step
  use last

end TokenStream

/-! ### Windows -/

namespace Window

theorem exists_yields_advance (window : Window) :
  ∃ next, window.advance.Yields next ∧ next.current = window.following
    ∧ next.diagnostics = window.diagnostics
  := by
  obtain ⟨token, rest, hnext, -⟩ := window.tokens.exists_yields_next
  use { window with tokens := rest, current := window.following, following := token }
  constructor
  · apply hnext.bind
    rfl
  · use rfl

theorem exists_yields_skipToSemicolon (window : Window) :
  ∃ next, window.skipToSemicolon.Yields next ∧ next.diagnostics = window.diagnostics
  := by
  fun_induction Window.skipToSemicolon window with
  | case1 window => use window, rfl
  | case2 window _ ih =>
    obtain ⟨middle, hadvance, -, hdiagnostics⟩ := window.exists_yields_advance
    obtain ⟨next, hskip, hnext⟩ := ih middle hadvance
    use next
    constructor
    · apply hadvance.attach_bind
      apply hskip
    · rw [hnext, hdiagnostics]

/-- An expectation is met by the following token, which is then under view, or it adds a
diagnostic. -/
theorem expect_cases (window : Window) (kind : Kind) :
  (∃ next, (window.expect kind).Yields (true, next) ∧ next.current.kind = kind
      ∧ next.diagnostics = window.diagnostics)
    ∨ ∃ diagnostic next, (window.expect kind).Yields (false, next)
      ∧ next.diagnostics = window.diagnostics.push diagnostic
  := by
  unfold expect
  split
  · next hkind =>
    obtain ⟨next, hadvance, hcurrent, hdiagnostics⟩ := window.exists_yields_advance
    left
    use next
    constructor
    · apply hadvance.bind
      rfl
    · rw [hcurrent]
      use hkind
  · right
    use ⟨kind, window.following⟩
    use { window with diagnostics := window.diagnostics.push ⟨kind, window.following⟩ }
    constructor
    · apply Run.tell_bind
      rfl
    · rfl

/-- An expected name is an identifier. -/
theorem exists_yields_expect_identifier (window : Window) :
  ∃ met named, (window.expect .identifier).Yields (met, named)
    ∧ (met = true → (Identifier.ofToken? named.current).isSome)
  := by
  rcases window.expect_cases .identifier with
    ⟨named, hnamed, hkind, -⟩ | ⟨diagnostic, next, hunnamed, -⟩
  · use true, named, hnamed
    intro _
    rw [Identifier.ofToken?_eq_some_iff.mpr ⟨hkind, rfl⟩]
    rfl
  · use false, next, hunnamed
    simp

/-- The run comes to a statement and leaves the diagnostics, or it drops the statement and adds
a diagnostic. -/
def Accounts (window : Window) (run : Run (Option Statement × Window)) : Prop :=
  (∃ statement next, run.Yields (some statement, next) ∧ next.diagnostics = window.diagnostics)
    ∨ ∃ diagnostic next, run.Yields (none, next)
      ∧ next.diagnostics = window.diagnostics.push diagnostic

theorem accounts_binding {window : Window} (h : window.current.kind = .letWord) :
  window.Accounts window.binding
  := by
  rcases window.expect_cases .identifier with
    ⟨named, hnamed, hkind, hleft⟩ | ⟨diagnostic, next, hunnamed, hdropped⟩
  · have hname := Identifier.ofToken?_eq_some_iff.mpr ⟨hkind, rfl⟩
    rcases named.expect_cases .assign with
      ⟨assigned, hassigned, -, hleft'⟩ | ⟨diagnostic, next, hunassigned, hdropped⟩
    · obtain ⟨last, hskip, hleft''⟩ := assigned.exists_yields_skipToSemicolon
      left
      use .binding window.current ⟨named.current, named.current.literal⟩ none, last
      constructor
      · apply hnamed.bind
        simp only [hname]
        apply hassigned.bind
        apply hskip.bind
        apply Run.lift_bind (if_pos h)
        rfl
      · rw [hleft'', hleft', hleft]
    · right
      use diagnostic, next
      constructor
      · apply hnamed.bind
        simp only [hname]
        apply hunassigned.bind
        rfl
      · rw [hdropped, hleft]
  · right
    use diagnostic, next
    constructor
    · apply hunnamed.bind
      rfl
    · apply hdropped

theorem accounts_result {window : Window} (h : window.current.kind = .returnWord) :
  window.Accounts window.result
  := by
  obtain ⟨middle, hadvance, -, hleft⟩ := window.exists_yields_advance
  obtain ⟨last, hskip, hleft'⟩ := middle.exists_yields_skipToSemicolon
  left
  use .result window.current none, last
  constructor
  · apply hadvance.bind
    apply hskip.bind
    apply Run.lift_bind (if_pos h)
    rfl
  · rw [hleft', hleft]

/-- No statement is dropped without a diagnostic. -/
theorem accounts_statement {window : Window}
    (h : window.current.kind = .letWord ∨ window.current.kind = .returnWord) :
  window.Accounts window.statement
  := by
  unfold Window.statement
  split
  · next hlet => apply accounts_binding hlet
  · next hreturn => apply accounts_result hreturn
  · next hlet hreturn => exact absurd h (not_or.mpr ⟨hlet, hreturn⟩)

end Window

/-- A token stream and a window onto it never come to a fault, whatever the source does and in
whatever order they are used. Every token that is taken has a literal that its kind admits, and it
is illegal only where a stray character was found: `=` and `!` begin a token with a fixed literal.
Where a name is expected and comes, there is an identifier, and a binding or a result that is begun
is read or leaves a diagnostic. -/
theorem faultless (stream : TokenStream) :
  (∀ steps : List TokenStream.Step, ∃ later token rest,
      (steps.foldlM TokenStream.perform stream).Yields later
      ∧ later.next.Yields (token, rest) ∧ token.Admitted
      ∧ Recorded token (later.next.log.filter Record.isScanning))
  ∧ (∀ steps : List Window.Step, ∃ window, (Window.after stream steps).Yields window
      ∧ window.current.Admitted ∧ window.following.Admitted)
  ∧ (∀ (chars : CharStream) (first : Char), first = '=' ∨ first = '!' →
      ∃ token rest, (chars.tokenAfter first).Yields (token, rest)
        ∧ Token.fixed? token.kind = some token ∧ token.kind ≠ .illegal)
  ∧ (∀ window : Window, ∃ met named, (window.expect .identifier).Yields (met, named)
      ∧ (met = true → (Identifier.ofToken? named.current).isSome))
  ∧ (∀ window : Window, window.current.kind = .letWord ∨ window.current.kind = .returnWord →
      window.Accounts window.statement)
  := by
  refine ⟨?_, ?_, ?_, ?_, ?_⟩
  · intro steps
    obtain ⟨later, hlater⟩ := stream.exists_yields_performAll steps
    obtain ⟨token, rest, hnext, hadmitted⟩ := later.exists_yields_next
    use later, token, rest, hlater, hnext, hadmitted
    apply later.next_recorded.ensures.of_yields _ hnext
  · intro steps
    obtain ⟨ts, fate, hts⟩ := stream.exists_holds
    obtain ⟨first, hfirst, hshows⟩ := Window.shows_ofTokens hts
    obtain ⟨window, _, _, _, hsteps, -⟩ := hshows.performAll steps
    obtain ⟨place, hplace⟩ := Window.exists_stands hts (hfirst.bind hsteps)
    use window, hplace.yields
    rw [hplace.current_eq, hplace.following_eq]
    use hts.admitted place, hts.admitted (place + 1)
  · intro chars first
    apply chars.exists_yields_equals
  · intro window
    apply window.exists_yields_expect_identifier
  · intro window
    apply Window.accounts_statement

end FrontEnd
