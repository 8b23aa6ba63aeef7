import FrontEnd.Proofs.Token.Spacing
import FrontEnd.Proofs.Tree.Places
import FrontEnd.Tree.Building

/-!
# Well-formed trees

A program is well formed if its bindings are introduced by `let` and its results by `return`, and
if all its names are identifiers that stand for their own literal. There is no way to build another
program, however its statements were made of tokens, read from sources, chosen and put together
(`Program.wellFormed_of_built`). What is read from a source has names of letters and no values, and
where a statement is dropped, another token stands than a name or `=`.
-/

namespace FrontEnd

open Text

/-! ### Well-formed nodes -/

/-- The token is an identifier whose literal, a nonempty text that is no reserved word, is the
value. -/
structure Identifier.WellFormed (name : Identifier) : Prop where
  kind_eq : name.token.kind = .identifier
  value_eq : name.value = name.token.literal
  ne_empty : name.token.literal ≠ ""
  unreserved : ∀ kind, (name.token.literal, kind) ∉ Kind.reservedWords

/-- The names in the expression are well formed. -/
def Expr.WellFormed : Expr → Prop
  | identifier name => name.WellFormed

/-- The statement is introduced by its own token, and the nodes in it are well formed. -/
def Statement.WellFormed : Statement → Prop
  | binding token name value =>
    token = ⟨.letWord, "let"⟩ ∧ name.WellFormed ∧ ∀ expr ∈ value, expr.WellFormed
  | result token value => token = ⟨.returnWord, "return"⟩ ∧ ∀ expr ∈ value, expr.WellFormed

/-- All statements are well formed. -/
def Program.WellFormed (program : Program) : Prop :=
  ∀ statement ∈ program.statements, statement.WellFormed

/-- The name, if there is one, consists of letters, and there is no value. -/
def Statement.Plain : Statement → Prop
  | binding _ name value => (∀ c ∈ name.value.toList, isAlphabetic c) ∧ value = none
  | result _ value => value = none

/-- A name or `=` was needed, and what was found instead is of another kind. -/
structure Diagnostic.WellFormed (diagnostic : Diagnostic) : Prop where
  expected_eq : diagnostic.expected = .identifier ∨ diagnostic.expected = .assign
  found_ne : diagnostic.found.kind ≠ diagnostic.expected

/-- A well-formed program without a literal has no statement. -/
theorem Program.WellFormed.literal_eq_iff {program : Program} (h : program.WellFormed) :
  program.literal = "" ↔ program.isEmpty
  := by
  obtain ⟨_ | ⟨first, rest⟩⟩ := program
  · simp [literal, isEmpty]
  · have hfirst : first.WellFormed := h first List.mem_cons_self
    have hliteral : first.literal ≠ "" := by
      cases first with
      | binding token name value =>
        obtain ⟨rfl, -, -⟩ := hfirst
        exact (by decide : "let" ≠ "")
      | result token value =>
        obtain ⟨rfl, -⟩ := hfirst
        exact (by decide : "return" ≠ "")
    simpa [literal, isEmpty] using hliteral

/-! ### Nodes made of tokens -/

variable {token : Token} {name : Identifier} {value : Option Expr} {statement : Statement}
  {parts : TokenParts}

/-- An admitted token of a kind with a fixed literal is the token with this literal. -/
theorem Token.Admitted.eq_of_literal? {kind : Kind} {literal : String} (h : token.Admitted)
    (hkind : token.kind = kind) (hliteral : kind.literal? = some literal) :
  token = ⟨kind, literal⟩
  := by
  obtain ⟨kind, other⟩ := token
  obtain rfl := hkind
  have hother : kind.literal? = some other := by
    cases kind
    case number => simp [Kind.literal?] at hliteral
    case identifier => simp [Kind.literal?] at hliteral
    all_goals simpa [Token.Admitted, Kind.admits] using h
  obtain rfl := Option.some.inj (hliteral.symm.trans hother)
  rfl

/-- An admitted identifier stands for its literal. -/
theorem Token.Admitted.wellFormed (h : token.Admitted) (hkind : token.kind = .identifier) :
  Identifier.WellFormed ⟨token, token.literal⟩
  := by
  obtain ⟨kind, literal⟩ := token
  obtain rfl : kind = .identifier := hkind
  obtain ⟨hne, hword⟩ : literal ≠ "" ∧ Kind.ofWord literal = .identifier := by
    simpa [Token.Admitted, Kind.admits] using h
  refine ⟨rfl, rfl, hne, ?_⟩
  intro kind hmem
  have hkind : kind ≠ .identifier := by
    have hall : ∀ entry ∈ Kind.reservedWords, entry.2 ≠ .identifier := by decide
    apply hall _ hmem
  apply hkind
  rw [← hword, Kind.ofWord_of_mem _ hmem]

theorem Statement.wellFormed_binding (htoken : token.Admitted) (hkind : token.kind = .letWord)
    (hname : name.WellFormed) (hvalue : ∀ expr ∈ value, expr.WellFormed) :
  (binding token name value).WellFormed
  := ⟨htoken.eq_of_literal? hkind rfl, hname, hvalue⟩

theorem Statement.wellFormed_result (htoken : token.Admitted) (hkind : token.kind = .returnWord)
    (hvalue : ∀ expr ∈ value, expr.WellFormed) :
  (result token value).WellFormed
  := ⟨htoken.eq_of_literal? hkind rfl, hvalue⟩

/-! ### Building -/

/-- Checked operations one after the other, none of which was refused. -/
theorem bind_eq_ok {α β : Type} {outcome : Except Fault α} {next : α → Except Fault β} {b : β} :
  (outcome >>= next) = .ok b ↔ ∃ a, outcome = .ok a ∧ next a = .ok b
  := by
  cases outcome with
  | error => simp [bind, Except.bind]
  | ok => simp [bind, Except.bind]

/-- A token is made of its parts only if it is admitted. -/
theorem Token.admitted_of_ofParts (h : Token.ofParts parts = .ok token) :
  token.Admitted
  := by
  obtain ⟨hadmits, rfl⟩ := Token.make_eq_ok_iff.mp h
  exact hadmits

theorem Identifier.wellFormed_of_ofToken? (h : token.Admitted) (hname : ofToken? token = some name) :
  name.WellFormed
  := by
  obtain ⟨hkind, rfl⟩ := ofToken?_eq_some_iff.mp hname
  apply h.wellFormed hkind

theorem Expr.wellFormed_of_ofParts? {parts? : Option TokenParts}
    (h : Expr.ofParts? parts? = .ok (.ok value)) :
  ∀ expr ∈ value, expr.WellFormed
  := by
  cases parts? with
  | none =>
    obtain rfl : none = value := Except.ok.inj (Except.ok.inj h)
    simp
  | some parts =>
    obtain ⟨token, htoken, h⟩ := bind_eq_ok.mp h
    cases hname : Identifier.ofToken? token with
    | none =>
      rw [hname] at h
      exact absurd (Except.ok.inj h) (by simp)
    | some name =>
      rw [hname] at h
      obtain rfl : some (.identifier name) = value := Except.ok.inj (Except.ok.inj h)
      rintro _ ⟨⟩
      apply Identifier.wellFormed_of_ofToken? (Token.admitted_of_ofParts htoken) hname

theorem Statement.wellFormed_of_makeBinding (htoken : token.Admitted) (hname : name.WellFormed)
    (hvalue : ∀ expr ∈ value, expr.WellFormed) (h : makeBinding token name value = .ok statement) :
  statement.WellFormed
  := by
  unfold makeBinding at h
  split at h
  · next hkind =>
    obtain rfl := Except.ok.inj h
    apply wellFormed_binding htoken hkind hname hvalue
  · simp at h

theorem Statement.wellFormed_of_makeResult (htoken : token.Admitted)
    (hvalue : ∀ expr ∈ value, expr.WellFormed) (h : makeResult token value = .ok statement) :
  statement.WellFormed
  := by
  unfold makeResult at h
  split at h
  · next hkind =>
    obtain rfl := Except.ok.inj h
    apply wellFormed_result htoken hkind hvalue
  · simp at h

namespace Program

variable {program next : Program} {token name : TokenParts} {value : Option TokenParts}

/-- A binding that is added is well formed. -/
theorem exists_of_addBinding (h : program.addBinding token name value = .ok (.ok next)) :
  ∃ statement : Statement, statement.WellFormed ∧ next = program.push statement
  := by
  obtain ⟨first, hfirst, h⟩ := bind_eq_ok.mp h
  obtain ⟨spelled, hspelled, h⟩ := bind_eq_ok.mp h
  cases hname : Identifier.ofToken? spelled with
  | none =>
    rw [hname] at h
    exact absurd (Except.ok.inj h) (by simp)
  | some name =>
    rw [hname] at h
    obtain ⟨_ | value, hvalue, h⟩ := bind_eq_ok.mp h
    · exact absurd (Except.ok.inj h) (by simp)
    obtain ⟨statement, hstatement, h⟩ := bind_eq_ok.mp h
    obtain rfl := Except.ok.inj (Except.ok.inj h)
    use statement
    constructor
    · apply Statement.wellFormed_of_makeBinding (Token.admitted_of_ofParts hfirst)
        (Identifier.wellFormed_of_ofToken? (Token.admitted_of_ofParts hspelled) hname)
        (Expr.wellFormed_of_ofParts? hvalue) hstatement
    · rfl

/-- A result that is added is well formed. -/
theorem exists_of_addResult (h : program.addResult token value = .ok (.ok next)) :
  ∃ statement : Statement, statement.WellFormed ∧ next = program.push statement
  := by
  obtain ⟨first, hfirst, h⟩ := bind_eq_ok.mp h
  obtain ⟨_ | value, hvalue, h⟩ := bind_eq_ok.mp h
  · exact absurd (Except.ok.inj h) (by simp)
  obtain ⟨statement, hstatement, h⟩ := bind_eq_ok.mp h
  obtain rfl := Except.ok.inj (Except.ok.inj h)
  use statement
  constructor
  · apply Statement.wellFormed_of_makeResult (Token.admitted_of_ofParts hfirst)
      (Expr.wellFormed_of_ofParts? hvalue) hstatement
  · rfl

end Program

/-! ### Segments -/

/-- A lexeme that is an identifier consists of letters. -/
theorem Lexeme.isAlphabetic_literal {text : List Char} (h : Lexeme text token)
    (hkind : token.kind = .identifier) :
  ∀ c ∈ token.literal.toList, isAlphabetic c
  := by
  cases h with
  | identifier _ hword => simpa using hword
  | reserved hword => simpa using hword
  | symbol hmem =>
    have hall : ∀ entry ∈ Kind.symbols, entry.2 ≠ .identifier := by decide
    exact absurd hkind (hall _ hmem)
  | _ => simp at hkind

namespace Segment

variable {segment : Segment} {rest : List Token}

/-- The statement of a segment of lexemes is well formed, has a name of letters and no value. -/
theorem Fits.statement_wellFormed (h : segment.Fits rest)
    (htokens : ∀ token ∈ segment.tokens, ∃ text, Lexeme text token)
    (hstatement : segment.statement? = some statement) :
  statement.WellFormed ∧ statement.Plain
  := by
  cases segment with
  | binding token name assign body =>
    obtain ⟨hlet, hname, -, -⟩ := h
    obtain rfl := Option.some.inj hstatement
    obtain ⟨text, htoken⟩ := htokens token (by simp [tokens])
    obtain ⟨word, hword⟩ := htokens name (by simp [tokens])
    constructor
    · apply Statement.wellFormed_binding htoken.admitted hlet (hword.admitted.wellFormed hname)
      simp
    · exact ⟨hword.isAlphabetic_literal hname, rfl⟩
  | result token body =>
    obtain ⟨hreturn, -⟩ := h
    obtain rfl := Option.some.inj hstatement
    obtain ⟨text, htoken⟩ := htokens token (by simp [tokens])
    constructor
    · apply Statement.wellFormed_result htoken.admitted hreturn
      simp
    · rfl
  | unnamed => simp [statement?] at hstatement
  | unassigned => simp [statement?] at hstatement
  | skipped => simp [statement?] at hstatement

/-- The diagnostic of a segment says what was needed, and that something else was found. -/
theorem Fits.diagnostic_wellFormed {diagnostic : Diagnostic} (h : segment.Fits rest)
    (hdiagnostic : segment.diagnostic? = some diagnostic) :
  diagnostic.WellFormed
  := by
  cases segment with
  | unnamed token found =>
    obtain ⟨-, -, hfound⟩ := h
    obtain rfl := Option.some.inj hdiagnostic
    exact ⟨.inl rfl, hfound⟩
  | unassigned token name found =>
    obtain ⟨-, -, -, hfound⟩ := h
    obtain rfl := Option.some.inj hdiagnostic
    exact ⟨.inr rfl, hfound⟩
  | binding => simp [diagnostic?] at hdiagnostic
  | result => simp [diagnostic?] at hdiagnostic
  | skipped => simp [diagnostic?] at hdiagnostic

end Segment

theorem Segments.exists_fits {ts : List Token} {segments : List Segment}
    (h : Segments ts segments) :
  ∀ segment ∈ segments, ∃ rest, segment.Fits rest
  := by
  induction h with
  | nil => simp
  | cons hfits _ ih =>
    rw [List.forall_mem_cons]
    exact ⟨⟨_, hfits⟩, ih⟩

/-! ### Reading -/

namespace Window

variable {window : Window}

/-- The tokens still to be seen are lexemes, and the diagnostics so far are well formed. -/
def Sound (window : Window) : Prop :=
  ∃ ts diagnostics fate, window.Shows ts diagnostics fate
    ∧ (∀ token ∈ ts, ∃ text, Lexeme text token)
    ∧ ∀ diagnostic ∈ diagnostics, diagnostic.WellFormed

/-- A program that is read has well-formed statements only, with names of letters and no values. -/
theorem Sound.program (h : window.Sound) :
  ∃ program last, window.program.Yields (program, last) ∧ last.Sound
    ∧ ∀ statement ∈ program.statements, statement.WellFormed ∧ statement.Plain
  := by
  obtain ⟨ts, diagnostics, fate, hshows, hts, hdiagnostics⟩ := h
  obtain ⟨segments, last, hsegments, hprogram, hlast⟩ := hshows.program
  use ⟨segments.filterMap Segment.statement?⟩, last, hprogram
  constructor
  · use [], diagnostics ++ segments.filterMap Segment.diagnostic?, fate, hlast
    constructor
    · simp
    · rw [List.forall_mem_append]
      use hdiagnostics
      intro diagnostic hmem
      obtain ⟨segment, hsegment, hdiagnostic⟩ := List.mem_filterMap.mp hmem
      obtain ⟨rest, hfits⟩ := hsegments.exists_fits segment hsegment
      apply hfits.diagnostic_wellFormed hdiagnostic
  · intro statement hmem
    obtain ⟨segment, hsegment, hstatement⟩ := List.mem_filterMap.mp hmem
    obtain ⟨rest, hfits⟩ := hsegments.exists_fits segment hsegment
    apply hfits.statement_wellFormed _ hstatement
    intro token htoken
    apply hts token
    rw [← hsegments.flatMap_tokens]
    apply List.mem_flatMap_of_mem hsegment htoken

theorem Sound.perform (h : window.Sound) (step : Step) :
  ∃ next, (window.perform step).Yields next ∧ next.Sound
  := by
  cases step with
  | advance =>
    obtain ⟨ts, diagnostics, fate, hshows, hts, hdiagnostics⟩ := h
    obtain ⟨next, hadvance, hnext⟩ := hshows.advance
    refine ⟨next, hadvance, ts.tail, diagnostics, fate, hnext, ?_, hdiagnostics⟩
    intro token hmem
    apply hts token (List.mem_of_mem_tail hmem)
  | takeFailure =>
    obtain ⟨ts, diagnostics, fate, hshows, hts, hdiagnostics⟩ := h
    obtain ⟨fate', hnext⟩ := hshows.takeFailure
    exact ⟨window.takeFailure.2, rfl, ts, diagnostics, fate', hnext, hts, hdiagnostics⟩
  | program =>
    obtain ⟨program, last, hprogram, hlast, -⟩ := h.program
    use last, hprogram.map Prod.snd

/-- So is every window onto a token stream, whatever was done with it. -/
theorem exists_sound_after (tokens : TokenStream) (steps : List Step) :
  ∃ window, (after tokens steps).Yields window ∧ window.Sound
  := by
  obtain ⟨ts, fate, hts⟩ := tokens.exists_holds
  obtain ⟨first, hfirst, hshows⟩ := shows_ofTokens hts
  have hsound : first.Sound := ⟨ts, [], fate, hshows, hts.exists_lexeme, by simp⟩
  obtain ⟨window, hsteps, hwindow⟩ :=
    Run.exists_yields_foldlM (fun middle step hmiddle => hmiddle.perform step) hsound steps
  use window, hfirst.bind hsteps

theorem Sound.diagnostics (h : window.Sound) :
  ∀ diagnostic ∈ window.diagnostics, diagnostic.WellFormed
  := by
  obtain ⟨ts, diagnostics, fate, hshows, -, hdiagnostics⟩ := h
  intro diagnostic hmem
  apply hdiagnostics
  rw [← hshows.diagnostics_eq]
  apply Array.mem_toList_iff.mpr hmem

end Window

/-! ### Reachable programs -/

/-- The statement was read from a token stream, whatever was done with the window onto it before. -/
def Statement.Parsed (statement : Statement) : Prop :=
  ∃ tokens steps window program last, (Window.after tokens steps).Yields window
    ∧ window.program.Yields (program, last) ∧ statement ∈ program.statements

theorem Statement.Parsed.wellFormed (h : statement.Parsed) :
  statement.WellFormed ∧ statement.Plain
  := by
  obtain ⟨tokens, steps, window, program, last, hwindow, hprogram, hmem⟩ := h
  obtain ⟨window', hwindow', hsound⟩ := Window.exists_sound_after tokens steps
  obtain rfl := hwindow.unique hwindow'
  obtain ⟨program', last', hprogram', -, hstatements⟩ := hsound.program
  obtain ⟨rfl, rfl⟩ := Prod.mk.inj (hprogram.unique hprogram')
  apply hstatements statement hmem

/-- What a source is parsed as was read from its tokens. -/
theorem Statement.parsed_of_parse {source : Source} {program : Program} {last : Window}
    (h : source.parse.Yields (program, last)) (hmem : statement ∈ program.statements) :
  statement.Parsed
  := by
  obtain ⟨window, hwindow, hprogram⟩ := Run.yields_bind.mp h
  refine ⟨.ofSource source, [], window, program, last, ?_, hprogram, hmem⟩
  apply hwindow.bind
  rfl

namespace Program

/-- The program is reached by building steps, and by adding statements that were read from token
streams. -/
inductive Built : Program → Prop where
  | empty : Built .empty
  | step {program next : Program} {step : BuildStep} (h : Built program)
      (hstep : (program.build step).Yields (.ok next)) : Built next
  | parsed {program : Program} {statement : Statement} (h : Built program)
      (hstatement : statement.Parsed) : Built (program.push statement)

variable {program next : Program}

/-- A step adds well-formed statements to those that are there, or it chooses among these. -/
theorem build_cases {step : BuildStep} (h : (program.build step).Yields (.ok next)) :
  (∃ added : List Statement, (∀ statement ∈ added, statement.WellFormed)
      ∧ next.statements = program.statements ++ added)
    ∨ next.statements ⊆ program.statements
  := by
  cases step with
  | addBinding token name value =>
    obtain ⟨statement, hstatement, rfl⟩ := exists_of_addBinding h
    left
    use [statement], by simpa using hstatement
    rfl
  | addResult token value =>
    obtain ⟨statement, hstatement, rfl⟩ := exists_of_addResult h
    left
    use [statement], by simpa using hstatement
    rfl
  | addParsed text =>
    obtain ⟨⟨parsed, last⟩, hparse, hnext⟩ := Run.yields_bind.mp h
    obtain rfl := Except.ok.inj (Run.yields_pure.mp hnext)
    left
    use parsed.statements
    constructor
    · intro statement hmem
      apply (Statement.parsed_of_parse hparse hmem).wellFormed.1
    · rfl
  | select places =>
    obtain rfl := Except.ok.inj (Run.yields_pure.mp h)
    right
    intro statement hmem
    obtain ⟨place, -, hplace⟩ := List.mem_filterMap.mp hmem
    apply List.mem_of_getElem? hplace
  | clear =>
    obtain rfl := Except.ok.inj (Run.yields_pure.mp h)
    right
    apply List.nil_subset

/-- No step leads to a program that is not well formed. -/
theorem WellFormed.build {step : BuildStep} (h : program.WellFormed)
    (hstep : (program.build step).Yields (.ok next)) :
  next.WellFormed
  := by
  rcases build_cases hstep with ⟨added, hadded, hnext⟩ | hsubset
  · rw [WellFormed, hnext, List.forall_mem_append]
    use h
  · intro statement hmem
    apply h statement (hsubset hmem)

theorem Built.wellFormed (h : program.Built) :
  program.WellFormed
  := by
  induction h with
  | empty => simp [WellFormed]
  | step _ hstep ih => apply ih.build hstep
  | parsed _ hstatement ih =>
    rw [WellFormed, statements_push, List.forall_mem_append, List.forall_mem_singleton]
    use ih, hstatement.wellFormed.1

/-- Steps that are refused or come to a fault change nothing, so any steps lead to a program that
the others build. -/
theorem Built.buildAll (h : program.Built) (steps : List BuildStep) :
  (program.buildAll steps).Built
  := by
  induction steps generalizing program with
  | nil => apply h
  | cons step steps ih =>
    rw [Program.buildAll]
    split
    · next hstep => apply ih (h.step hstep)
    · apply ih h

/-- However a program was built, its statements are introduced by their own tokens, and its names
are identifiers that stand for their literals; so only a program without statements has no literal.
Any building steps lead to such a program, whether some of them are refused or not. If all
statements were read from token streams, their names consist of letters, and there are no values.
Where a statement was dropped, a name or `=` was needed, and something else was found. -/
theorem wellFormed_of_built :
  (∀ program : Program, program.Built →
    program.WellFormed ∧ (program.literal = "" ↔ program.isEmpty))
    ∧ (∀ (program : Program) (steps : List BuildStep), program.Built →
        (program.buildAll steps).Built)
    ∧ (∀ program : Program, (∀ statement ∈ program.statements, statement.Parsed) →
        ∀ statement ∈ program.statements, statement.Plain)
    ∧ ∀ (tokens : TokenStream) (steps : List Window.Step), ∃ window,
        (Window.after tokens steps).Yields window
        ∧ ∀ diagnostic ∈ window.diagnostics, diagnostic.WellFormed
  := by
  refine ⟨?_, fun program steps h => h.buildAll steps, ?_, ?_⟩
  · intro program h
    exact ⟨h.wellFormed, h.wellFormed.literal_eq_iff⟩
  · intro program h statement hmem
    apply (h statement hmem).wellFormed.2
  · intro tokens steps
    obtain ⟨window, hwindow, hsound⟩ := Window.exists_sound_after tokens steps
    use window, hwindow, hsound.diagnostics

/-- A binding is read although its value is missing. -/
theorem exists_yields_parse_binding :
  ∃ last, (Source.ofBytes (Utf8.encode "let x =")).parse.Yields
    (⟨[.binding ⟨.letWord, "let"⟩ ⟨⟨.identifier, "x"⟩, "x"⟩ none]⟩, last)
  := by
  have hlet : "let".toList.all isAlphabetic := by decide +kernel
  have hname : "x".toList.all isAlphabetic := by decide +kernel
  have hassign : Lexeme ['='] ⟨.assign, "="⟩ := .symbol (by decide)
  have hsplits : Splits "let x =".toList
      [⟨.letWord, "let"⟩, ⟨.identifier, "x"⟩, ⟨.assign, "="⟩] := by
    apply (splits_word (by decide) (List.all_eq_true.mp hlet)).append_space
    apply (splits_word (by decide) (List.all_eq_true.mp hname)).append_space
    apply hassign.splits (by simp)
  rw [← Utf8.decode_encode] at hsplits
  have hfits : (Segment.binding ⟨.letWord, "let"⟩ ⟨.identifier, "x"⟩ ⟨.assign, "="⟩ []).Fits [] :=
    ⟨rfl, rfl, rfl, .inr ⟨rfl, by simp⟩⟩
  obtain ⟨last, hparse, -⟩ := yields_parse (delivers_ofBytes _) hsplits (.cons hfits .nil)
  use last, hparse

/-- A binding made of tokens comes before one that was read, and the refused step between them adds
nothing. -/
theorem wellFormed_of_built_mixed :
  ∃ (statement : Statement) (program : Program), statement.Parsed
    ∧ statement = .binding ⟨.letWord, "let"⟩ ⟨⟨.identifier, "x"⟩, "x"⟩ none
    ∧ program.statements
      = [.binding ⟨.letWord, "let"⟩ ⟨⟨.identifier, "f"⟩, "f"⟩
        (some (.identifier ⟨⟨.identifier, "g"⟩, "g"⟩)), statement]
    ∧ program.Built
    ∧ program.WellFormed
    ∧ (program.literal = "" ↔ program.isEmpty)
    ∧ statement.Plain
  := by
  obtain ⟨last, hparse⟩ := exists_yields_parse_binding
  obtain ⟨hwellFormed, hbuilt, hplain, -⟩ := wellFormed_of_built
  have hparsed := Statement.parsed_of_parse hparse List.mem_cons_self
  have hsteps := hbuilt .empty
    [.addBinding (.letWord, "let") (.identifier, "f") (some (.identifier, "g")),
      .addResult (.letWord, "let") none, .select [0, 3]] .empty
  have hmixed := hsteps.parsed hparsed
  obtain ⟨hprogram, hliteral⟩ := hwellFormed _ hmixed
  refine ⟨_, _, hparsed, rfl, rfl, hmixed, hprogram, hliteral, ?_⟩
  apply hplain ⟨[_]⟩ (by simpa using hparsed) _ List.mem_cons_self

end Program

end FrontEnd
