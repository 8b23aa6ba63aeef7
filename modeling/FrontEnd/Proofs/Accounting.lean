import FrontEnd.Proofs.Pulling
import FrontEnd.Proofs.Tree.Places

/-!
# What a log accounts for

Apart from what tells of reading, each iteration of reading a program leaves one record: of the
statement that it parsed, of the diagnostic with which it dropped one, or of the token that it
skipped. These are the records of the segments of the tokens, in order (`Window.ProgramLog`). And
whatever is done with a window, the rest of the log tells of exactly the tokens that were taken
(`Window.log_accounts`).
-/

namespace FrontEnd

open Text

/-! ### Records apart from reading -/

/-- The records that do not tell of reading. -/
def remarks (log : List Record) : List Record :=
  log.filter fun record => !record.isReading

theorem remarks_append (log log' : List Record) :
  remarks (log ++ log') = remarks log ++ remarks log'
  := List.filter_append ..

theorem remarks_eq_nil {log : List Record} (h : ∀ record ∈ log, record.isReading) :
  remarks log = []
  := by simpa [remarks] using h

namespace Record

/-- The statement that a record says was parsed. -/
def parsed? : Record → Option Statement
  | parsed statement => some statement
  | _ => none

/-- The diagnostic with which a record says a statement was dropped. -/
def dropped? : Record → Option Diagnostic
  | dropped diagnostic => some diagnostic
  | _ => none

/-- The token that a record says was skipped. -/
def skipped? : Record → Option Token
  | skipped token => some token
  | _ => none

/-- The record says, at its severity and in these words, that a statement was parsed, that one was
dropped, or that a token was skipped, which is none that begins a statement. -/
def IsRemark (record : Record) : Prop :=
  (∃ statement, record = parsed statement ∧ record.severity = .trace
      ∧ record.message = "parsed " ++ statement.form.inline)
    ∨ (∃ diagnostic, record = dropped diagnostic ∧ record.severity = .debug
      ∧ record.message = "dropping statement: " ++ diagnostic.message)
    ∨ ∃ token, record = skipped token ∧ record.severity = .trace
      ∧ record.message
        = "skipping " ++ token.kind.name ++ " (" ++ Quoted.text token.literal ++ ")"
      ∧ token.kind ≠ .letWord ∧ token.kind ≠ .returnWord

theorem message_skipped (token : Token) :
  (skipped token).message
    = "skipping " ++ token.kind.name ++ " (" ++ Quoted.text token.literal ++ ")"
  := by
  have hmessage : (skipped token).message = "skipping " ++ token.text := rfl
  simp only [hmessage, Token.text, String.append_assoc]

end Record

namespace Segment

/-- The token that a segment skips. -/
def skipped? : Segment → Option Token
  | skipped token => some token
  | _ => none

/-- The record of a segment. -/
def record : Segment → Record
  | binding token name _ _ => .parsed (.binding token ⟨name, name.literal⟩ none)
  | result token _ => .parsed (.result token none)
  | unnamed _ found => .dropped ⟨.identifier, found⟩
  | unassigned _ _ found => .dropped ⟨.assign, found⟩
  | skipped token => .skipped token

theorem parsed?_record (segment : Segment) :
  segment.record.parsed? = segment.statement?
  := by cases segment <;> rfl

theorem dropped?_record (segment : Segment) :
  segment.record.dropped? = segment.diagnostic?
  := by cases segment <;> rfl

theorem skipped?_record (segment : Segment) :
  segment.record.skipped? = segment.skipped?
  := by cases segment <;> rfl

theorem Fits.isRemark {segment : Segment} {rest : List Token} (h : segment.Fits rest) :
  segment.record.IsRemark
  := by
  cases segment with
  | binding => exact .inl ⟨_, rfl, rfl, rfl⟩
  | result => exact .inl ⟨_, rfl, rfl, rfl⟩
  | unnamed => exact .inr (.inl ⟨_, rfl, rfl, rfl⟩)
  | unassigned => exact .inr (.inl ⟨_, rfl, rfl, rfl⟩)
  | skipped token => exact .inr (.inr ⟨token, rfl, rfl, Record.message_skipped token, h.1, h.2⟩)

end Segment

theorem Segments.isRemark {ts : List Token} {segments : List Segment} (h : Segments ts segments) :
  ∀ segment ∈ segments, segment.record.IsRemark
  := by
  induction h with
  | nil => simp
  | cons hfits _ ih => exact List.forall_mem_cons.mpr ⟨hfits.isRemark, ih⟩

/-! ### What is logged of a statement -/

namespace Window

variable {window middle next last : Window} {statement? : Option Statement} {kind : Kind}
  {log log' : List Record}

/-- Logging nothing but what tells of reading, with no diagnostic added, as a passage. -/
def loggingReads : Passage Window where
  Goes window log next :=
    (∀ record ∈ log, record.isReading) ∧ next.diagnostics = window.diagnostics
  refl _ := ⟨List.forall_mem_nil _, rfl⟩
  trans h h' := ⟨List.forall_mem_append.mpr ⟨h.1, h'.1⟩, h'.2.trans h.2⟩

theorem loggingReads_allowsAdvancing :
  loggingReads.AllowsAdvancing
  := by
  constructor
  intro window
  constructor
  constructor
  intro next hadvance
  obtain ⟨⟨token, tokens⟩, hnext, hpure⟩ := Run.yields_bind.mp hadvance
  obtain rfl := Run.yields_pure.mp hpure
  constructor
  · rw [advance, Run.log_bind hnext]
    exact List.forall_mem_append.mpr ⟨TokenStream.isReading_of_next hnext, List.forall_mem_nil _⟩
  · rfl

/-- What becomes of the statement under view, and the records of it. -/
inductive Outcome (window : Window) : Option Statement → Window → List Record → Prop where
  | read (statement : Statement) {next : Window} (h : next.diagnostics = window.diagnostics) :
      Outcome window (some statement) next []
  | dropped (diagnostic : Diagnostic) {next : Window}
      (h : next.diagnostics = window.diagnostics.push diagnostic) :
      Outcome window none next [.dropped diagnostic]
  | skipped {next : Window} (h : next.diagnostics = window.diagnostics) :
      Outcome window none next [.skipped window.current]

theorem outcome_read (h : loggingReads.Goes window log next) (statement : Statement) :
  window.Outcome (some statement) next (remarks log)
  := by
  rw [remarks_eq_nil h.1]
  exact .read statement h.2

theorem outcome_dropped {diagnostic : Diagnostic} (h : loggingReads.Goes window log middle)
    (hnext : next.diagnostics = middle.diagnostics.push diagnostic) :
  window.Outcome none next (remarks (log ++ [.dropped diagnostic]))
  := by
  rw [remarks_append, remarks_eq_nil h.1]
  exact .dropped diagnostic (by rw [hnext, h.2])

/-- A statement that is made after reading. -/
theorem ensures_made {outcome : Except Fault Statement} (h : loggingReads.Goes window log next) :
  (do return (some (← outcome), next) : Run (Option Statement × Window)).Ensures
    fun (statement?, next) log' => window.Outcome statement? next (remarks (log ++ log'))
  := by
  have hmake : (liftM outcome : Run Statement).Ensures fun _ log' => log' = [] :=
    Run.ensures_lift fun _ _ => rfl
  apply hmake.bind
  rintro statement _ rfl
  apply Run.ensures_pure
  rw [List.append_nil, List.append_nil]
  apply outcome_read h

/-- An expectation that is met moves the window on to it, and one that is not leaves a
diagnostic. -/
theorem ensures_expect (window : Window) (kind : Kind) :
  (window.expect kind).Ensures fun (met, next) log =>
    (met = true ∧ next.current.kind = kind ∧ loggingReads.Goes window log next)
      ∨ met = false ∧ ∃ diagnostic, log = [.dropped diagnostic]
        ∧ next.diagnostics = window.diagnostics.push diagnostic
  := by
  unfold expect
  split
  · next hkind =>
    constructor
    rintro ⟨met, next⟩ hyields
    obtain ⟨next, hadvance, hpure⟩ := Run.yields_bind.mp hyields
    obtain ⟨rfl, rfl⟩ := Prod.mk.inj (Run.yields_pure.mp hpure)
    obtain ⟨token, tokens, -, hnext, -⟩ := advance_eq hadvance
    left
    refine ⟨rfl, ?_, ?_⟩
    · rw [hnext, hkind]
    · rw [Run.log_bind hadvance, Run.pure_def, List.append_nil]
      apply (loggingReads_allowsAdvancing.advance window).goes hadvance
  · apply Run.ensures_tell_bind
    apply Run.ensures_pure
    right
    exact ⟨rfl, _, rfl, rfl⟩

theorem ensures_binding (window : Window) :
  window.binding.Ensures fun (statement?, next) log =>
    window.Outcome statement? next (remarks log)
  := by
  apply (window.ensures_expect .identifier).bind
  rintro ⟨met, named⟩ log (⟨rfl, hkind, hnamed⟩ | ⟨rfl, diagnostic, rfl, hdiagnostic⟩)
  · dsimp only
    split
    · next hnone => simp [Identifier.ofToken?, hkind] at hnone
    · apply (named.ensures_expect .assign).bind
      rintro ⟨met, assigned⟩ log' (⟨rfl, -, hassigned⟩ | ⟨rfl, diagnostic, rfl, hdiagnostic⟩)
      · apply (loggingReads_allowsAdvancing.skipToSemicolon assigned).ensures.bind
        intro last log'' hlast
        have hreads := loggingReads.trans hnamed (loggingReads.trans hassigned hlast)
        apply (ensures_made hreads).mono
        intro answer records h
        simpa only [List.append_assoc] using h
      · apply Run.ensures_pure
        apply outcome_dropped hnamed hdiagnostic
  · apply Run.ensures_pure
    apply outcome_dropped (loggingReads.refl window) hdiagnostic

theorem ensures_result (window : Window) :
  window.result.Ensures fun (statement?, next) log =>
    window.Outcome statement? next (remarks log)
  := by
  apply (loggingReads_allowsAdvancing.advance window).ensures.bind
  intro next log hnext
  apply (loggingReads_allowsAdvancing.skipToSemicolon next).ensures.bind
  intro last log' hlast
  have hreads := loggingReads.trans hnext hlast
  apply (ensures_made hreads).mono
  intro answer records h
  simpa only [List.append_assoc] using h

theorem ensures_statement (window : Window) :
  window.statement.Ensures fun (statement?, next) log =>
    window.Outcome statement? next (remarks log)
  := by
  unfold Window.statement
  split
  · apply window.ensures_binding
  · apply window.ensures_result
  · apply Run.ensures_tell_bind
    apply Run.ensures_pure
    exact .skipped rfl

/-! ### Iterations -/

/-- One iteration of reading a program: the statement under view is read and told of, if there is
one, and the window is moved on. -/
def round (window : Window) : Run (Option Statement × Window) := do
  let (statement?, middle) ← window.statement
  if let some statement := statement? then Run.tell (.parsed statement)
  let next ← middle.advance
  return (statement?, next)

/-- The windows at which the iterations begin, until the end is under view. -/
inductive Visits : Window → List Window → Window → Prop where
  | stop {window : Window} (hend : window.current.isEnd) : Visits window [] window
  | round {window next last : Window} {statement? : Option Statement} {visited : List Window}
      (hend : window.current.isEnd = false) (h : window.round.Yields (statement?, next))
      (hrest : Visits next visited last) : Visits window (window :: visited) last

variable {ts rest : List Token} {diagnostics : List Diagnostic} {fate : Option Failure}
  {segment : Segment} {segments : List Segment}

/-- The statements are read one iteration after the other. -/
theorem statements_eq (hend : window.current.isEnd = false) :
  window.statements = window.round >>= fun answer =>
    (fun rest => (answer.1.toList ++ rest.1, rest.2)) <$> answer.2.statements
  := by
  rw [Window.statements, dif_neg (by simp [hend]), round, bind_assoc,
    ← Run.attach_bind window.statement]
  congr 1
  funext answer
  obtain ⟨⟨statement?, middle⟩, hstatement⟩ := answer
  dsimp only
  have hrest := Run.attach_bind middle.advance fun next =>
    (fun rest => (statement?.toList ++ rest.1, rest.2)) <$> next.statements
  cases statement? with
  | none => simpa using hrest
  | some statement =>
    simpa using congrArg (fun run => Run.tell (.parsed statement) >>= fun _ => run) hrest

theorem round_eq (hstatement : window.statement.Yields (statement?, middle))
    (hadvance : middle.advance.Yields next) :
  window.round = ⟨.ok (statement?, next), window.statement.log
    ++ (statement?.toList.map .parsed ++ middle.advance.log)⟩
  := by
  rw [round, hstatement.bind_eq]
  cases statement? with
  | none => simp [hadvance.bind_eq, Run.pure_def]
  | some statement => simp [hadvance.bind_eq, Run.pure_def, Run.tell, Run.ok_bind]

/-- If there is one more diagnostic, it is the one that is told of. -/
theorem Outcome.eq_dropped {records : List Record} {diagnostic : Diagnostic}
    (h : window.Outcome none next records)
    (hdiagnostics : next.diagnostics.toList = window.diagnostics.toList ++ [diagnostic]) :
  records = [.dropped diagnostic]
  := by
  cases h with
  | dropped told hpush =>
    obtain rfl : told = diagnostic := by simpa [hpush] using hdiagnostics
    rfl
  | skipped hsame => simp [hsame] at hdiagnostics

/-- The records of a statement and of its being parsed are the record of the segment. -/
theorem Outcome.record_eq {records : List Record}
    (h : window.Outcome segment.statement? next records)
    (hdiagnostics : next.diagnostics.toList
      = window.diagnostics.toList ++ segment.diagnostic?.toList)
    (hcurrent : segment.tokens.head? = some window.current) :
  records ++ segment.statement?.toList.map .parsed = [segment.record]
  := by
  cases segment with
  | binding =>
    cases h
    rfl
  | result =>
    cases h
    rfl
  | unnamed =>
    rw [h.eq_dropped hdiagnostics]
    rfl
  | unassigned =>
    rw [h.eq_dropped hdiagnostics]
    rfl
  | skipped token =>
    cases h with
    | dropped diagnostic hpush => simp [hpush, Segment.diagnostic?] at hdiagnostics
    | skipped =>
      obtain rfl : token = window.current := by simpa [Segment.tokens] using hcurrent
      rfl

/-- An iteration reads the segment at the front and leaves its record. -/
theorem Shows.round (h : window.Shows (segment.tokens ++ rest) diagnostics fate)
    (hfits : segment.Fits rest) :
  ∃ next, window.round.Yields (segment.statement?, next)
    ∧ next.Shows rest (diagnostics ++ segment.diagnostic?.toList) fate
    ∧ remarks window.round.log = [segment.record]
  := by
  obtain ⟨token, ts, hts⟩ := List.exists_cons_of_ne_nil
    (List.append_ne_nil_of_left_ne_nil segment.tokens_ne_nil rest)
  rw [hts] at h
  obtain ⟨segment', left, middle, hsplit, hfits', hstatement, hmiddle⟩ := h.statement
  obtain ⟨rfl, rfl⟩ := hfits.unique hfits' (hts.trans hsplit)
  obtain ⟨next, hadvance, hnext⟩ := hmiddle.advance
  have hround := round_eq hstatement hadvance
  rw [hround]
  use next, rfl, hnext
  have houtcome := window.ensures_statement.of_yields _ hstatement
  have hquiet := (loggingReads_allowsAdvancing.advance middle).goes hadvance
  have hparsed : remarks (segment.statement?.toList.map .parsed)
      = segment.statement?.toList.map .parsed := by
    cases segment.statement? with
    | none => rfl
    | some statement => rfl
  rw [remarks_append, remarks_append, remarks_eq_nil hquiet.1, hparsed, List.append_nil]
  apply houtcome.record_eq
  · rw [hmiddle.diagnostics_eq, h.diagnostics_eq]
  · have hcurrent : window.current = token := h.current_eq
    have hhead := congrArg List.head? hts
    rwa [List.head?_append_of_ne_nil _ segment.tokens_ne_nil, List.head?_cons, ← hcurrent] at hhead

/-- The iterations read the segments one after the other, and leave their records. -/
theorem Shows.exists_visits (h : window.Shows ts diagnostics fate)
    (hsegments : Segments ts segments) :
  ∃ visited last, Visits window visited last
    ∧ window.statements.Yields (segments.filterMap Segment.statement?, last)
    ∧ last.Shows [] (diagnostics ++ segments.filterMap Segment.diagnostic?) fate
    ∧ window.statements.log = visited.flatMap (·.round.log)
    ∧ List.Forall₂ (fun visit segment => remarks visit.round.log = [segment.record])
      visited segments
  := by
  induction hsegments generalizing window diagnostics with
  | nil =>
    have hend : window.current.isEnd := h.current_isEnd
    have hstatements : window.statements = pure ([], window) := by
      rw [Window.statements, dif_pos hend]
    use [], window, .stop hend
    rw [hstatements]
    refine ⟨rfl, ?_, rfl, .nil⟩
    simpa using h
  | @cons segment rest segments hfits _ ih =>
    obtain ⟨next, hround, hnext, hrecord⟩ := h.round hfits
    obtain ⟨visited, last, hvisits, hyields, hlast, hlog, hrecords⟩ := ih hnext
    have hend : window.current.isEnd = false := by
      simp [h.current_isEnd, segment.tokens_ne_nil]
    use window :: visited, last, .round hend hround hvisits
    rw [statements_eq hend]
    refine ⟨?_, ?_, ?_, .cons hrecord hrecords⟩
    · rw [List.filterMap_eq_flatMap_toList] at hyields ⊢
      apply hround.bind
      apply hyields.map
    · rw [List.filterMap_eq_flatMap_toList] at hlast ⊢
      rwa [List.append_assoc] at hlast
    · rw [Run.log_bind hround, Run.log_map, hlog, List.flatMap_cons]

/-! ### The account of a program -/

/-- The log of reading a program, apart from what tells of reading, accounts for its iterations: it
is one record for each of them, that of the segment of tokens which it reads. So it accounts for
the statements of the program, for the diagnostics that are new, and for the tokens that were
skipped. -/
structure ProgramLog (window : Window) (program : Program) (next : Window)
    (visited : List Window) (segments : List Segment) : Prop where
  yields : window.program.Yields (program, next)
  visits : window.Visits visited next
  log_eq : window.program.log = visited.flatMap (·.round.log)
  splits : ∃ ts, window.remaining.Yields ts ∧ Segments ts segments
  rounds : List.Forall₂ (fun visit segment => remarks visit.round.log = [segment.record])
    visited segments
  records_eq : remarks window.program.log = segments.map Segment.record
  isRemark : ∀ record ∈ remarks window.program.log, record.IsRemark
  parsed_eq : (remarks window.program.log).filterMap Record.parsed? = program.statements
  dropped_eq : window.diagnostics.toList
    ++ (remarks window.program.log).filterMap Record.dropped? = next.diagnostics.toList
  skipped_eq : (remarks window.program.log).filterMap Record.skipped?
    = segments.filterMap Segment.skipped?

/-- The records of the iterations are those of the whole log. -/
theorem remarks_flatMap {visited : List Window}
    (h : List.Forall₂ (fun visit segment => remarks visit.round.log = [segment.record])
      visited segments) :
  remarks (visited.flatMap (·.round.log)) = segments.map Segment.record
  := by
  induction h with
  | nil => rfl
  | cons hrecord _ ih =>
    rw [List.flatMap_cons, remarks_append, hrecord, ih]
    rfl

theorem filterMap_records {α : Type} {f : Record → Option α} {g : Segment → Option α}
    (h : ∀ segment : Segment, f segment.record = g segment) (segments : List Segment) :
  (segments.map Segment.record).filterMap f = segments.filterMap g
  := by
  rw [List.filterMap_map]
  congr 1
  funext segment
  apply h

theorem Shows.programLog (h : window.Shows ts diagnostics fate) :
  ∃ program next visited segments, window.ProgramLog program next visited segments
  := by
  obtain ⟨segments, -, hsegments, -, -⟩ := h.program
  obtain ⟨visited, last, hvisits, hyields, hlast, hlog, hrounds⟩ := h.exists_visits hsegments
  have hrecords := remarks_flatMap hrounds
  rw [← hlog] at hrecords
  have hlog' : window.program.log = window.statements.log := rfl
  use ⟨segments.filterMap Segment.statement?⟩, last, visited, segments
  constructor
  · apply hyields.map
  · apply hvisits
  · apply hlog
  · use ts, h.remaining
  · apply hrounds
  · apply hrecords
  · rw [hlog', hrecords]
    apply List.forall_mem_map.mpr hsegments.isRemark
  · rw [hlog', hrecords, filterMap_records Segment.parsed?_record]
  · rw [hlog', hrecords, filterMap_records Segment.dropped?_record, hlast.diagnostics_eq,
      h.diagnostics_eq]
  · rw [hlog', hrecords, filterMap_records Segment.skipped?_record]

/-! ### The account of a session -/

theorem pulling_perform (window : Window) (step : Step) :
  pulling.Leads window (window.perform step) id
  := by
  cases step with
  | advance => apply pulling_allowsParsing.advance
  | takeFailure =>
    apply Passage.leads_pure
    use []
    exact TokenStream.pulls_of_still (.takeFailure (.refl _)) rfl (List.forall_mem_nil _)
  | program =>
    apply Passage.Leads.map
    apply pulling_allowsParsing.program

/-- Whatever was done with a window, its log tells of the tokens that were taken. -/
theorem exists_pulls_after {tokens : TokenStream} {steps : List Step}
    (h : (after tokens steps).Yields window) :
  ∃ tiles, tokens.Pulls tiles (after tokens steps).log window.tokens
  := by
  obtain ⟨first, hfirst, hsteps⟩ := Run.yields_bind.mp h
  obtain ⟨tiles, htiles⟩ := (pulling_ofTokens tokens).goes hfirst
  obtain ⟨tiles', htiles'⟩ := (Passage.leads_foldlM pulling_perform first steps).goes hsteps
  use tiles ++ tiles'
  rw [after, Run.log_bind hfirst]
  apply htiles.trans htiles'

/-- The log accounts for every token. Whatever was done with the window onto a token stream, the log
tells of the tokens that were taken from the stream, once each and in order, with the character of
an illegal one right before it. Reading the program then tells in the same way of the tokens that
it takes, and apart from this it leaves one record for each of its iterations. -/
theorem log_accounts (tokens : TokenStream) :
  (∃ last, tokens.chars.readAll.Yields (tokens.chars.text, last))
    ∧ ∀ steps, ∃ window tiles program next tiles' visited segments,
      (after tokens steps).Yields window
      ∧ tokens.Pulls tiles (after tokens steps).log window.tokens
      ∧ scannedTokens (after tokens steps).log = tiles.map Tile.token
      ∧ window.ProgramLog program next visited segments
      ∧ window.tokens.Pulls tiles' window.program.log next.tokens
      ∧ scannedTokens window.program.log = tiles'.map Tile.token
  := by
  constructor
  · obtain ⟨last, hread, -⟩ := tokens.chars.gives_text.readAll
    use last, hread
  · intro steps
    obtain ⟨ts, fate, hts⟩ := tokens.exists_holds
    obtain ⟨first, hfirst, hshows⟩ := shows_ofTokens hts
    obtain ⟨window, ts', diagnostics, fate', hsteps, hwindow⟩ := hshows.performAll steps
    have hafter : (after tokens steps).Yields window := hfirst.bind hsteps
    obtain ⟨tiles, hpulls⟩ := exists_pulls_after hafter
    obtain ⟨program, next, visited, segments, hprogram⟩ := hwindow.programLog
    obtain ⟨tiles', hpulls'⟩ := (pulling_allowsParsing.program window).goes hprogram.yields
    use window, tiles, program, next, tiles', visited, segments, hafter, hpulls
    use hpulls.told.scannedTokens_eq, hprogram, hpulls', hpulls'.told.scannedTokens_eq

end Window

end FrontEnd
