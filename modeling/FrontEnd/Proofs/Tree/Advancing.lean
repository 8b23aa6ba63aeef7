import FrontEnd.Proofs.Tree.Moving
import FrontEnd.Proofs.Tree.Programs

/-!
# How far reading a program moves

A statement moves the window on over tokens that it passes, none of them a semicolon, and stops at
a semicolon or at the end; a statement that is dropped never comes to the end. Then the window moves
on once more. So a program is read in as many moves as there are tokens, and in one more if its last
statement ran out of tokens before a semicolon (`Shows.length_program`).
-/

namespace FrontEnd

/-- Whether a segment is a statement without a semicolon. -/
def Segment.isOpen (segment : Segment) : Bool :=
  segment.statement?.isSome && segment.tokens.all fun token => token.kind != .semicolon

/-- Whether the last statement ran to the end without a semicolon. -/
def runsOut (segments : List Segment) : Bool :=
  segments.getLast?.any Segment.isOpen

theorem runsOut_cons {segment : Segment} {segments : List Segment}
    (h : segment.isOpen → segments = []) :
  (runsOut (segment :: segments)).toNat = segment.isOpen.toNat + (runsOut segments).toNat
  := by
  cases segments with
  | nil => rfl
  | cons next segments =>
    have hclosed : segment.isOpen = false := by simpa using h
    rw [runsOut, runsOut, List.getLast?_cons_cons, hclosed, Bool.toNat_false, Nat.zero_add]

/-- There are no segments of no tokens. -/
theorem Segments.eq_nil {segments : List Segment} (h : Segments [] segments) :
  segments = []
  := h.unique .nil

namespace Window

variable {window middle next : Window} {ts ts' left : List Token}
  {diagnostics diagnostics' : List Diagnostic} {fate fate' : Option Failure} {kind : Kind}
  {met : Bool} {statement? : Option Statement} {log : List Record}

/-- A window shows one list of tokens only. -/
theorem Shows.unique (h : window.Shows ts diagnostics fate)
    (h' : window.Shows ts' diagnostics' fate') :
  ts = ts'
  := h.remaining.unique h'.remaining

/-! ### What a statement passes -/

/-- The tokens in front, one for each token that is taken from the stream, pass the view, and no
semicolon is among them. -/
def Passes (window : Window) (log : List Record) (next : Window) : Prop :=
  ∀ ts diagnostics fate, window.Shows ts diagnostics fate →
    ∃ passed left diagnostics', ts = passed ++ left ∧ next.Shows left diagnostics' fate
      ∧ passed.length = (scannedTokens log).length
      ∧ ∀ token ∈ passed, token.kind ≠ .semicolon

theorem passes_of_still (hlog : scannedTokens log = [])
    (h : ∀ ts diagnostics fate, window.Shows ts diagnostics fate →
      ∃ diagnostics', next.Shows ts diagnostics' fate) :
  window.Passes log next
  := by
  intro ts diagnostics fate hts
  obtain ⟨diagnostics', hnext⟩ := h ts diagnostics fate hts
  use [], ts, diagnostics', rfl, hnext
  simp [hlog]

/-- Passing tokens as a passage. -/
def passing : Passage Window where
  Goes := Passes
  refl window := passes_of_still rfl fun _ diagnostics _ h => ⟨diagnostics, h⟩
  trans := by
    intro window middle next log log' h h' ts diagnostics fate hts
    obtain ⟨passed, left, diagnostics', rfl, hleft, hlength, hpassed⟩ := h ts diagnostics fate hts
    obtain ⟨passed', left', diagnostics'', rfl, hleft', hlength', hpassed'⟩ :=
      h' left diagnostics' fate hleft
    use passed ++ passed', left', diagnostics'', (List.append_assoc ..).symm, hleft'
    rw [List.length_append, scannedTokens_append, List.length_append, hlength, hlength']
    exact ⟨rfl, List.forall_mem_append.mpr ⟨hpassed, hpassed'⟩⟩

theorem passing_advance (hend : window.current.isEnd = false)
    (hsemicolon : window.current.kind ≠ .semicolon) :
  passing.Leads window window.advance id
  := by
  constructor
  constructor
  intro next hadvance ts diagnostics fate hts
  obtain ⟨next', hadvance', hnext⟩ := hts.advance
  obtain rfl := hadvance.unique hadvance'
  obtain ⟨token, tokens, -, -, hlog⟩ := advance_eq hadvance
  cases ts with
  | nil =>
    have hempty := hts.current_isEnd
    simp [hend] at hempty
  | cons current ts =>
    have hcurrent : window.current = current := hts.current_eq
    use [current], ts, diagnostics, rfl, hnext
    rw [hlog, List.forall_mem_singleton, ← hcurrent]
    exact ⟨rfl, hsemicolon⟩

theorem passing_skipToSemicolon (window : Window) :
  passing.Leads window window.skipToSemicolon id
  := by
  fun_induction Window.skipToSemicolon window with
  | case1 window => exact Passage.leads_done rfl
  | case2 window hstop ih =>
    obtain ⟨hsemicolon, hend⟩ := not_or.mp hstop
    apply (passing_advance (by simpa [Token.isEnd] using hend) hsemicolon).attach_bind
    intro next hadvance
    apply ih next hadvance

theorem passing_expect (hend : window.current.isEnd = false)
    (hsemicolon : window.current.kind ≠ .semicolon) (kind : Kind) :
  passing.Leads window (window.expect kind) Prod.snd
  := by
  unfold expect
  split
  · apply (passing_advance hend hsemicolon).bind
    intro next
    exact Passage.leads_done rfl
  · constructor
    constructor
    intro answer hanswer
    obtain ⟨_, -, hpure⟩ := Run.yields_bind.mp hanswer
    obtain rfl := Run.yields_pure.mp hpure
    apply passes_of_still rfl
    intro ts diagnostics fate hts
    use diagnostics ++ [⟨kind, window.following⟩]
    exact { hts with diagnostics_eq := by rw [Array.toList_push, hts.diagnostics_eq] }

theorem passing_binding (hlet : window.current.kind = .letWord) :
  passing.Leads window window.binding Prod.snd
  := by
  apply (passing_expect (by simp [Token.isEnd, hlet]) (by simp [hlet]) .identifier).bind
  rintro ⟨met, named⟩
  cases met with
  | false => exact Passage.leads_done rfl
  | true =>
    dsimp only
    split
    · exact Passage.leads_done rfl
    · next name hname =>
      obtain ⟨hkind, -⟩ := Identifier.ofToken?_eq_some_iff.mp hname
      apply (passing_expect (by simp [Token.isEnd, hkind]) (by simp [hkind]) .assign).bind
      rintro ⟨met, assigned⟩
      cases met with
      | false => exact Passage.leads_done rfl
      | true =>
        apply assigned.passing_skipToSemicolon.bind
        intro last
        apply Passage.Leads.lift_bind
        intro _
        exact Passage.leads_done rfl

theorem passing_result (hreturn : window.current.kind = .returnWord) :
  passing.Leads window window.result Prod.snd
  := by
  apply (passing_advance (by simp [Token.isEnd, hreturn]) (by simp [hreturn])).bind
  intro next
  apply next.passing_skipToSemicolon.bind
  intro last
  apply Passage.Leads.lift_bind
  intro _
  exact Passage.leads_done rfl

theorem passing_statement (window : Window) :
  passing.Leads window window.statement Prod.snd
  := by
  unfold Window.statement
  split
  · next hlet => apply passing_binding hlet
  · next hreturn => apply passing_result hreturn
  · apply Passage.Leads.tell_bind
    · apply passes_of_still rfl
      intro ts diagnostics fate hts
      use diagnostics
    · exact Passage.leads_done rfl

/-! ### Where a statement stops -/

/-- Skipping stops at a semicolon or at the end. -/
theorem skipToSemicolon_stops (h : window.skipToSemicolon.Yields next) :
  next.current.kind = .semicolon ∨ next.current.isEnd
  := by
  fun_induction Window.skipToSemicolon window with
  | case1 window hstop =>
    obtain rfl := Run.yields_pure.mp h
    simpa [Token.isEnd] using hstop
  | case2 window _ ih =>
    obtain ⟨⟨middle, hadvance⟩, -, hrest⟩ := Run.yields_bind.mp h
    apply ih middle hadvance hrest

/-- An expectation that is met comes to a token of this kind, and one that is not leaves the
view. -/
theorem expect_stops (h : (window.expect kind).Yields (met, next)) :
  met = true ∧ next.current.kind = kind ∨ met = false ∧ next.current = window.current
  := by
  unfold expect at h
  split at h
  · next hkind =>
    obtain ⟨middle, hadvance, hpure⟩ := Run.yields_bind.mp h
    obtain ⟨rfl, rfl⟩ := Prod.mk.inj (Run.yields_pure.mp hpure)
    obtain ⟨token, tokens, -, rfl, -⟩ := advance_eq hadvance
    left
    exact ⟨rfl, hkind⟩
  · obtain ⟨_, -, hpure⟩ := Run.yields_bind.mp h
    obtain ⟨rfl, rfl⟩ := Prod.mk.inj (Run.yields_pure.mp hpure)
    right
    exact ⟨rfl, rfl⟩

/-- A statement that is read stops at a semicolon or at the end, and one that is dropped stops
before the end. -/
def Stops (statement? : Option Statement) (next : Window) : Prop :=
  statement?.isSome ∧ (next.current.kind = .semicolon ∨ next.current.isEnd)
    ∨ statement? = none ∧ next.current.isEnd = false

theorem binding_stops (hlet : window.current.kind = .letWord)
    (h : window.binding.Yields (statement?, next)) :
  Stops statement? next
  := by
  obtain ⟨⟨met, named⟩, hexpect, h⟩ := Run.yields_bind.mp h
  rcases expect_stops hexpect with ⟨rfl, hkind⟩ | ⟨rfl, hsame⟩
  · have hname := Identifier.ofToken?_eq_some_iff.mpr ⟨hkind, rfl⟩
    simp only [hname] at h
    obtain ⟨⟨met, assigned⟩, hexpect', h⟩ := Run.yields_bind.mp h
    rcases expect_stops hexpect' with ⟨rfl, -⟩ | ⟨rfl, hsame⟩
    · obtain ⟨last, hskip, h⟩ := Run.yields_bind.mp h
      obtain ⟨statement, -, h⟩ := Run.yields_bind.mp h
      obtain ⟨rfl, rfl⟩ := Prod.mk.inj (Run.yields_pure.mp h)
      left
      exact ⟨rfl, skipToSemicolon_stops hskip⟩
    · obtain ⟨rfl, rfl⟩ := Prod.mk.inj (Run.yields_pure.mp h)
      right
      exact ⟨rfl, by simp [hsame, Token.isEnd, hkind]⟩
  · obtain ⟨rfl, rfl⟩ := Prod.mk.inj (Run.yields_pure.mp h)
    right
    exact ⟨rfl, by simp [hsame, Token.isEnd, hlet]⟩

theorem result_stops (h : window.result.Yields (statement?, next)) :
  Stops statement? next
  := by
  obtain ⟨middle, -, h⟩ := Run.yields_bind.mp h
  obtain ⟨last, hskip, h⟩ := Run.yields_bind.mp h
  obtain ⟨statement, -, h⟩ := Run.yields_bind.mp h
  obtain ⟨rfl, rfl⟩ := Prod.mk.inj (Run.yields_pure.mp h)
  left
  exact ⟨rfl, skipToSemicolon_stops hskip⟩

theorem statement_stops (hend : window.current.isEnd = false)
    (h : window.statement.Yields (statement?, next)) :
  Stops statement? next
  := by
  unfold Window.statement at h
  split at h
  · next hlet => apply binding_stops hlet h
  · apply result_stops h
  · obtain ⟨_, -, h⟩ := Run.yields_bind.mp h
    obtain ⟨rfl, rfl⟩ := Prod.mk.inj (Run.yields_pure.mp h)
    right
    exact ⟨rfl, hend⟩

/-! ### Programs -/

/-- A segment is read in as many moves as it has tokens, the one after it counted, and in one more
if it ran to the end. -/
theorem Shows.statement_moves {segment : Segment} {rest : List Token}
    (h : window.Shows (segment.tokens ++ rest) diagnostics fate) (hfits : segment.Fits rest) :
  ∃ middle left diagnostics', window.statement.Yields (segment.statement?, middle)
    ∧ middle.Shows left diagnostics' fate ∧ left.tail = rest
    ∧ (scannedTokens window.statement.log).length + 1
        = segment.tokens.length + segment.isOpen.toNat
    ∧ (segment.isOpen → rest = [])
  := by
  obtain ⟨token, ts, hts, -⟩ := hfits.front_eq
  have hend : window.current.isEnd = false := by
    rw [h.current_isEnd, hts]
    rfl
  have hreads := h
  rw [hts] at hreads
  obtain ⟨segment', left, middle, hsplit, hfits', hstatement, hmiddle⟩ := hreads.statement
  obtain ⟨rfl, rfl⟩ := hfits.unique hfits' (hts.trans hsplit)
  obtain ⟨passed, left', diagnostics', hpassed, hleft', hlength, hnone⟩ :=
    (window.passing_statement.goes hstatement) _ _ _ h
  obtain rfl := hmiddle.unique hleft'
  have hstops := statement_stops hend hstatement
  have hcurrent := hmiddle.current_eq
  use middle, left, diagnostics', hstatement, hleft', rfl
  cases left with
  | nil =>
    rw [List.tail_nil, List.append_nil, List.append_nil] at hpassed
    have hopen : segment.isOpen := by
      rcases hstops with ⟨hsome, -⟩ | ⟨-, hrunning⟩
      · simpa [Segment.isOpen, hsome, hpassed] using hnone
      · simp [hcurrent, Token.isEnd, Token.endOfInput] at hrunning
    rw [hopen, hpassed, hlength]
    exact ⟨rfl, fun _ => rfl⟩
  | cons stop left =>
    -- The token that is stopped at is the last one of the segment.
    rw [List.tail_cons, List.append_cons] at hpassed
    have htokens := List.append_cancel_right hpassed
    have hopen : segment.isOpen = false := by
      rcases hstops with ⟨-, hsemicolon | hended⟩ | ⟨hnone, -⟩
      · rw [hcurrent, List.headD_cons] at hsemicolon
        simp [Segment.isOpen, htokens, hsemicolon]
      · simp [hmiddle.current_isEnd] at hended
      · simp [Segment.isOpen, hnone]
    rw [hopen, htokens, List.length_append, hlength]
    exact ⟨rfl, fun h => absurd h (by simp)⟩

/-- Reading a statement and moving on after it. -/
theorem scannedTokens_statements (hend : window.current.isEnd = false)
    (hstatement : window.statement.Yields (statement?, middle))
    (hadvance : middle.advance.Yields next) :
  scannedTokens window.statements.log
    = scannedTokens window.statement.log ++ scannedTokens middle.advance.log
      ++ scannedTokens next.statements.log
  := by
  rw [Window.statements, dif_neg (by simp [hend]), hstatement.attach_eq, Run.ok_bind]
  cases statement? with
  | none => simp [hadvance.attach_eq, Run.ok_bind, scannedTokens_append]
  | some statement =>
    have htell : (Run.tell (.parsed statement)).Yields () := rfl
    have hnone : scannedTokens (Run.tell (.parsed statement)).log = [] := rfl
    rw [Run.log_bind htell, hadvance.attach_eq, Run.ok_bind, Run.log_map]
    simp [scannedTokens_append, hnone]

theorem Shows.length_statements {segments : List Segment}
    (h : window.Shows ts diagnostics fate) (hsegments : Segments ts segments) :
  (scannedTokens window.statements.log).length = ts.length + (runsOut segments).toNat
  := by
  induction hsegments generalizing window diagnostics with
  | nil =>
    have hend : window.current.isEnd := h.current_isEnd
    rw [Window.statements, dif_pos hend]
    rfl
  | @cons segment rest segments hfits hrest ih =>
    obtain ⟨middle, left, diagnostics', hstatement, hmiddle, rfl, hlength, hopen⟩ :=
      h.statement_moves hfits
    obtain ⟨next, hadvance, hnext⟩ := hmiddle.advance
    obtain ⟨token, tokens, -, -, hlog⟩ := advance_eq hadvance
    have hend : window.current.isEnd = false := by
      simp [h.current_isEnd, segment.tokens_ne_nil]
    rw [scannedTokens_statements hend hstatement hadvance, hlog, List.length_append,
      List.length_append, ih hnext, List.length_append, runsOut_cons, List.length_singleton]
    · omega
    · intro hsegment
      rw [hopen hsegment] at hrest
      apply hrest.eq_nil

/-- A program is read in as many moves as there are tokens, and in one more if its last statement
ran to the end. -/
theorem Shows.length_program {segments : List Segment}
    (h : window.Shows ts diagnostics fate) (hsegments : Segments ts segments) :
  (scannedTokens window.program.log).length = ts.length + (runsOut segments).toNat
  := h.length_statements hsegments

end Window

end FrontEnd
