import FrontEnd.Proofs.Token.Scanning
import FrontEnd.Proofs.Tree.Segments
import FrontEnd.Tree.Window
import Mathlib.Data.List.Basic

/-!
# What a window shows

`window.Shows ts diagnostics fate` says that the tokens `ts` are still to be seen, from the one
under view on. Moving on takes the first of them; reading a statement takes a segment of them
but for its last token, and leaves the diagnostic of the segment (`Shows.statement`). Reading
all statements splits the tokens into segments (`Shows.program`).
-/

namespace FrontEnd

namespace Window

/-- The tokens from the one under view to the end are these, these diagnostics were left so far,
and at the end there will be this failure. -/
structure Shows (window : Window) (ts : List Token) (diagnostics : List Diagnostic)
    (fate : Option Failure) : Prop where
  current_eq : window.current = ts.headD .endOfInput
  following_eq : window.following = ts.tail.headD .endOfInput
  behind : window.tokens.Holds ts.tail.tail fate
  ended : ts.tail = [] → window.tokens.Ended fate
  isEnd_eq : ∀ token ∈ ts, token.isEnd = false
  diagnostics_eq : window.diagnostics.toList = diagnostics

variable {window : Window} {ts : List Token} {diagnostics : List Diagnostic}
  {fate : Option Failure} {token : Token}

/-- The window onto a token stream shows the tokens that the stream holds. -/
theorem shows_ofTokens {tokens : TokenStream} (h : tokens.Holds ts fate) :
  ∃ window, (ofTokens tokens).Yields window ∧ window.Shows ts [] fate
  := by
  obtain ⟨middle, hcurrent, hmiddle, -⟩ := h.next
  obtain ⟨last, hfollowing, hlast, hended⟩ := hmiddle.next
  use ⟨last, ts.headD .endOfInput, ts.tail.headD .endOfInput, #[]⟩
  constructor
  · apply hcurrent.bind
    apply hfollowing.bind
    rfl
  · exact ⟨rfl, rfl, hlast, hended, h.isEnd_eq, rfl⟩

/-! ### Moving on -/

/-- Moving on takes the token under view. -/
theorem Shows.advance (h : window.Shows ts diagnostics fate) :
  ∃ next, window.advance.Yields next ∧ next.Shows ts.tail diagnostics fate
  := by
  obtain ⟨tokens, hnext, hbehind, hended⟩ := h.behind.next
  have hmem : ∀ token ∈ ts.tail, token.isEnd = false := by
    intro token hmem
    apply h.isEnd_eq token (List.mem_of_mem_tail hmem)
  use { window with
    tokens := tokens, current := window.following, following := ts.tail.tail.headD .endOfInput }
  constructor
  · apply hnext.bind
    rfl
  · exact ⟨h.following_eq, rfl, hbehind, hended, hmem, h.diagnostics_eq⟩

/-- The end is under view exactly if no token is left. -/
theorem Shows.current_isEnd (h : window.Shows ts diagnostics fate) :
  window.current.isEnd = ts.isEmpty
  := by
  rw [h.current_eq]
  cases ts with
  | nil => rfl
  | cons token ts =>
    apply h.isEnd_eq token
    apply List.mem_cons_self

/-- At the end, the failure is there to be taken. -/
theorem Shows.takeFailure_eq (h : window.Shows [] diagnostics fate) :
  window.takeFailure.1 = fate
  := by apply (h.ended rfl).takeFailure_eq

/-- Skipping drops the tokens before the next semicolon. -/
theorem Shows.skipToSemicolon (h : window.Shows ts diagnostics fate) :
  ∃ next, window.skipToSemicolon.Yields next
    ∧ next.Shows (ts.dropWhile fun token => token.kind != .semicolon) diagnostics fate
  := by
  induction ts generalizing window with
  | nil =>
    have hend : window.current.kind = .endOfInput := congrArg Token.kind h.current_eq
    use window
    constructor
    · rw [Window.skipToSemicolon, dif_pos (.inr hend)]
      rfl
    · apply h
  | cons token ts ih =>
    have hcurrent : window.current = token := h.current_eq
    by_cases hsemicolon : window.current.kind = .semicolon
    · rw [List.dropWhile_cons_of_neg (by simp [← hcurrent, hsemicolon])]
      use window
      constructor
      · rw [Window.skipToSemicolon, dif_pos (.inl hsemicolon)]
        rfl
      · apply h
    · have hend : window.current.kind ≠ .endOfInput := by
        simpa [Token.isEnd] using h.current_isEnd
      obtain ⟨middle, hadvance, hmiddle⟩ := h.advance
      obtain ⟨next, hskip, hnext⟩ := ih hmiddle
      rw [List.dropWhile_cons_of_pos (by simpa [← hcurrent] using hsemicolon)]
      use next
      constructor
      · rw [Window.skipToSemicolon, dif_neg (not_or.mpr ⟨hsemicolon, hend⟩)]
        apply hadvance.attach_bind
        apply hskip
      · apply hnext

/-! ### Statements -/

/-- An expectation that is met moves the window on. -/
theorem Shows.expect_met (h : window.Shows ts diagnostics fate) {kind : Kind}
    (hkind : (ts.tail.headD .endOfInput).kind = kind) :
  ∃ next, (window.expect kind).Yields (true, next) ∧ next.Shows ts.tail diagnostics fate
  := by
  obtain ⟨next, hadvance, hnext⟩ := h.advance
  use next
  constructor
  · rw [expect, if_pos (h.following_eq ▸ hkind)]
    apply hadvance.bind
    rfl
  · apply hnext

/-- An expectation that is not met leaves a diagnostic. -/
theorem Shows.expect_unmet (h : window.Shows ts diagnostics fate) {kind : Kind}
    (hkind : (ts.tail.headD .endOfInput).kind ≠ kind) :
  ∃ next, (window.expect kind).Yields (false, next)
    ∧ next.Shows ts (diagnostics ++ [⟨kind, ts.tail.headD .endOfInput⟩]) fate
  := by
  have hdiagnostics : (window.diagnostics.push ⟨kind, window.following⟩).toList
      = diagnostics ++ [⟨kind, ts.tail.headD .endOfInput⟩] := by
    rw [Array.toList_push, h.diagnostics_eq, h.following_eq]
  use { window with diagnostics := window.diagnostics.push ⟨kind, window.following⟩ }
  constructor
  · rw [expect, if_neg (h.following_eq ▸ hkind)]
    apply Run.tell_bind
    rfl
  · exact ⟨h.current_eq, h.following_eq, h.behind, h.ended, h.isEnd_eq, hdiagnostics⟩

/-- The run reads the segment at the front of the tokens: it comes to the statement of the
segment and leaves its diagnostic, and the tokens after the segment are those after the one
under view. -/
def Reads (run : Run (Option Statement × Window)) (ts : List Token)
    (diagnostics : List Diagnostic) (fate : Option Failure) : Prop :=
  ∃ (segment : Segment) (left : List Token) (next : Window),
    ts = segment.tokens ++ left.tail ∧ segment.Fits left.tail
    ∧ run.Yields (segment.statement?, next)
    ∧ next.Shows left (diagnostics ++ segment.diagnostic?.toList) fate

theorem reads_of_fits {run : Run (Option Statement × Window)} {segment : Segment}
    {rest left : List Token} {next : Window} (hfits : segment.Fits rest)
    (hsplit : ts = segment.tokens ++ rest) (hleft : left.tail = rest)
    (hnext : next.Shows left (diagnostics ++ segment.diagnostic?.toList) fate)
    (hyields : run.Yields (segment.statement?, next)) :
  Reads run ts diagnostics fate
  := by
  subst hleft
  use segment, left, next

/-- A binding without a name. -/
theorem Shows.binding_unnamed (h : window.Shows (token :: ts) diagnostics fate)
    (hlet : token.kind = .letWord) (hfound : (ts.headD .endOfInput).kind ≠ .identifier) :
  Reads window.binding (token :: ts) diagnostics fate
  := by
  obtain ⟨next, hexpect, hnext⟩ := h.expect_unmet hfound
  have hfits : (Segment.unnamed token (ts.headD .endOfInput)).Fits ts := ⟨hlet, rfl, hfound⟩
  apply reads_of_fits hfits rfl rfl hnext
  apply hexpect.bind
  rfl

/-- A binding without `=`. -/
theorem Shows.binding_unassigned {name : Token}
    (h : window.Shows (token :: name :: ts) diagnostics fate) (hlet : token.kind = .letWord)
    (hname : name.kind = .identifier) (hfound : (ts.headD .endOfInput).kind ≠ .assign) :
  Reads window.binding (token :: name :: ts) diagnostics fate
  := by
  obtain ⟨named, hexpect, hnamed⟩ := h.expect_met hname
  obtain ⟨next, hexpect', hnext⟩ := hnamed.expect_unmet hfound
  have hcurrent : named.current = name := hnamed.current_eq
  have hfits : (Segment.unassigned token name (ts.headD .endOfInput)).Fits ts :=
    ⟨hlet, hname, rfl, hfound⟩
  apply reads_of_fits hfits rfl rfl hnext
  apply hexpect.bind
  simp only [Identifier.ofToken?, hcurrent, hname, if_true]
  apply hexpect'.bind
  rfl

/-- A binding with a name and `=`, and everything up to the next semicolon. -/
theorem Shows.binding_assigned {name assign : Token}
    (h : window.Shows (token :: name :: assign :: ts) diagnostics fate)
    (hlet : token.kind = .letWord) (hname : name.kind = .identifier)
    (hassign : assign.kind = .assign) :
  Reads window.binding (token :: name :: assign :: ts) diagnostics fate
  := by
  obtain ⟨named, hexpect, hnamed⟩ := h.expect_met hname
  obtain ⟨assigned, hexpect', hassigned⟩ := hnamed.expect_met hassign
  obtain ⟨next, hskip, hnext⟩ := hassigned.skipToSemicolon
  have hcurrent : window.current = token := h.current_eq
  have hcurrent' : named.current = name := hnamed.current_eq
  have hfits : (Segment.binding token name assign (upToSemicolon ts).1).Fits
      (upToSemicolon ts).2 := ⟨hlet, hname, hassign, terminated_upToSemicolon ts⟩
  have hsplit := congrArg (token :: name :: assign :: ·) (upToSemicolon_append ts).symm
  rw [List.tail_cons, List.tail_cons, List.dropWhile_cons_of_pos (by simp [hassign]),
    ← List.append_nil diagnostics] at hnext
  apply reads_of_fits hfits hsplit rfl hnext
  apply hexpect.bind
  simp only [Identifier.ofToken?, hcurrent', hname, if_true]
  apply hexpect'.bind
  apply hskip.bind
  rw [hcurrent]
  apply Run.lift_bind (if_pos hlet)
  rfl

/-- A result, and everything up to the next semicolon. -/
theorem Shows.result (h : window.Shows (token :: ts) diagnostics fate)
    (hreturn : token.kind = .returnWord) :
  Reads window.result (token :: ts) diagnostics fate
  := by
  obtain ⟨middle, hadvance, hmiddle⟩ := h.advance
  obtain ⟨next, hskip, hnext⟩ := hmiddle.skipToSemicolon
  have hcurrent : window.current = token := h.current_eq
  have hfits : (Segment.result token (upToSemicolon ts).1).Fits (upToSemicolon ts).2 :=
    ⟨hreturn, terminated_upToSemicolon ts⟩
  have hsplit := congrArg (token :: ·) (upToSemicolon_append ts).symm
  rw [List.tail_cons, ← List.append_nil diagnostics] at hnext
  apply reads_of_fits hfits hsplit rfl hnext
  apply hadvance.bind
  apply hskip.bind
  rw [hcurrent]
  apply Run.lift_bind (if_pos hreturn)
  rfl

theorem Shows.binding (h : window.Shows (token :: ts) diagnostics fate)
    (hlet : token.kind = .letWord) :
  Reads window.binding (token :: ts) diagnostics fate
  := by
  by_cases hname : (ts.headD .endOfInput).kind = .identifier
  case neg => apply h.binding_unnamed hlet hname
  cases ts with
  | nil => simp [Token.endOfInput] at hname
  | cons name ts =>
    by_cases hassign : (ts.headD .endOfInput).kind = .assign
    case neg => apply h.binding_unassigned hlet hname hassign
    cases ts with
    | nil => simp [Token.endOfInput] at hassign
    | cons assign ts => apply h.binding_assigned hlet hname hassign

/-- A statement, or a diagnostic, or nothing is read from the segment at the front. -/
theorem Shows.statement (h : window.Shows (token :: ts) diagnostics fate) :
  Reads window.statement (token :: ts) diagnostics fate
  := by
  have hcurrent : window.current = token := h.current_eq
  unfold Window.statement
  split
  · next hlet =>
    rw [hcurrent] at hlet
    apply h.binding hlet
  · next hreturn =>
    rw [hcurrent] at hreturn
    apply h.result hreturn
  · next hlet hreturn =>
    rw [hcurrent] at hlet hreturn
    have hfits : (Segment.skipped token).Fits ts := ⟨hlet, hreturn⟩
    rw [← List.append_nil diagnostics] at h
    apply reads_of_fits hfits rfl rfl h
    apply Run.tell_bind
    rfl

/-! ### Programs -/

/-- The statements are the one read first, if there is one, and those read after moving on. -/
theorem yields_statements {window middle next last : Window} {statement? : Option Statement}
    {rest : List Statement} (hend : window.current.isEnd = false)
    (hstatement : window.statement.Yields (statement?, middle))
    (hadvance : middle.advance.Yields next) (hrest : next.statements.Yields (rest, last)) :
  window.statements.Yields (statement?.toList ++ rest, last)
  := by
  rw [Window.statements, dif_neg (by simp [hend])]
  apply hstatement.attach_bind
  cases statement? with
  | none =>
    apply hadvance.attach_bind
    apply hrest.map
  | some statement =>
    apply Run.tell_bind
    apply hadvance.attach_bind
    apply hrest.map

/-- Reading all statements splits the tokens into segments, and gives their statements and
diagnostics. -/
theorem Shows.statements (h : window.Shows ts diagnostics fate) :
  ∃ segments last, Segments ts segments
    ∧ window.statements.Yields (segments.filterMap Segment.statement?, last)
    ∧ last.Shows [] (diagnostics ++ segments.filterMap Segment.diagnostic?) fate
  := by
  induction hlength : ts.length using Nat.strong_induction_on
    generalizing window ts diagnostics with
  | h length ih =>
    cases ts with
    | nil =>
      have hend : window.current.isEnd := h.current_isEnd
      use [], window, .nil
      constructor
      · rw [Window.statements, dif_pos hend]
        rfl
      · simpa using h
    | cons token ts =>
      obtain ⟨segment, left, middle, hsplit, hfits, hstatement, hmiddle⟩ := h.statement
      obtain ⟨next, hadvance, hnext⟩ := hmiddle.advance
      have hlt : left.tail.length < length := by
        have hpos := List.length_pos_iff.mpr segment.tokens_ne_nil
        rw [← hlength, hsplit, List.length_append]
        omega
      obtain ⟨segments, last, hsegments, hrest, hlast⟩ := ih _ hlt hnext rfl
      use segment :: segments, last, hsplit ▸ .cons hfits hsegments
      constructor
      · rw [List.filterMap_eq_flatMap_toList] at hrest ⊢
        apply yields_statements h.current_isEnd hstatement hadvance hrest
      · rw [List.filterMap_eq_flatMap_toList] at hlast ⊢
        rwa [List.append_assoc] at hlast

/-- Reading a program splits the tokens into segments. -/
theorem Shows.program (h : window.Shows ts diagnostics fate) :
  ∃ segments last, Segments ts segments
    ∧ window.program.Yields (⟨segments.filterMap Segment.statement?⟩, last)
    ∧ last.Shows [] (diagnostics ++ segments.filterMap Segment.diagnostic?) fate
  := by
  obtain ⟨segments, last, hsegments, hstatements, hlast⟩ := h.statements
  use segments, last, hsegments
  constructor
  · apply hstatements.map
  · apply hlast

end Window

/-- A source is parsed as the segments of its tokens. -/
theorem TokenStream.Holds.parse {source : Source} {ts : List Token} {fate : Option Failure}
    (h : (ofSource source).Holds ts fate) :
  ∃ segments last, Segments ts segments
    ∧ source.parse.Yields (⟨segments.filterMap Segment.statement?⟩, last)
    ∧ last.Shows [] (segments.filterMap Segment.diagnostic?) fate
  := by
  obtain ⟨window, hwindow, hshows⟩ := Window.shows_ofTokens h
  obtain ⟨segments, last, hsegments, hprogram, hlast⟩ := hshows.program
  use segments, last, hsegments
  constructor
  · apply Run.Yields.bind hwindow hprogram
  · apply hlast

end FrontEnd
