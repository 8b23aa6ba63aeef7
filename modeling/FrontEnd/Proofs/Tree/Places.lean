import FrontEnd.Proofs.Tree.Moving
import FrontEnd.Proofs.Tree.Programs

/-!
# The place of a window

A window onto a token stream stands at a place of its tokens: it shows the token there and the
next one, and the tokens up to these were taken from the stream, once each and in order. Moving
on goes to the next place, reading a program never goes back, and a program that was read leaves
nothing to be read (`stands_after`).
-/

namespace FrontEnd

namespace TokenStream

variable {stream last : TokenStream} {drawn ts : List Token} {fate : Option Failure}

/-- What is taken from a stream are the tokens that it holds, and the end after them. -/
theorem Draws.eq_map_range (h : stream.Draws drawn last) (hts : stream.Holds ts fate) :
  drawn = (List.range drawn.length).map fun place => ts.getD place .endOfInput
  := by
  induction h generalizing ts fate with
  | refl => rfl
  | @next stream rest last token drawn hnext _ ih =>
    obtain ⟨rest', hnext', hrest, -⟩ := hts.next
    obtain ⟨rfl, rfl⟩ := Prod.mk.inj (hnext.unique hnext')
    rw [List.length_cons, List.range_succ_eq_map, List.map_cons, List.map_map]
    have hdrawn := ih hrest
    cases ts with
    | nil => exact congrArg (_ :: ·) hdrawn
    | cons token ts => exact congrArg (_ :: ·) hdrawn
  | takeFailure _ ih => apply ih hts.takeFailure

end TokenStream

namespace Window

variable {window next : Window} {tokens : TokenStream} {ts : List Token} {steps : List Step}
  {place : Nat} {diagnostics : List Diagnostic} {fate : Option Failure}

theorem movesBy_perform (window : Window) (step : Step) :
  window.MovesBy (window.perform step) id
  := by
  cases step with
  | advance => apply movesBy_of_reachesBy window.reachesBy_advance
  | takeFailure =>
    have hdraws : window.tokens.Draws [] window.takeFailure.2.tokens := .takeFailure (.refl _)
    have hmoves : window.Moves [] window.takeFailure.2 :=
      moves_of_still rfl hdraws rfl rfl (List.prefix_refl _)
    exact movesBy_pure hmoves
  | program =>
    apply MovesBy.map
    apply movesBy_of_reachesBy window.reachesBy_program

/-! ### Places -/

/-- The window onto a token stream, with these steps done one after the other. -/
def after (tokens : TokenStream) (steps : List Step) : Run Window :=
  ofTokens tokens >>= steps.foldlM perform

theorem after_append (tokens : TokenStream) (steps more : List Step) :
  after tokens (steps ++ more) = after tokens steps >>= more.foldlM perform
  := by
  unfold after
  rw [bind_assoc]
  congr 1
  funext window
  apply List.foldlM_append

theorem movesBy_performAll (window : Window) (steps : List Step) :
  window.MovesBy (steps.foldlM perform window) id
  := by
  induction steps generalizing window with
  | nil => apply movesBy_pure (.refl window)
  | cons step steps ih =>
    apply (window.movesBy_perform step).bind
    apply ih

/-- The tokens that were taken lead to the stream behind the window, and the last two of them are
in view. -/
theorem taken_of_yields (h : (after tokens steps).Yields window) :
  tokens.Draws (scannedTokens (after tokens steps).log) window.tokens
    ∧ ∃ passed, scannedTokens (after tokens steps).log
      = passed ++ [window.current, window.following]
  := by
  obtain ⟨first, hfirst, hsteps⟩ := Run.yields_bind.mp h
  have hmoves := (first.movesBy_performAll steps).ensures.of_yields window hsteps
  obtain ⟨⟨current, rest⟩, hcurrent, hrest⟩ := Run.yields_bind.mp hfirst
  obtain ⟨⟨following, rest'⟩, hfollowing, hrest'⟩ := Run.yields_bind.mp hrest
  obtain rfl := Run.yields_pure.mp hrest'
  have hlog : scannedTokens (ofTokens tokens).log = [current, following] := by
    rw [ofTokens, Run.log_bind hcurrent, Run.log_bind hfollowing, scannedTokens_append,
      scannedTokens_append, TokenStream.scannedTokens_next hcurrent,
      TokenStream.scannedTokens_next hfollowing]
    rfl
  rw [after, Run.log_bind hfirst, scannedTokens_append, hlog]
  constructor
  · apply TokenStream.Draws.next hcurrent
    apply TokenStream.Draws.next hfollowing hmoves.draws
  · apply hmoves.passes

/-- After these steps the window stands at this place of the tokens `ts`, which the end follows for
ever: it shows the token there and the next one, and the tokens up to these, and no others, were
taken from the stream, once each and in order. -/
structure Stands (tokens : TokenStream) (ts : List Token) (steps : List Step) (place : Nat)
    (window : Window) : Prop where
  yields : (after tokens steps).Yields window
  current_eq : window.current = ts.getD place .endOfInput
  following_eq : window.following = ts.getD (place + 1) .endOfInput
  taken_eq : scannedTokens (after tokens steps).log
    = (List.range (place + 2)).map fun i => ts.getD i .endOfInput
  draws : tokens.Draws (scannedTokens (after tokens steps).log) window.tokens

theorem Stands.length_taken (h : Stands tokens ts steps place window) :
  (scannedTokens (after tokens steps).log).length = place + 2
  := by rw [h.taken_eq, List.length_map, List.length_range]

/-- The window stands at the place of the last but one of the tokens that were taken. -/
theorem exists_stands (hts : tokens.Holds ts fate) (h : (after tokens steps).Yields window) :
  ∃ place, Stands tokens ts steps place window
  := by
  obtain ⟨hdraws, passed, hpassed⟩ := taken_of_yields h
  have htaken := hdraws.eq_map_range hts
  have hlength : (scannedTokens (after tokens steps).log).length = passed.length + 2 := by
    rw [hpassed, List.length_append]
    rfl
  rw [hlength] at htaken
  have hview : ∀ i < passed.length + 2,
      (passed ++ [window.current, window.following])[i]? = some (ts.getD i .endOfInput) := by
    intro i hi
    rw [← hpassed, htaken, List.getElem?_map, List.getElem?_range hi]
    rfl
  use passed.length
  constructor
  · apply h
  · simpa using hview passed.length (by omega)
  · simpa using hview (passed.length + 1) (by omega)
  · apply htaken
  · apply hdraws

/-- A step goes on by as many places as it takes tokens. -/
theorem Stands.perform (hts : tokens.Holds ts fate) (h : Stands tokens ts steps place window)
    (step : Step) (hstep : (window.perform step).Yields next) :
  Stands tokens ts (steps ++ [step])
    (place + (scannedTokens (window.perform step).log).length) next
  := by
  have hafter : after tokens (steps ++ [step])
      = after tokens steps >>= fun w => w.perform step := by
    rw [after_append]
    congr 1
    funext w
    apply bind_pure
  have hnext : (after tokens (steps ++ [step])).Yields next := by
    rw [hafter]
    apply h.yields.bind hstep
  obtain ⟨place', hplace⟩ := exists_stands hts hnext
  -- How many tokens were taken decides the place.
  have hlength := hplace.length_taken
  rw [hafter, Run.log_bind h.yields, scannedTokens_append, List.length_append, h.length_taken]
    at hlength
  obtain rfl : place' = place + (scannedTokens (window.perform step).log).length := by omega
  apply hplace

theorem Stands.advance (hts : tokens.Holds ts fate) (h : Stands tokens ts steps place window)
    (hadvance : window.advance.Yields next) :
  Stands tokens ts (steps ++ [.advance]) (place + 1) next
  := by
  have hnext := h.perform hts .advance hadvance
  obtain ⟨token, rest, -, -, hlog⟩ := advance_eq hadvance
  rwa [Window.perform, hlog] at hnext

/-! ### After a program -/

/-- At the end there is no program left to be read. -/
theorem Shows.program_nil (h : window.Shows [] diagnostics fate) :
  window.program.Yields (.empty, window)
  := by
  have hend : window.current.isEnd := h.current_isEnd
  have hstatements : window.statements.Yields ([], window) := by
    rw [Window.statements, dif_pos hend]
    rfl
  apply hstatements.map

/-- A window at the end stays there. -/
theorem Shows.perform_nil (h : window.Shows [] diagnostics fate) (step : Step) :
  ∃ next, (window.perform step).Yields next ∧ ∃ fate', next.Shows [] diagnostics fate'
  := by
  cases step with
  | advance =>
    obtain ⟨next, hadvance, hnext⟩ := h.advance
    use next, hadvance, fate
    apply hnext
  | takeFailure =>
    use window.takeFailure.2, rfl
    apply h.takeFailure
  | program => use window, h.program_nil.map _, fate

theorem Shows.performAll_nil (h : window.Shows [] diagnostics fate) (steps : List Step) :
  ∃ next, (steps.foldlM Window.perform window).Yields next
    ∧ ∃ fate', next.Shows [] diagnostics fate'
  := by
  apply Run.exists_yields_foldlM
  · rintro middle step ⟨fate', hmiddle⟩
    apply hmiddle.perform_nil
  · use fate

/-- Once a program was read, there is none left. -/
theorem program_empty (hts : tokens.Holds ts fate) (hprogram : .program ∈ steps)
    (h : (after tokens steps).Yields window) :
  window.program.Yields (.empty, window)
  := by
  obtain ⟨before, more, rfl⟩ := List.append_of_mem hprogram
  obtain ⟨first, hfirst, hshows⟩ := shows_ofTokens hts
  obtain ⟨middle, ts', diagnostics', fate', hbefore, hmiddle⟩ := hshows.performAll before
  obtain ⟨segments, last, -, hread, hlast⟩ := hmiddle.program
  obtain ⟨next, hmore, fate'', hnext⟩ := hlast.performAll_nil more
  have hnext' : (after tokens (before ++ .program :: more)).Yields next := by
    rw [after_append]
    apply (hfirst.bind hbefore).bind
    apply (hread.map Prod.snd).bind hmore
  obtain rfl := h.unique hnext'
  apply hnext.program_nil

/-- Whatever was done with the window onto a token stream, it stands at a place of the tokens of
the stream. Moving on goes to the next place, taking the failure stays there, and reading the
program never goes back; the diagnostics are only added to at their end, and only by reading the
program. Once a program was read, the program that is read is empty and the window stays as it
is. -/
theorem stands_after (tokens : TokenStream) :
  ∃ ts last, tokens.toList.Yields (ts, last) ∧ ∀ steps, ∃ place window,
    Stands tokens ts steps place window
    ∧ (∃ next, Stands tokens ts (steps ++ [.advance]) (place + 1) next
        ∧ next.diagnostics = window.diagnostics)
    ∧ (∃ next, Stands tokens ts (steps ++ [.takeFailure]) place next
        ∧ next.diagnostics = window.diagnostics)
    ∧ (∃ later next, Stands tokens ts (steps ++ [.program]) later next ∧ place ≤ later
        ∧ window.diagnostics.toList <+: next.diagnostics.toList)
    ∧ (.program ∈ steps → window.program.Yields (.empty, window))
  := by
  obtain ⟨ts, last, fate, hts, hlist⟩ := tokens.exists_yields_toList
  use ts, last, hlist
  intro steps
  obtain ⟨first, hfirst, hshows⟩ := shows_ofTokens hts
  obtain ⟨window, ts', diagnostics, fate', hsteps, hwindow⟩ := hshows.performAll steps
  have hafter : (after tokens steps).Yields window := hfirst.bind hsteps
  obtain ⟨place, hplace⟩ := exists_stands hts hafter
  use place, window, hplace
  refine ⟨?_, ?_, ?_, fun hprogram => program_empty hts hprogram hafter⟩
  · obtain ⟨next, hadvance, -⟩ := hwindow.advance
    obtain ⟨token, rest, -, hnext, hlog⟩ := advance_eq hadvance
    use next, hplace.advance hts hadvance
    rw [hnext]
  · use window.takeFailure.2, hplace.perform hts .takeFailure rfl
    rfl
  · obtain ⟨segments, next, -, hread, hnext⟩ := hwindow.program
    use place + (scannedTokens (window.perform .program).log).length, next
    use hplace.perform hts .program (hread.map Prod.snd), Nat.le_add_right _ _
    rw [hnext.diagnostics_eq, hwindow.diagnostics_eq]
    apply List.prefix_append

end Window

end FrontEnd
