import FrontEnd.Proofs.Tree.Viewing

/-!
# Programs from any window

A window onto any token stream can be moved on, asked for the failure of its source, and read
to the end, in any order. Whatever was done with it, it shows some tokens, and the program that
is read next is that of the segments of these tokens (`program_segments`).
-/

namespace FrontEnd

namespace CharStream

/-- Taking the failure leaves the characters. -/
theorem Gives.takeFailure {stream : CharStream} {cs : List Char} {fate : Option Failure}
    (h : stream.Gives cs fate) :
  stream.takeFailure.2.Gives cs stream.takeFailure.2.fate
  := ⟨h.text_eq, rfl⟩

end CharStream

namespace TokenStream

variable {stream : TokenStream} {ts : List Token} {fate : Option Failure}

/-- Taking the failure leaves the tokens. -/
theorem Holds.takeFailure (h : stream.Holds ts fate) :
  stream.takeFailure.2.Holds ts stream.takeFailure.2.chars.fate
  := by
  obtain ⟨cs, tiles, hgives, htiles, htokens⟩ := h
  exact ⟨cs, tiles, CharStream.Gives.takeFailure hgives, htiles, htokens⟩

theorem Ended.takeFailure (h : stream.Ended fate) :
  stream.takeFailure.2.Ended stream.takeFailure.2.chars.fate
  := ⟨CharStream.Gives.takeFailure h.gives, ⟨h.ended.exhausted, h.ended.pending⟩⟩

end TokenStream

namespace Window

/-- Something that can be done with a window. -/
inductive Step where
  /-- Move it on. -/
  | advance
  /-- Take the failure that ended the source. -/
  | takeFailure
  /-- Read the program. -/
  | program

/-- The window after a step. -/
def perform (window : Window) : Step → Run Window
  | .advance => window.advance
  | .takeFailure => pure window.takeFailure.2
  | .program => Prod.snd <$> window.program

/-- The tokens from the one under view to the end, found by moving on. -/
def remaining (window : Window) : Run (List Token) :=
  if hend : window.current.isEnd then pure []
  else do
    let ⟨next, h⟩ ← window.advance.attach
    have := (weight_of_advance h).2 (by simpa using hend)
    (fun tokens => window.current :: tokens) <$> remaining next
termination_by window.weight

variable {window : Window} {ts : List Token} {diagnostics : List Diagnostic}
  {fate : Option Failure}

/-- What remains are the tokens that the window shows. -/
theorem Shows.remaining (h : window.Shows ts diagnostics fate) :
  window.remaining.Yields ts
  := by
  induction ts generalizing window with
  | nil =>
    have hend : window.current.isEnd := h.current_isEnd
    rw [Window.remaining, dif_pos hend]
    rfl
  | cons token ts ih =>
    have hend : window.current.isEnd = false := h.current_isEnd
    have hcurrent : window.current = token := h.current_eq
    obtain ⟨next, hadvance, hnext⟩ := h.advance
    rw [Window.remaining, dif_neg (by simp [hend]), ← hcurrent]
    apply hadvance.attach_bind
    apply (ih hnext).map

theorem Shows.takeFailure (h : window.Shows ts diagnostics fate) :
  ∃ fate', window.takeFailure.2.Shows ts diagnostics fate'
  := by
  use window.takeFailure.2.tokens.chars.fate
  constructor
  · apply h.current_eq
  · apply h.following_eq
  · apply h.behind.takeFailure
  · intro htail
    apply (h.ended htail).takeFailure
  · apply h.isEnd_eq
  · apply h.diagnostics_eq

/-- A window that shows tokens still shows tokens after a step. -/
theorem Shows.perform (h : window.Shows ts diagnostics fate) (step : Step) :
  ∃ next, (window.perform step).Yields next
    ∧ ∃ ts' diagnostics' fate', next.Shows ts' diagnostics' fate'
  := by
  cases step with
  | advance =>
    obtain ⟨next, hadvance, hnext⟩ := h.advance
    use next, hadvance, ts.tail, diagnostics, fate
  | takeFailure =>
    use window.takeFailure.2, rfl, ts, diagnostics
    apply h.takeFailure
  | program =>
    obtain ⟨segments, last, -, hprogram, hlast⟩ := h.program
    use last, hprogram.map _, [], diagnostics ++ segments.filterMap Segment.diagnostic?, fate

/-- A window that shows tokens still shows tokens after any steps. -/
theorem Shows.performAll (h : window.Shows ts diagnostics fate) (steps : List Step) :
  ∃ next ts' diagnostics' fate',
    (steps.foldlM Window.perform window).Yields next ∧ next.Shows ts' diagnostics' fate'
  := by
  have hsteps : ∃ next, (steps.foldlM Window.perform window).Yields next
      ∧ ∃ ts' diagnostics' fate', next.Shows ts' diagnostics' fate' := by
    apply Run.exists_yields_foldlM
    · rintro middle step ⟨_, _, _, hmiddle⟩
      apply hmiddle.perform
    · use ts, diagnostics, fate
  obtain ⟨next, hyields, ts', diagnostics', fate', hnext⟩ := hsteps
  use next, ts', diagnostics', fate', hyields

/-- Whatever was done with the window onto a token stream, the tokens that remain have one split
into segments. Reading the program gives the statements of the segments, leaves their
diagnostics after the earlier ones, and comes to the end. -/
theorem program_segments (tokens : TokenStream) (steps : List Step) :
  ∃ window ts segments last,
    (ofTokens tokens >>= steps.foldlM perform).Yields window
    ∧ window.remaining.Yields ts
    ∧ Segments ts segments ∧ (∀ other, Segments ts other → other = segments)
    ∧ segments.flatMap Segment.tokens = ts
    ∧ window.program.Yields (⟨segments.filterMap Segment.statement?⟩, last)
    ∧ last.diagnostics.toList
        = window.diagnostics.toList ++ segments.filterMap Segment.diagnostic?
    ∧ last.current.isEnd
  := by
  obtain ⟨ts, fate, hholds⟩ := tokens.exists_holds
  obtain ⟨first, hfirst, hshows⟩ := shows_ofTokens hholds
  obtain ⟨window, ts, diagnostics, fate, hwindow, hshows⟩ := hshows.performAll steps
  obtain ⟨segments, last, hsegments, hprogram, hlast⟩ := hshows.program
  use window, ts, segments, last, hfirst.bind hwindow, hshows.remaining, hsegments
  refine ⟨?_, hsegments.flatMap_tokens, hprogram, ?_, hlast.current_isEnd⟩
  · intro other h
    apply h.unique hsegments
  · rw [hlast.diagnostics_eq, hshows.diagnostics_eq]

end Window

end FrontEnd
