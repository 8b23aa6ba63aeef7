import FrontEnd.Proofs.Tree.Reaching

/-!
# Moving windows

Each operation on a window takes tokens from the stream behind it, one after the other, and lets
them pass through its view; the diagnostics are only added to, at their end. `window.MovesBy run
view` says so of a run. Moving on does this, and so does all that is reached by it (`Reaches.moves`).
-/

namespace FrontEnd

/-! ### Taking tokens from a stream -/

namespace TokenStream

/-- Taking these tokens one after the other leads from one stream to the other, with the failure
of the source taken at any time. -/
inductive Draws : TokenStream → List Token → TokenStream → Prop where
  | refl (stream : TokenStream) : Draws stream [] stream
  | next {stream rest last : TokenStream} {token : Token} {drawn : List Token}
      (h : stream.next.Yields (token, rest)) (hrest : Draws rest drawn last) :
      Draws stream (token :: drawn) last
  | takeFailure {stream last : TokenStream} {drawn : List Token}
      (h : Draws stream.takeFailure.2 drawn last) : Draws stream drawn last

variable {stream middle last : TokenStream} {drawn drawn' : List Token}

theorem Draws.trans (h : stream.Draws drawn middle) (h' : middle.Draws drawn' last) :
  stream.Draws (drawn ++ drawn') last
  := by
  induction h with
  | refl => apply h'
  | next hnext _ ih => apply Draws.next hnext (ih h')
  | takeFailure _ ih => apply Draws.takeFailure (ih h')

end TokenStream

namespace Window

/-! ### What an operation does to a window -/

/-- What comes of a window when these records are left: the tokens that were taken passed through
its view, and the diagnostics were added to at their end. -/
structure Moves (window : Window) (log : List Record) (next : Window) : Prop where
  draws : window.tokens.Draws (scannedTokens log) next.tokens
  passes : ∃ passed, window.current :: window.following :: scannedTokens log
    = passed ++ [next.current, next.following]
  diagnostics : window.diagnostics.toList <+: next.diagnostics.toList

variable {window middle next : Window} {log log' : List Record}

/-- What takes no token leaves the view. -/
theorem moves_of_still (hlog : scannedTokens log = [])
    (hdraws : window.tokens.Draws [] next.tokens) (hcurrent : next.current = window.current)
    (hfollowing : next.following = window.following)
    (hdiagnostics : window.diagnostics.toList <+: next.diagnostics.toList) :
  window.Moves log next
  := by
  constructor
  · rwa [hlog]
  · use []
    rw [hlog, hcurrent, hfollowing]
    rfl
  · apply hdiagnostics

theorem Moves.refl (window : Window) :
  window.Moves [] window
  := moves_of_still rfl (.refl _) rfl rfl (List.prefix_refl _)

theorem Moves.trans (h : window.Moves log middle) (h' : middle.Moves log' next) :
  window.Moves (log ++ log') next
  := by
  constructor
  · rw [scannedTokens_append]
    apply h.draws.trans h'.draws
  · obtain ⟨passed, hpassed⟩ := h.passes
    obtain ⟨passed', hpassed'⟩ := h'.passes
    use passed ++ passed'
    calc window.current :: window.following :: scannedTokens (log ++ log')
      _ = (window.current :: window.following :: scannedTokens log) ++ scannedTokens log' := by
          rw [scannedTokens_append, List.cons_append, List.cons_append]
      _ = passed ++ (middle.current :: middle.following :: scannedTokens log') := by
          rw [hpassed, List.append_assoc]
          rfl
      _ = passed ++ passed' ++ [next.current, next.following] := by
          rw [hpassed', List.append_assoc]
  · apply h.diagnostics.trans h'.diagnostics

/-- The run moves the window to the one that is found in its value. -/
structure MovesBy {α : Type} (window : Window) (run : Run α) (view : α → Window) : Prop where
  ensures : run.Ensures fun a log => window.Moves log (view a)

section Runs

variable {α β : Type} {run : Run α} {view : α → Window} {view' : β → Window}

theorem movesBy_pure {a : α} (h : window.Moves [] (view a)) :
  window.MovesBy (pure a) view
  := ⟨Run.ensures_pure h⟩

theorem MovesBy.bind {next : α → Run β} (h : window.MovesBy run view)
    (hnext : ∀ a, (view a).MovesBy (next a) view') :
  window.MovesBy (run >>= next) view'
  := by
  constructor
  apply h.ensures.bind
  intro a log ha
  apply (hnext a).ensures.mono
  intro b log' hb
  apply ha.trans hb

theorem MovesBy.map {f : β → α} {run : Run β} (h : window.MovesBy run fun b => view (f b)) :
  window.MovesBy (f <$> run) view
  := by
  constructor
  apply h.ensures.map

end Runs

/-! ### Operations -/

/-- Moving on takes one token from the stream. -/
theorem advance_eq (h : window.advance.Yields next) :
  ∃ token tokens, window.tokens.next.Yields (token, tokens)
    ∧ next = { window with tokens := tokens, current := window.following, following := token }
    ∧ scannedTokens window.advance.log = [token]
  := by
  obtain ⟨⟨token, tokens⟩, hnext, hpure⟩ := Run.yields_bind.mp h
  use token, tokens, hnext, (Run.yields_pure.mp hpure).symm
  rw [advance, Run.log_bind hnext, scannedTokens_append, TokenStream.scannedTokens_next hnext]
  rfl

theorem moves_advance (h : window.advance.Yields next) :
  window.Moves window.advance.log next
  := by
  obtain ⟨token, tokens, hnext, rfl, hlog⟩ := advance_eq h
  constructor
  · rw [hlog]
    apply TokenStream.Draws.next hnext (.refl tokens)
  · use [window.current]
    rw [hlog]
    rfl
  · apply List.prefix_refl

/-- A record that tells of no token leaves the window. -/
theorem moves_record {record : Record} (h : record.scanned? = none) (window : Window) :
  window.Moves [record] window
  := by
  have hlog : scannedTokens [record] = [] := by simp [scannedTokens, h]
  exact moves_of_still hlog (.refl _) rfl rfl (List.prefix_refl _)

/-- Dropping a statement adds a diagnostic. -/
theorem moves_drop (window : Window) (diagnostic : Diagnostic) :
  window.Moves [.dropped diagnostic]
    { window with diagnostics := window.diagnostics.push diagnostic }
  := by
  have hprefix : window.diagnostics.toList <+: (window.diagnostics.push diagnostic).toList := by
    simp
  exact moves_of_still rfl (.refl _) rfl rfl hprefix

/-- A window that is reached was moved. -/
theorem Reaches.moves (h : window.Reaches log next) :
  window.Moves log next
  := by
  induction h with
  | refl window => apply Moves.refl
  | advance hadvance _ ih => apply (moves_advance hadvance).trans ih
  | drop _ ih => exact (moves_drop _ _).trans ih
  | record htoken _ _ ih => exact (moves_record htoken _).trans ih

theorem movesBy_of_reachesBy {α : Type} {run : Run α} {view : α → Window}
    (h : window.ReachesBy run view) :
  window.MovesBy run view
  := by
  constructor
  apply h.ensures.mono
  intro a log hreaches
  apply hreaches.moves

end Window

end FrontEnd
