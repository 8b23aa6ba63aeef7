import FrontEnd.Proofs.Permanence
import FrontEnd.Proofs.Tree.Reaching

/-!
# Reading a source step by step

A reader begins with a source and answers to steps. Some of its steps take the failure that ended
the source; the others read from the characters of the source, and whether a failure was taken
makes no difference to what they answer. Token streams are read in this way, and so are windows.
-/

namespace FrontEnd

/-- A way of reading a source step by step. -/
structure Reader (σ ι α : Type) where
  start : Source → Run σ
  /-- The answer to a step and the state after it. -/
  respond : σ → ι → Run (α × σ)
  /-- The characters that are read from. -/
  chars : σ → CharStream
  /-- Whether a step takes the failure that ended the source. -/
  isTaking : ι → Bool
  /-- The answer to a step that takes the failure. -/
  taken : Option Failure → α
  /-- Whether an answer tells that the end was reached. -/
  isEnd : α → Bool
  /-- The states differ at most in the failure that is there to be taken. -/
  Alike : σ → σ → Prop
  start_reaches : ∀ source,
    (CharStream.ofSource source CharStream.defaultCapacity).ReachesBy (start source) chars
  start_alike : ∀ source, ∃ first, (start source).Yields first ∧ Alike first first
  respond_taking : ∀ s s' step, isTaking step → Alike s s' →
    ∃ next, respond s step = pure (taken (chars s).failure, next)
      ∧ chars next = (chars s).takeFailure.2 ∧ Alike next s'
  respond_reaches : ∀ s step, isTaking step = false →
    (chars s).ReachesBy (respond s step) fun answer => chars answer.2
  respond_alike : ∀ s s' step, isTaking step = false → Alike s s' →
    ∃ answer next next', (respond s step).Yields (answer, next)
      ∧ (respond s' step).Yields (answer, next') ∧ Alike next next'
      ∧ (isEnd answer → (chars next).exhausted)
  isEnd_taken : ∀ failure?, isEnd (taken failure?) = false

namespace Reader

variable {σ ι α : Type} {reader : Reader σ ι α} {source : Source} {steps : List ι} {step : ι}
  {transcript : List (ι × α)} {s next : σ} {answer : α}

/-- The transcript of these steps, and the state that they lead to. -/
def after (reader : Reader σ ι α) (source : Source) (steps : List ι) :
    Run (List (ι × α) × σ) :=
  reader.start source >>= Run.session reader.respond steps

/-- The steps without those that take the failure. -/
def untaken (reader : Reader σ ι α) (steps : List ι) : List ι :=
  steps.filter fun step => !reader.isTaking step

/-- One more step. -/
theorem after_concat (h : (reader.after source steps).Yields (transcript, s))
    (hstep : (reader.respond s step).Yields (answer, next)) :
  (reader.after source (steps ++ [step])).Yields (transcript ++ [(step, answer)], next)
    ∧ (reader.after source (steps ++ [step])).log
        = (reader.after source steps).log ++ (reader.respond s step).log
  := by
  obtain ⟨first, hfirst, hsession⟩ := Run.yields_bind.mp h
  obtain ⟨hyields, hlog⟩ := hsession.session_concat hstep
  use hfirst.bind hyields
  rw [after, Run.log_bind hfirst, hlog, after, Run.log_bind hfirst, List.append_assoc]

end Reader

/-! ### Token streams -/

namespace TokenStream

/-- Whether a step takes the failure that ended the source. -/
def Step.isTaking : Step → Bool
  | takeFailure => true
  | _ => false

/-- The streams hold the same tokens. -/
def Alike (stream stream' : TokenStream) : Prop :=
  ∃ ts fate fate', stream.Holds ts fate ∧ stream'.Holds ts fate'

variable {stream stream' : TokenStream} {step : Step}

theorem reachesBy_respond (stream : TokenStream) (hstep : step.isTaking = false) :
  stream.chars.ReachesBy (stream.respond step) fun answer => answer.2.chars
  := by
  cases step with
  | next =>
    apply Passage.Leads.map
    apply stream.reachesBy_next
  | next? =>
    apply Passage.Leads.map
    apply stream.reachesBy_next?
  | takeFailure => contradiction

/-- Streams that hold the same tokens answer alike. -/
theorem Alike.respond (h : stream.Alike stream') (hstep : step.isTaking = false) :
  ∃ answer next next', (stream.respond step).Yields (answer, next)
    ∧ (stream'.respond step).Yields (answer, next') ∧ next.Alike next'
  := by
  obtain ⟨ts, fate, fate', hts, hts'⟩ := h
  obtain ⟨next, hnext, hholds, -⟩ := hts.next
  obtain ⟨next', hnext', hholds', -⟩ := hts'.next
  have halike : next.Alike next' := ⟨ts.tail, fate, fate', hholds, hholds'⟩
  cases step with
  | next => use .token (ts.headD .endOfInput), next, next', hnext.map _, hnext'.map _
  | next? =>
    use .token? (if (ts.headD .endOfInput).isEnd then none else some (ts.headD .endOfInput))
    use next, next', (yields_next? hnext).map _, (yields_next? hnext').map _
  | takeFailure => contradiction

/-- Reading a source token by token. -/
def reader : Reader TokenStream Step Answer where
  start source := pure (ofSource source)
  respond := respond
  chars := TokenStream.chars
  isTaking := Step.isTaking
  taken := .failure
  isEnd := Answer.isEnd
  Alike := Alike
  start_reaches source := Passage.leads_done rfl
  start_alike source := by
    obtain ⟨ts, fate, hts⟩ := (ofSource source).exists_holds
    use ofSource source, rfl, ts, fate, fate
  respond_taking stream stream' step hstep halike := by
    obtain ⟨ts, fate, fate', hts, hts'⟩ := halike
    cases step with
    | takeFailure =>
      use stream.takeFailure.2, rfl, rfl
      exact ⟨ts, _, fate', hts.takeFailure, hts'⟩
    | _ => contradiction
  respond_reaches stream step hstep := stream.reachesBy_respond hstep
  respond_alike stream stream' step hstep halike := by
    obtain ⟨answer, next, next', hnext, hnext', halike⟩ := halike.respond hstep
    use answer, next, next', hnext, hnext', halike
    intro hend
    apply (ended_of_respond hnext hend).exhausted
  isEnd_taken _ := rfl

end TokenStream

/-! ### Windows -/

namespace Window

/-- What a window answers to a step. -/
inductive Answer where
  /-- The tokens in view. -/
  | view (current following : Token)
  /-- A program, and the diagnostics that were left so far. -/
  | program (program : Program) (diagnostics : Array Diagnostic)
  /-- The failure that ended the source, unless there is none to take. -/
  | failure (failure? : Option Failure)
  deriving DecidableEq, Repr

/-- Whether an answer tells that the end was reached. -/
def Answer.isEnd : Answer → Bool
  | .view _ following => following.isEnd
  | .program _ _ => true
  | .failure _ => false

/-- Whether a step takes the failure that ended the source. -/
def Step.isTaking : Step → Bool
  | takeFailure => true
  | _ => false

/-- The answer to a step and the window after it. -/
def respond (window : Window) : Step → Run (Answer × Window)
  | .advance => (fun next => (.view next.current next.following, next)) <$> window.advance
  | .takeFailure => pure (.failure window.takeFailure.1, window.takeFailure.2)
  | .program => (fun (program, next) => (.program program next.diagnostics, next)) <$> window.program

/-- The windows show the same tokens, and the same diagnostics were left. -/
def Alike (window window' : Window) : Prop :=
  ∃ ts diagnostics fate fate', window.Shows ts diagnostics fate ∧ window'.Shows ts diagnostics fate'

variable {window window' : Window} {step : Step} {ts : List Token} {diagnostics : List Diagnostic}
  {fate : Option Failure}

theorem reachesBy_respond (window : Window) (hstep : step.isTaking = false) :
  window.tokens.chars.ReachesBy (window.respond step) fun answer => answer.2.tokens.chars
  := by
  cases step with
  | advance =>
    apply Passage.Leads.map
    apply window.reachesBy_advance_chars
  | takeFailure => contradiction
  | program =>
    apply Passage.Leads.map
    apply window.reachesBy_program_chars

/-- Where the end follows, the source has come to its end. -/
theorem Shows.exhausted_of_isEnd (h : window.Shows ts diagnostics fate)
    (hend : window.following.isEnd) :
  window.tokens.chars.exhausted
  := by
  have htail : ts.tail = [] := by
    rw [h.following_eq] at hend
    cases htail : ts.tail with
    | nil => rfl
    | cons token rest =>
      have hmem : token ∈ ts := List.mem_of_mem_tail (htail ▸ List.mem_cons_self)
      simp [htail, h.isEnd_eq token hmem] at hend
  apply (h.ended htail).ended.exhausted

/-- Windows that show the same answer alike. -/
theorem Alike.respond (h : window.Alike window') (hstep : step.isTaking = false) :
  ∃ answer next next', (window.respond step).Yields (answer, next)
    ∧ (window'.respond step).Yields (answer, next') ∧ next.Alike next'
    ∧ (answer.isEnd → next.tokens.chars.exhausted)
  := by
  obtain ⟨ts, diagnostics, fate, fate', hts, hts'⟩ := h
  cases step with
  | advance =>
    obtain ⟨next, hnext, hshows⟩ := hts.advance
    obtain ⟨next', hnext', hshows'⟩ := hts'.advance
    have hcurrent : next'.current = next.current := by rw [hshows'.current_eq, hshows.current_eq]
    have hfollowing : next'.following = next.following := by
      rw [hshows'.following_eq, hshows.following_eq]
    use .view next.current next.following, next, next', hnext.map _
    refine ⟨?_, ⟨_, _, _, _, hshows, hshows'⟩, hshows.exhausted_of_isEnd⟩
    rw [← hcurrent, ← hfollowing]
    apply hnext'.map
  | takeFailure => contradiction
  | program =>
    obtain ⟨segments, last, hsegments, hprogram, hshows⟩ := hts.program
    obtain ⟨segments', last', hsegments', hprogram', hshows'⟩ := hts'.program
    obtain rfl := hsegments.unique hsegments'
    have hdiagnostics : last'.diagnostics = last.diagnostics := by
      apply Array.toList_inj.mp
      rw [hshows'.diagnostics_eq, hshows.diagnostics_eq]
    use .program ⟨segments.filterMap Segment.statement?⟩ last.diagnostics, last, last'
    use hprogram.map _
    refine ⟨?_, ⟨_, _, _, _, hshows, hshows'⟩, fun _ => (hshows.ended rfl).ended.exhausted⟩
    rw [← hdiagnostics]
    apply hprogram'.map _

/-- Reading a source by moving a window on and by reading programs. -/
def reader : Reader Window Step Answer where
  start := ofSource
  respond := respond
  chars window := window.tokens.chars
  isTaking := Step.isTaking
  taken := .failure
  isEnd := Answer.isEnd
  Alike := Alike
  start_reaches source := reachesBy_ofTokens (.ofSource source)
  start_alike source := by
    obtain ⟨ts, fate, hts⟩ := (TokenStream.ofSource source).exists_holds
    obtain ⟨first, hfirst, hshows⟩ := shows_ofTokens hts
    use first, hfirst, ts, [], fate, fate
  respond_taking window window' step hstep halike := by
    obtain ⟨ts, diagnostics, fate, fate', hts, hts'⟩ := halike
    cases step with
    | takeFailure =>
      obtain ⟨fate'', hshows⟩ := hts.takeFailure
      use window.takeFailure.2, rfl, rfl
      exact ⟨ts, diagnostics, fate'', fate', hshows, hts'⟩
    | _ => contradiction
  respond_reaches window step hstep := window.reachesBy_respond hstep
  respond_alike window window' step hstep halike := halike.respond hstep
  isEnd_taken _ := rfl

end Window

end FrontEnd
