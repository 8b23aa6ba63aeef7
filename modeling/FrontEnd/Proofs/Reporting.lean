import FrontEnd.Proofs.Readers
import Mathlib.Data.List.Induction

/-!
# Failures are reported once

Whatever is done with a reader, its source fails once at most, and is not called again then. The
failure is logged when it comes, and it is answered to the first step that asks for it afterwards and
to no other one; disturbances are neither logged nor answered. Asking for it changes nothing else
(`failure_reported_once`). Each step keeps the account of this (`Past.step_taking`,
`Past.step_reading`), so any steps do (`exists_past`).
-/

namespace FrontEnd

open Source

namespace Reader

variable {σ ι α : Type} {reader : Reader σ ι α} {source : Source} {steps : List ι} {step : ι}
  {transcript : List (ι × α)} {heard : List Source.Answer} {s s' : σ}
  {received received' : List Failure} {failure : Failure}

/-! ### What was received -/

/-- In the course of these steps the source came to these failures. -/
def Receives (reader : Reader σ ι α) (source : Source) (steps : List ι)
    (received : List Failure) : Prop :=
  ∃ transcript last heard, (reader.after source steps).Yields (transcript, last)
    ∧ source.Answers CharStream.defaultCapacity heard (reader.chars last).bytes.source
    ∧ failures heard = received

/-- The failure came in the course of these steps, and whenever it was asked for, it had not come
yet. -/
def Owes (reader : Reader σ ι α) (source : Source) (steps : List ι) (failure : Failure) : Prop :=
  reader.Receives source steps [failure]
    ∧ ∀ before step later, steps = before ++ step :: later → reader.isTaking step →
      reader.Receives source before []

theorem Receives.unique (h : reader.Receives source steps received)
    (h' : reader.Receives source steps received') :
  received = received'
  := by
  obtain ⟨transcript, last, heard, hyields, hanswers, rfl⟩ := h
  obtain ⟨transcript', last', heard', hyields', hanswers', rfl⟩ := h'
  obtain ⟨-, rfl⟩ := Prod.mk.inj (hyields.unique hyields')
  rw [hanswers.unique hanswers']

/-- A step in the middle of steps, of which the last one is another. -/
theorem exists_of_concat {steps before later : List ι} {step last : ι}
    (h : steps ++ [last] = before ++ step :: later) (hne : reader.isTaking last = false)
    (htaking : reader.isTaking step) :
  ∃ later', steps = before ++ step :: later'
  := by
  rcases List.eq_nil_or_concat later with rfl | ⟨later', last', rfl⟩
  · obtain ⟨-, hlast⟩ := List.append_inj' h rfl
    obtain rfl := List.singleton_inj.mp hlast
    simp [hne] at htaking
  · rw [List.concat_eq_append, ← List.cons_append, ← List.append_assoc] at h
    use later'
    apply (List.append_inj' h rfl).1

/-- Nothing is owed once it was asked for. -/
theorem not_owes_taking (htaking : reader.isTaking step)
    (h : reader.Receives source steps received)
    (h' : reader.Receives source (steps ++ [step]) received) :
  ¬ reader.Owes source (steps ++ [step]) failure
  := by
  rintro ⟨hreceived, hasked⟩
  obtain rfl := h.unique (hasked steps step [] rfl htaking)
  simpa using h'.unique hreceived

/-- A step in the course of which no failure comes leaves what is owed. -/
theorem owes_concat (hstep : reader.isTaking step = false)
    (h : reader.Receives source steps received)
    (h' : reader.Receives source (steps ++ [step]) received) :
  reader.Owes source (steps ++ [step]) failure ↔ reader.Owes source steps failure
  := by
  constructor
  · rintro ⟨hreceived, hasked⟩
    obtain rfl := h'.unique hreceived
    use h
    intro before taking later hsteps
    apply hasked before taking (later ++ [step])
    rw [hsteps, List.append_assoc, List.cons_append]
  · rintro ⟨hreceived, hasked⟩
    obtain rfl := h.unique hreceived
    use h'
    intro before taking later hsteps htaking
    obtain ⟨later', hlater⟩ := exists_of_concat hsteps hstep htaking
    apply hasked before taking later' hlater htaking

/-- A failure that comes in the course of a step is owed after it. -/
theorem owes_received {failure' : Failure} (hstep : reader.isTaking step = false)
    (h : ∀ before, before <+: steps → reader.Receives source before [])
    (h' : reader.Receives source (steps ++ [step]) [failure']) :
  reader.Owes source (steps ++ [step]) failure ↔ failure' = failure
  := by
  constructor
  · rintro ⟨hreceived, -⟩
    apply List.singleton_inj.mp (h'.unique hreceived)
  · rintro rfl
    use h'
    intro before taking later hsteps htaking
    obtain ⟨later', rfl⟩ := exists_of_concat hsteps hstep htaking
    apply h before (List.prefix_append _ _)

/-! ### The account of a session -/

/-- What is known of a session, and of the one without the steps that ask for the failure. -/
structure Past (reader : Reader σ ι α) (source : Source) (steps : List ι)
    (transcript : List (ι × α)) (heard : List Source.Answer) (s s' : σ) : Prop where
  yields : (reader.after source steps).Yields (transcript, s)
  capacity_eq : (reader.chars s).bytes.capacity = CharStream.defaultCapacity
  answers : source.Answers CharStream.defaultCapacity heard (reader.chars s).bytes.source
  ending : Ending false heard (reader.chars s).exhausted
  logged : Threshold.filter (some .error) (reader.after source steps).log
    = (failures heard).map .sourceFailed
  earlier : ∀ before, before <+: steps →
    ∃ received, reader.Receives source before received ∧ received <+: failures heard
  owed : ∀ failure, (reader.chars s).failure = some failure ↔ reader.Owes source steps failure
  ended : ∀ entry ∈ transcript, reader.isEnd entry.2 → (reader.chars s).exhausted
  without : (reader.after source (reader.untaken steps)).Yields
    (transcript.filter fun entry => !reader.isTaking entry.1, s')
  alike : reader.Alike s s'

theorem Past.receives (h : reader.Past source steps transcript heard s s') :
  reader.Receives source steps (failures heard)
  := ⟨transcript, s, heard, h.yields, h.answers, rfl⟩

/-- Nothing was done yet. -/
theorem past_start (reader : Reader σ ι α) (source : Source) :
  ∃ heard s, reader.Past source [] [] heard s s
  := by
  obtain ⟨first, hfirst, halike⟩ := reader.start_alike source
  obtain ⟨heard, hcalls⟩ := ((reader.start_reaches source).goes hfirst).calls
  have hyields : (reader.after source []).Yields ([], first) := hfirst.bind rfl
  have hlog : (reader.after source []).log = (reader.start source).log := by
    rw [after, Run.log_bind hfirst]
    apply List.append_nil
  have hreceives : reader.Receives source [] (failures heard) :=
    ⟨[], first, heard, hyields, hcalls.calls, rfl⟩
  use heard, first
  constructor
  · apply hyields
  · apply hcalls.capacity_eq
  · apply hcalls.calls
  · apply hcalls.ending
  · rw [hlog, hcalls.logged]
  · intro before hbefore
    obtain rfl := List.prefix_nil.mp hbefore
    exact ⟨failures heard, hreceives, List.prefix_refl _⟩
  · intro failure
    apply Iff.trans (hcalls.ending.failure_iff hcalls.failure_eq)
    constructor
    · intro hreceived
      use hreceived ▸ hreceives
      simp
    · rintro ⟨hreceived, -⟩
      apply hreceives.unique hreceived
  · simp
  · apply hyields
  · apply halike

/-- Asking for the failure takes it. -/
theorem Past.step_taking (h : reader.Past source steps transcript heard s s')
    (hstep : reader.isTaking step) :
  ∃ next, (reader.respond s step).Yields (reader.taken (reader.chars s).failure, next)
    ∧ reader.Past source (steps ++ [step])
      (transcript ++ [(step, reader.taken (reader.chars s).failure)]) heard next s'
  := by
  obtain ⟨next, hrespond, hchars, halike⟩ := reader.respond_taking s s' step hstep h.alike
  have hanswer : (reader.respond s step).Yields (reader.taken (reader.chars s).failure, next) := by
    rw [hrespond]
    rfl
  obtain ⟨hyields, hlog⟩ := after_concat h.yields hanswer
  have hanswers : source.Answers CharStream.defaultCapacity heard
      (reader.chars next).bytes.source := by
    rw [hchars]
    apply h.answers
  have hreceives : reader.Receives source (steps ++ [step]) (failures heard) :=
    ⟨_, next, heard, hyields, hanswers, rfl⟩
  use next, hanswer
  constructor
  · apply hyields
  · rw [hchars]
    apply h.capacity_eq
  · apply hanswers
  · rw [hchars]
    apply h.ending
  · rw [hlog, hrespond, ← h.logged]
    apply congrArg _ (List.append_nil _)
  · intro before hbefore
    rcases List.prefix_concat_iff.mp hbefore with rfl | hbefore
    · exact ⟨failures heard, hreceives, List.prefix_refl _⟩
    · apply h.earlier before hbefore
  · intro failure
    have hnone : (reader.chars next).failure = none := by
      rw [hchars]
      rfl
    simp [hnone, not_owes_taking hstep h.receives hreceives]
  · intro entry hmem hend
    rw [hchars]
    rcases List.mem_append.mp hmem with hmem | hmem
    · apply h.ended entry hmem hend
    · obtain rfl := List.mem_singleton.mp hmem
      simp [reader.isEnd_taken] at hend
  · simpa [untaken, hstep] using h.without
  · apply halike

/-- What is owed after a step that goes on reading. -/
theorem Past.owed_reading {more : List Source.Answer} {log : List Record} {next : σ}
    (h : reader.Past source steps transcript heard s s') (hstep : reader.isTaking step = false)
    (hcalls : (reader.chars s).Calls more log (reader.chars next))
    (hreceives : reader.Receives source (steps ++ [step]) (failures (heard ++ more))) :
  ∀ failure, (reader.chars next).failure = some failure
    ↔ reader.Owes source (steps ++ [step]) failure
  := by
  intro failure
  rw [failures_append] at hreceives
  rw [hcalls.failure_eq]
  cases hmore : failures more with
  | nil =>
    rw [hmore, List.append_nil] at hreceives
    exact (h.owed failure).trans (owes_concat hstep h.receives hreceives).symm
  | cons failure' rest =>
    have hmem : failure' ∈ failures more := hmore ▸ List.mem_cons_self
    have hnone := h.ending.failures_eq_nil hcalls.ending hmem
    have honly := (hcalls.ending.eq_of_mem hmem).1
    rw [hnone, honly, List.nil_append] at hreceives
    rw [← hmore, honly]
    have hearlier : ∀ before, before <+: steps → reader.Receives source before [] := by
      intro before hbefore
      obtain ⟨received, hreceived, hprefix⟩ := h.earlier before hbefore
      rw [hnone] at hprefix
      rwa [List.prefix_nil.mp hprefix] at hreceived
    rw [owes_received hstep hearlier hreceives]
    simp

/-- Any other step goes on reading. -/
theorem Past.step_reading (h : reader.Past source steps transcript heard s s')
    (hstep : reader.isTaking step = false) :
  ∃ answer more next next', reader.Past source (steps ++ [step]) (transcript ++ [(step, answer)])
    (heard ++ more) next next'
  := by
  obtain ⟨answer, next, next', hanswer, hanswer', halike, hend⟩ :=
    reader.respond_alike s s' step hstep h.alike
  obtain ⟨hyields, hlog⟩ := after_concat h.yields hanswer
  obtain ⟨hyields', -⟩ := after_concat h.without hanswer'
  obtain ⟨more, hcalls⟩ := ((reader.respond_reaches s step hstep).goes hanswer).calls
  have hanswers : source.Answers CharStream.defaultCapacity (heard ++ more)
      (reader.chars next).bytes.source := by
    apply h.answers.trans
    rw [← h.capacity_eq]
    apply hcalls.calls
  have hreceives : reader.Receives source (steps ++ [step]) (failures (heard ++ more)) :=
    ⟨_, next, _, hyields, hanswers, rfl⟩
  use answer, more, next, next'
  constructor
  · apply hyields
  · rw [hcalls.capacity_eq, h.capacity_eq]
  · apply hanswers
  · apply h.ending.trans hcalls.ending
  · rw [hlog, Threshold.filter_append, h.logged, hcalls.logged, failures_append, List.map_append]
  · intro before hbefore
    rcases List.prefix_concat_iff.mp hbefore with rfl | hbefore
    · exact ⟨failures (heard ++ more), hreceives, List.prefix_refl _⟩
    · obtain ⟨received, hreceived, hprefix⟩ := h.earlier before hbefore
      use received, hreceived
      rw [failures_append]
      apply hprefix.trans (List.prefix_append _ _)
  · apply h.owed_reading hstep hcalls hreceives
  · intro entry hmem hentry
    rcases List.mem_append.mp hmem with hmem | hmem
    · have hexhausted := h.ended entry hmem hentry
      apply (hcalls.eq_of_exhausted hexhausted).2.2
    · obtain rfl := List.mem_singleton.mp hmem
      apply hend hentry
  · simpa [untaken, hstep] using hyields'
  · apply halike

/-- Whatever is done with a reader, there is an account of it. -/
theorem exists_past (reader : Reader σ ι α) (source : Source) (steps : List ι) :
  ∃ transcript heard s s', reader.Past source steps transcript heard s s'
  := by
  induction steps using List.reverseRecOn with
  | nil =>
    obtain ⟨heard, first, hpast⟩ := reader.past_start source
    use [], heard, first, first
  | append_singleton steps step ih =>
    obtain ⟨transcript, heard, s, s', hpast⟩ := ih
    cases hstep : reader.isTaking step with
    | true =>
      obtain ⟨next, -, hnext⟩ := hpast.step_taking hstep
      exact ⟨_, _, _, _, hnext⟩
    | false =>
      obtain ⟨answer, more, next, next', hnext⟩ := hpast.step_reading hstep
      exact ⟨_, _, _, _, hnext⟩

/-! ### Failures and answers -/

/-- What comes of the failures of a source where these steps are done, which lead to this state,
while the source gives the answers that were heard. -/
structure Reports (reader : Reader σ ι α) (source : Source) (steps : List ι)
    (transcript : List (ι × α)) (heard : List Source.Answer) (last : σ) : Prop where
  yields : (reader.after source steps).Yields (transcript, last)
  answers : source.Answers CharStream.defaultCapacity heard (reader.chars last).bytes.source
  /-- The other steps are answered as if the failure was never asked for. -/
  without : ∃ last', (reader.after source (reader.untaken steps)).Yields
    (transcript.filter fun entry => !reader.isTaking entry.1, last')
  /-- A failure that is no disturbance is the only one, and the source is not called again. -/
  once : ∀ failure ∈ failures heard, failures heard = [failure] ∧ failure.isInterruption = false
    ∧ heard.getLast? = some (.error failure)
  /-- Such a failure is logged, and nothing else is logged as an error. -/
  logged : Threshold.filter (some .error) (reader.after source steps).log
    = (failures heard).map .sourceFailed
  /-- Such a failure ends what is read, or a call that hands out nothing does. -/
  ended : ∀ entry ∈ transcript, reader.isEnd entry.2 →
    heard.getLast? = some (.ok []) ∨ ∃ failure, failures heard = [failure]
  /-- It is answered if it is asked for now, unless it was asked for since it came. -/
  taken : ∀ step, reader.isTaking step → ∃ failure? next,
    (reader.respond last step).Yields (reader.taken failure?, next)
    ∧ ∀ failure, failure? = some failure ↔ reader.Owes source steps failure

theorem Past.reports (h : reader.Past source steps transcript heard s s') :
  reader.Reports source steps transcript heard s
  := by
  constructor
  · apply h.yields
  · apply h.answers
  · use s', h.without
  · intro failure hmem
    obtain ⟨honly, -, hfailure, front, rfl, -⟩ := h.ending.eq_of_mem hmem
    use honly, hfailure
    simp
  · apply h.logged
  · intro entry hmem hend
    have hending := h.ending
    rw [h.ended entry hmem hend] at hending
    apply hending.last_cases
  · intro step hstep
    obtain ⟨next, hanswer, -⟩ := h.step_taking hstep
    use (reader.chars s).failure, next, hanswer, h.owed

theorem exists_reports (reader : Reader σ ι α) (source : Source) (steps : List ι) :
  ∃ transcript heard last, reader.Reports source steps transcript heard last
  := by
  obtain ⟨transcript, heard, last, _, hpast⟩ := reader.exists_past source steps
  exact ⟨transcript, heard, last, hpast.reports⟩

end Reader

/-- Whatever is done with a token stream or with a window onto one, with the failure of the source
asked for at any time: the source fails once at most and is not called again then, the failure is
logged once when it comes and answered once to the first step that asks for it afterwards, and
nothing else is logged as an error or answered as a failure. Disturbances are neither, and nothing
ends because of them. Tokens, programs and diagnostics are the same as if the failure was never
asked for. -/
theorem failure_reported_once (source : Source) :
  (∀ steps, ∃ transcript heard last,
      TokenStream.reader.Reports source steps transcript heard last)
    ∧ ∀ steps, ∃ transcript heard last,
      Window.reader.Reports source steps transcript heard last
  := by
  constructor
  · apply TokenStream.reader.exists_reports
  · apply Window.reader.exists_reports

end FrontEnd
