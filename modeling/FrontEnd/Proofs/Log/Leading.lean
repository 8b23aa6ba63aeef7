import FrontEnd.Proofs.Log.Ensuring

/-!
# Runs that lead from state to state

A passage says which state can come of which one while something is logged; passages can be put
together one after the other. `passage.Leads s run view` says that the run, started in the state
`s`, comes along the passage to the state that is found in its value. There is one lemma for each
of the forms in which runs are put together.
-/

namespace FrontEnd

/-- Which state comes of which one while these records are logged. -/
structure Passage (σ : Type) where
  Goes : σ → List Record → σ → Prop
  refl : ∀ s, Goes s [] s
  trans : ∀ {s t u log log'}, Goes s log t → Goes t log' u → Goes s (log ++ log') u

namespace Passage

variable {σ α β : Type} {passage : Passage σ} {s t : σ} {run : Run α} {view : α → σ}
  {view' : β → σ}

/-- The run leads from the state along the passage to the one that is found in its value. -/
structure Leads (passage : Passage σ) (s : σ) (run : Run α) (view : α → σ) : Prop where
  ensures : run.Ensures fun a log => passage.Goes s log (view a)

theorem leads_pure {a : α} (h : passage.Goes s [] (view a)) :
  passage.Leads s (pure a) view
  := ⟨Run.ensures_pure h⟩

/-- A run that is done at once leaves the state. -/
theorem leads_done {a : α} (h : view a = s) :
  passage.Leads s (pure a) view
  := leads_pure (h ▸ passage.refl s)

theorem leads_lift {outcome : Except Fault α}
    (h : ∀ a, outcome = .ok a → passage.Goes s [] (view a)) :
  passage.Leads s (liftM outcome) view
  := ⟨Run.ensures_lift h⟩

theorem Leads.bind {next : α → Run β} (h : passage.Leads s run view)
    (hnext : ∀ a, passage.Leads (view a) (next a) view') :
  passage.Leads s (run >>= next) view'
  := by
  constructor
  apply h.ensures.bind
  intro a log ha
  apply (hnext a).ensures.mono
  intro b log' hb
  apply passage.trans ha hb

theorem Leads.attach_bind {next : { a : α // run.Yields a } → Run β}
    (h : passage.Leads s run view)
    (hnext : ∀ a ha, passage.Leads (view a) (next ⟨a, ha⟩) view') :
  passage.Leads s (run.attach >>= next) view'
  := by
  constructor
  apply h.ensures.attach_bind
  intro a ha log hlog
  apply (hnext a ha).ensures.mono
  intro b log' hb
  apply passage.trans hlog hb

theorem Leads.map {f : α → β} (h : passage.Leads s run fun a => view' (f a)) :
  passage.Leads s (f <$> run) view'
  := by
  constructor
  apply h.ensures.map

/-- A record that leaves the state comes before what follows. -/
theorem Leads.tell_bind {record : Record} {next : Unit → Run β}
    (hrecord : passage.Goes s [record] s) (hnext : passage.Leads s (next ()) view') :
  passage.Leads s (Run.tell record >>= next) view'
  := by
  have htell : passage.Leads s (Run.tell record) fun _ => s := ⟨Run.ensures_tell hrecord⟩
  apply htell.bind
  intro _
  apply hnext

/-- A checked operation leaves the state. -/
theorem Leads.lift_bind {outcome : Except Fault α} {next : α → Run β}
    (hnext : ∀ a, passage.Leads s (next a) view') :
  passage.Leads s ((liftM outcome : Run α) >>= next) view'
  := by
  have hlift : passage.Leads s (liftM outcome : Run α) fun _ => s :=
    leads_lift fun _ _ => passage.refl s
  apply hlift.bind hnext

/-- Steps one after the other lead as far as each of them leads. -/
theorem leads_foldlM {step : σ → β → Run σ} (h : ∀ s b, passage.Leads s (step s b) id) (s : σ)
    (steps : List β) :
  passage.Leads s (steps.foldlM step s) id
  := by
  induction steps generalizing s with
  | nil => exact leads_done rfl
  | cons b steps ih =>
    apply (h s b).bind
    apply ih

/-- What the run comes to is reached along the passage. -/
theorem Leads.goes (h : passage.Leads s run view) {a : α} (ha : run.Yields a) :
  passage.Goes s run.log (view a)
  := h.ensures.of_yields a ha

end Passage

end FrontEnd
