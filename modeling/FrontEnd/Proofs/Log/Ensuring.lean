import FrontEnd.Proofs.Log.Running

/-!
# What runs ensure

`run.Ensures P` says that the value that a run comes to, if it comes to one, and its log satisfy
`P`. Each lemma is for one of the forms in which runs are put together, and says what the parts
have to ensure.
-/

namespace FrontEnd.Run

variable {α β : Type} {run : Run α} {P : α → List Record → Prop} {Q : β → List Record → Prop}

/-- A value that the run comes to satisfies the condition together with the log. -/
structure Ensures (run : Run α) (P : α → List Record → Prop) : Prop where
  of_yields : ∀ a, run.Yields a → P a run.log

theorem Ensures.mono {P' : α → List Record → Prop} (h : run.Ensures P)
    (himp : ∀ a log, P a log → P' a log) :
  run.Ensures P'
  := by
  constructor
  intro a ha
  apply himp a run.log (h.of_yields a ha)

theorem ensures_pure {a : α} (h : P a []) :
  (pure a : Run α).Ensures P
  := by
  constructor
  intro b hb
  obtain rfl := yields_pure.mp hb
  apply h

theorem ensures_tell {record : Record} {P : Unit → List Record → Prop} (h : P () [record]) :
  (tell record).Ensures P
  := by
  constructor
  intro _ _
  apply h

theorem ensures_lift {outcome : Except Fault α} (h : ∀ a, outcome = .ok a → P a []) :
  (liftM outcome : Run α).Ensures P
  := by
  constructor
  intro a ha
  apply h a ha

/-- The second run has to ensure the condition with the log of the first before its own. -/
theorem Ensures.bind {next : α → Run β} (h : run.Ensures P)
    (hnext : ∀ a log, P a log → (next a).Ensures fun b log' => Q b (log ++ log')) :
  (run >>= next).Ensures Q
  := by
  constructor
  intro b hb
  obtain ⟨a, ha, hb⟩ := yields_bind.mp hb
  rw [log_bind ha]
  apply (hnext a run.log (h.of_yields a ha)).of_yields b hb

/-- A record comes before the log of what follows it. -/
theorem ensures_tell_bind {record : Record} {next : Unit → Run β}
    (hnext : (next ()).Ensures fun b log => Q b (record :: log)) :
  (tell record >>= next).Ensures Q
  := by
  have htell : (tell record).Ensures fun _ log => log = [record] := ensures_tell rfl
  apply htell.bind
  rintro _ log rfl
  apply hnext

theorem Ensures.attach_bind {next : { a : α // run.Yields a } → Run β} (h : run.Ensures P)
    (hnext : ∀ a ha log, P a log → (next ⟨a, ha⟩).Ensures fun b log' => Q b (log ++ log')) :
  (run.attach >>= next).Ensures Q
  := by
  constructor
  intro b hb
  obtain ⟨⟨a, ha⟩, hattach, hb⟩ := yields_bind.mp hb
  rw [log_bind hattach, ha.attach_eq]
  apply (hnext a ha run.log (h.of_yields a ha)).of_yields b hb

theorem Ensures.map {f : α → β} (h : run.Ensures fun a log => Q (f a) log) :
  (f <$> run).Ensures Q
  := by
  constructor
  intro b hb
  obtain ⟨a, ha, rfl⟩ := yields_map.mp hb
  apply h.of_yields a ha

end FrontEnd.Run
