import FrontEnd.Proofs.Log.Running

/-!
# Sessions

In a session steps are done one after the other, each from the state that the one before it led to.
The transcript of a session has every step with its answer. What each step keeps, a session keeps
(`exists_yields_session`), and one more step is one more entry at the end of the transcript
(`Yields.session_concat`).
-/

namespace FrontEnd.Run

variable {σ ι α : Type} {respond : σ → ι → Run (α × σ)} {s middle last : σ} {step : ι}
  {steps : List ι} {answer : α} {transcript : List (ι × α)}

/-- The transcript of these steps, done one after the other, and the state that they lead to. -/
def session (respond : σ → ι → Run (α × σ)) : List ι → σ → Run (List (ι × α) × σ)
  | [], s => pure ([], s)
  | step :: steps, s => do
    let (answer, middle) ← respond s step
    (fun (transcript, last) => ((step, answer) :: transcript, last)) <$>
      session respond steps middle

theorem Yields.session_cons (h : (respond s step).Yields (answer, middle))
    (hrest : (session respond steps middle).Yields (transcript, last)) :
  (session respond (step :: steps) s).Yields ((step, answer) :: transcript, last)
  := by
  apply h.bind
  apply hrest.map

theorem log_session_cons (h : (respond s step).Yields (answer, middle)) :
  (session respond (step :: steps) s).log
    = (respond s step).log ++ (session respond steps middle).log
  := by
  rw [session, log_bind h]
  rfl

/-- A session begins with its first step. -/
theorem Yields.session_uncons
    (h : (session respond (step :: steps) s).Yields (transcript, last)) :
  ∃ answer middle rest, (respond s step).Yields (answer, middle)
    ∧ (session respond steps middle).Yields (rest, last) ∧ transcript = (step, answer) :: rest
  := by
  obtain ⟨⟨answer, middle⟩, hstep, h⟩ := yields_bind.mp h
  obtain ⟨⟨rest, last'⟩, hrest, h⟩ := yields_map.mp h
  obtain ⟨rfl, rfl⟩ := Prod.mk.inj h
  use answer, middle, rest

/-- One more step after a session. -/
theorem Yields.session_concat (h : (session respond steps s).Yields (transcript, middle))
    (hstep : (respond middle step).Yields (answer, last)) :
  (session respond (steps ++ [step]) s).Yields (transcript ++ [(step, answer)], last)
    ∧ (session respond (steps ++ [step]) s).log
        = (session respond steps s).log ++ (respond middle step).log
  := by
  induction steps generalizing s transcript with
  | nil =>
    obtain ⟨rfl, rfl⟩ := Prod.mk.inj (yields_pure.mp h)
    use hstep.session_cons rfl
    exact (log_session_cons hstep).trans (List.append_nil _)
  | cons first steps ih =>
    obtain ⟨answer', next, rest, hfirst, hrest, rfl⟩ := h.session_uncons
    obtain ⟨hyields, hlog⟩ := ih hrest
    use hfirst.session_cons hyields
    rw [List.cons_append, log_session_cons hfirst, hlog, log_session_cons hfirst,
      List.append_assoc]

/-- What each step answers where something is kept, a session answers throughout. -/
theorem exists_yields_session {P : σ → Prop} {Q : ι → α → Prop}
    (hstep : ∀ s step, P s → ∃ answer next, (respond s step).Yields (answer, next)
      ∧ Q step answer ∧ P next)
    (hs : P s) (steps : List ι) :
  ∃ transcript last, (session respond steps s).Yields (transcript, last)
    ∧ (∀ entry ∈ transcript, Q entry.1 entry.2) ∧ P last
  := by
  induction steps generalizing s with
  | nil => use [], s, rfl, by simp
  | cons step steps ih =>
    obtain ⟨answer, middle, hanswer, hQ, hkept⟩ := hstep s step hs
    obtain ⟨transcript, last, htranscript, hall, hlast⟩ := ih hkept
    use (step, answer) :: transcript, last, hanswer.session_cons htranscript
    constructor
    · rw [List.forall_mem_cons]
      exact ⟨hQ, hall⟩
    · apply hlast

end FrontEnd.Run
