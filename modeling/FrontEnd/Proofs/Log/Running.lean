import FrontEnd.Log.Run
import Mathlib.Tactic.Use

/-!
# Putting runs together

A run comes to its value step by step: each lemma takes the first step of a run that is put
together of others, in one of the forms that programs are written in.
-/

namespace FrontEnd.Run

variable {α β : Type} {run : Run α} {a : α} {b : β}

theorem Yields.bind {next : α → Run β} (h : run.Yields a) (hnext : (next a).Yields b) :
  (run >>= next).Yields b
  := by
  apply yields_bind.mpr
  use a

/-- What comes after a run that comes to a value starts from that value. -/
theorem Yields.bind_eq (h : run.Yields a) (next : α → Run β) :
  (run >>= next) = ⟨(next a).outcome, run.log ++ (next a).log⟩
  := by
  obtain ⟨outcome, log⟩ := run
  obtain rfl : outcome = .ok a := h
  apply ok_bind

theorem Yields.map (f : α → β) (h : run.Yields a) :
  (f <$> run).Yields (f a)
  := by
  apply yields_map.mpr
  use a

/-- A run that comes to a value hands on the fact that it does. -/
theorem Yields.attach_eq (h : run.Yields a) :
  run.attach = ⟨.ok ⟨a, h⟩, run.log⟩
  := by
  unfold attach
  split
  · next a' h' =>
    obtain rfl := Yields.unique h h'
    rfl
  · next h' => simp [Yields, h'] at h

theorem Yields.attach_bind {next : { a : α // run.Yields a } → Run β} (h : run.Yields a)
    (hnext : (next ⟨a, h⟩).Yields b) :
  (run.attach >>= next).Yields b
  := by
  rw [h.attach_eq]
  apply yields_bind.mpr
  use ⟨a, h⟩, rfl

/-- What comes after a checked operation that is not refused. -/
theorem lift_bind {outcome : Except Fault α} {next : α → Run β} (h : outcome = .ok a)
    (hnext : (next a).Yields b) :
  ((liftM outcome : Run α) >>= next).Yields b
  := by
  apply Yields.bind _ hnext
  apply h

/-- What comes after a record is logged. -/
theorem tell_bind {record : Record} {next : Unit → Run β} (hnext : (next ()).Yields b) :
  (tell record >>= next).Yields b
  := by
  apply Yields.bind _ hnext
  rfl

/-- What each step comes to with a condition kept, any steps one after the other come to. -/
theorem exists_yields_foldlM {step : α → β → Run α} {P : α → Prop}
    (hstep : ∀ a b, P a → ∃ a', (step a b).Yields a' ∧ P a') (ha : P a) (steps : List β) :
  ∃ last, (steps.foldlM step a).Yields last ∧ P last
  := by
  induction steps generalizing a with
  | nil => use a, rfl
  | cons b steps ih =>
    obtain ⟨middle, hmiddle, hkept⟩ := hstep a b ha
    obtain ⟨last, hlast, hkept⟩ := ih hkept
    use last, hmiddle.bind hlast

end FrontEnd.Run
