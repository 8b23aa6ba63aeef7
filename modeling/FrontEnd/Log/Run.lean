import FrontEnd.Log.Record

/-!
# Runs

A run comes to a value or to a fault, and leaves a log. Runs are put together one after the
other: the second one starts from the value of the first, and its log comes after the log of
the first. `Run.Yields` says to which value a run comes, and `Run.attach` hands that fact on
to what follows.
-/

namespace FrontEnd

/-- A value or a fault, and the records logged on the way to it. -/
structure Run (α : Type) where
  outcome : Except Fault α
  log : List Record

namespace Run

variable {α β : Type}

/-- The run that is done at once. -/
def done (a : α) : Run α :=
  ⟨.ok a, []⟩

/-- The run that logs one record. -/
def tell (record : Record) : Run Unit :=
  ⟨.ok (), [record]⟩

/-- The run of a checked operation, which logs nothing. -/
def ofExcept (outcome : Except Fault α) : Run α :=
  ⟨outcome, []⟩

/-- A run followed by another one, unless the first comes to a fault. -/
def andThen (run : Run α) (next : α → Run β) : Run β :=
  match run.outcome with
  | .ok a => ⟨(next a).outcome, run.log ++ (next a).log⟩
  | .error fault => ⟨.error fault, run.log⟩

/-- A run with its value put through a function. -/
def mapValue (f : α → β) (run : Run α) : Run β :=
  ⟨run.outcome.map f, run.log⟩

instance : Monad Run where
  pure := done
  bind := andThen
  map := mapValue

instance : MonadLift (Except Fault) Run where
  monadLift := ofExcept

/-- The run comes to the value `a`. -/
def Yields (run : Run α) (a : α) : Prop :=
  run.outcome = .ok a

/-- The same run, whose value comes with the fact that the run comes to it. -/
def attach (run : Run α) : Run { a : α // run.Yields a } :=
  match h : run.outcome with
  | .ok a => ⟨.ok ⟨a, h⟩, run.log⟩
  | .error fault => ⟨.error fault, run.log⟩

/-! ### Laws -/

@[ext]
theorem ext_parts {run run' : Run α} (ho : run.outcome = run'.outcome)
    (hl : run.log = run'.log) :
  run = run'
  := by
  cases run
  cases run'
  simp_all

theorem pure_def (a : α) :
  (pure a : Run α) = ⟨.ok a, []⟩
  := rfl

theorem ok_bind (a : α) (log : List Record) (next : α → Run β) :
  ((⟨.ok a, log⟩ : Run α) >>= next) = ⟨(next a).outcome, log ++ (next a).log⟩
  := rfl

theorem error_bind (fault : Fault) (log : List Record) (next : α → Run β) :
  ((⟨.error fault, log⟩ : Run α) >>= next) = ⟨.error fault, log⟩
  := rfl

theorem map_def (f : α → β) (run : Run α) :
  f <$> run = ⟨run.outcome.map f, run.log⟩
  := rfl

private theorem bind_done (f : α → β) (run : Run α) :
  (run >>= fun a => pure (f a)) = f <$> run
  := by
  obtain ⟨_ | a, log⟩ := run
  · rfl
  · exact ext_parts rfl (List.append_nil log)

instance : LawfulMonad Run := LawfulMonad.mk' Run
  (fun ⟨outcome, log⟩ => by cases outcome <;> rfl)
  (fun _ _ => rfl)
  (by
    intro α β γ run f g
    obtain ⟨_ | a, log⟩ := run
    · rfl
    · change _ = (⟨(f a >>= g).outcome, log ++ (f a >>= g).log⟩ : Run γ)
      change ((⟨(f a).outcome, log ++ (f a).log⟩ : Run β) >>= g) = _
      obtain ⟨_ | b, log'⟩ := f a
      · rfl
      · exact ext_parts rfl (List.append_assoc log log' _))
  (fun _ _ => rfl)
  (fun _ _ => rfl)
  (fun _ _ => rfl)
  bind_done

@[simp]
theorem yields_pure {a b : α} :
  (pure a : Run α).Yields b ↔ a = b
  := by simp [Yields, pure_def]

@[simp]
theorem yields_tell {record : Record} {u : Unit} :
  (tell record).Yields u
  := rfl

@[simp]
theorem yields_ofExcept {outcome : Except Fault α} {a : α} :
  (ofExcept outcome).Yields a ↔ outcome = .ok a
  := Iff.rfl

/-- Two runs one after the other come to what the second comes to from the value of the
first. -/
theorem yields_bind {run : Run α} {next : α → Run β} {b : β} :
  (run >>= next).Yields b ↔ ∃ a, run.Yields a ∧ (next a).Yields b
  := by
  obtain ⟨_ | a, log⟩ := run
  · simp [Yields, error_bind]
  · simp [Yields, ok_bind]

/-- A run with its value put through a function comes to the function's value. -/
theorem yields_map {f : α → β} {run : Run α} {b : β} :
  (f <$> run).Yields b ↔ ∃ a, run.Yields a ∧ f a = b
  := by
  obtain ⟨_ | a, log⟩ := run
  · simp [Yields, map_def, Except.map]
  · simp [Yields, map_def, Except.map]

@[simp]
theorem log_map (f : α → β) (run : Run α) :
  (f <$> run).log = run.log
  := rfl

/-- The log of two runs one after the other is the log of the first followed by the log of the
second. -/
theorem log_bind {run : Run α} {next : α → Run β} {a : α} (h : run.Yields a) :
  (run >>= next).log = run.log ++ (next a).log
  := by
  obtain ⟨_ | a', log⟩ := run
  · simp [Yields] at h
  · obtain rfl : a' = a := by simpa [Yields] using h
    rfl

/-- A run comes to at most one value. -/
theorem Yields.unique {run : Run α} {a b : α} (ha : run.Yields a) (hb : run.Yields b) :
  a = b
  := Except.ok.inj (ha.symm.trans hb)

/-- Handing on the fact that the run comes to its value changes nothing. -/
theorem attach_bind (run : Run α) (next : α → Run β) :
  (run.attach >>= fun a => next a.val) = run >>= next
  := by
  obtain ⟨_ | a, log⟩ := run
  · rfl
  · rfl

end Run

end FrontEnd
