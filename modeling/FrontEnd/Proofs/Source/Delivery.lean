import FrontEnd.Source.Script

/-!
# Delivery

`Delivers events bytes ending` says what the events of a source come to when the pieces in which
the bytes are handed out are forgotten: the bytes, and the failure that ends them, if there is
one. A fetch gives some of these bytes, at least one if there is one, and leaves the others.
-/

namespace FrontEnd

/-- The events hand these bytes out, in any pieces and disturbed at any time, and then the
source ends for good, or fails. -/
inductive Delivers : List Event → List UInt8 → Option Failure → Prop where
  | ended : Delivers [] [] none
  /-- Nothing is handed out, now and ever after. -/
  | idle {events : List Event} (hrest : Delivers events [] none) :
      Delivers (.data [] :: events) [] none
  | failed {failure : Failure} {events : List Event} (h : failure.isInterruption = false) :
      Delivers (.failure failure :: events) [] (some failure)
  | disturbed {failure : Failure} {events : List Event} {bytes : List UInt8}
      {ending : Option Failure} (h : failure.isInterruption)
      (hrest : Delivers events bytes ending) :
      Delivers (.failure failure :: events) bytes ending
  | handed {chunk : List UInt8} {events : List Event} {bytes : List UInt8}
      {ending : Option Failure} (h : chunk ≠ []) (hrest : Delivers events bytes ending) :
      Delivers (.data chunk :: events) (chunk ++ bytes) ending

/-- A source that hands out bytes and ends delivers them. -/
theorem delivers_ofBytes (bytes : List UInt8) :
  Delivers (Source.ofBytes bytes).events bytes none
  := by
  cases bytes with
  | nil => exact .idle .ended
  | cons b bytes =>
    have h := Delivers.handed (List.cons_ne_nil b bytes) .ended
    rwa [List.append_nil] at h

/-- The source that hands bytes out at once, and then ends or fails. -/
def Source.atOnce (bytes : List UInt8) (ending : Option Failure) : Source :=
  .ofEvents ((if bytes = [] then [] else [.data bytes]) ++ ending.toList.map .failure)

theorem delivers_atOnce (bytes : List UInt8) {ending : Option Failure}
    (h : ∀ failure, ending = some failure → failure.isInterruption = false) :
  Delivers (Source.atOnce bytes ending).events bytes ending
  := by
  have hending : Delivers (ending.toList.map .failure) [] ending := by
    cases ending with
    | none => exact .ended
    | some failure => exact .failed (h failure rfl)
  rw [Source.atOnce, Source.ofEvents]
  split
  · next hnil => apply hnil ▸ hending
  · next hne =>
    have hdelivers := Delivers.handed hne hending
    rwa [List.append_nil] at hdelivers

/-- Bytes are not ended by a disturbance. -/
theorem Delivers.isInterruption_eq {events : List Event} {bytes : List UInt8}
    {ending : Option Failure} (h : Delivers events bytes ending) :
  ∀ failure, ending = some failure → failure.isInterruption = false
  := by
  induction h with
  | ended => simp
  | idle => simp
  | failed hf => simpa using hf
  | disturbed _ _ ih => apply ih
  | handed _ _ ih => apply ih

/-! ### Fetching -/

namespace Source

theorem fetch_of_call_ok {source next : Source} {room : Nat} {bytes : List UInt8}
    (h : source.call room = (.ok bytes, next)) :
  source.fetch room = (.ok bytes, next)
  := by
  unfold fetch
  split
  · next heq =>
    rw [← heq, h]
  · next heq => simp [h] at heq

theorem fetch_of_disturbed {source next : Source} {room : Nat} {failure : Failure}
    (h : source.call room = (.error failure, next)) (hf : failure.isInterruption) :
  source.fetch room = next.fetch room
  := by
  rw [fetch]
  split
  · next heq => simp [h] at heq
  · next heq =>
    obtain ⟨hfailure, rfl⟩ := Prod.mk.inj (h.symm.trans heq)
    obtain rfl := Except.error.inj hfailure
    rw [if_pos hf]

theorem fetch_of_failed {source next : Source} {room : Nat} {failure : Failure}
    (h : source.call room = (.error failure, next)) (hf : failure.isInterruption = false) :
  source.fetch room = (.error failure, next)
  := by
  rw [fetch]
  split
  · next heq => simp [h] at heq
  · next heq =>
    obtain ⟨hfailure, rfl⟩ := Prod.mk.inj (h.symm.trans heq)
    obtain rfl := Except.error.inj hfailure
    simp [hf]

end Source

/-- A fetch from a source that still delivers bytes gives the first of them. -/
theorem Delivers.fetch_cons {events : List Event} {b : UInt8} {bytes : List UInt8}
    {ending : Option Failure} (h : Delivers events (b :: bytes) ending) {room : Nat}
    (hroom : 0 < room) (calls handed : Nat) :
  ∃ chunk rest next, (⟨events, calls, handed⟩ : Source).fetch room = (.ok (b :: chunk), next)
    ∧ bytes = chunk ++ rest ∧ Delivers next.events rest ending
  := by
  generalize hall : b :: bytes = all at h
  induction h generalizing calls handed with
  | ended => simp at hall
  | idle => simp at hall
  | failed => simp at hall
  | disturbed hf _ ih =>
    rw [Source.fetch_of_disturbed rfl hf]
    apply ih (calls + 1) handed hall
  | @handed chunk events rest ending hchunk hrest ih =>
    obtain ⟨chunk, rfl⟩ : ∃ tail, chunk = b :: tail := by
      cases chunk with
      | nil => exact absurd rfl hchunk
      | cons b' tail => exact ⟨tail, by rw [(List.cons.inj hall).1]⟩
    obtain ⟨room, rfl⟩ := Nat.exists_eq_succ_of_ne_zero (Nat.ne_of_gt hroom)
    refine ⟨chunk.take room, chunk.drop room ++ rest, _, Source.fetch_of_call_ok rfl, ?_, ?_⟩
    · rw [← List.append_assoc, List.take_append_drop]
      apply (List.cons.inj hall).2
    · simp only [Source.keep, List.length_cons, Nat.succ_eq_add_one, Nat.add_le_add_iff_right,
        List.drop_succ_cons]
      split
      · next hle =>
        rw [List.drop_eq_nil_of_le hle]
        apply hrest
      · next hlt => exact .handed (by simpa using hlt) hrest

theorem Delivers.fetch_ended {events : List Event} (h : Delivers events [] none) (room : Nat)
    (calls handed : Nat) :
  ∃ next, (⟨events, calls, handed⟩ : Source).fetch room = (.ok [], next)
    ∧ Delivers next.events [] none
  := by
  generalize hall : [] = all at h
  generalize hnone : none = ending at h
  induction h generalizing calls handed with
  | ended => exact ⟨_, Source.fetch_of_call_ok rfl, .ended⟩
  | idle hrest =>
    refine ⟨_, Source.fetch_of_call_ok (by simp [Source.call]; rfl), ?_⟩
    simpa [Source.keep] using hrest
  | failed => simp at hnone
  | disturbed hf _ ih =>
    rw [Source.fetch_of_disturbed rfl hf]
    apply ih (calls + 1) handed hall hnone
  | handed hchunk => simp [hchunk] at hall

theorem Delivers.fetch_failed {events : List Event} {failure : Failure}
    (h : Delivers events [] (some failure)) (room : Nat) (calls handed : Nat) :
  ∃ next, (⟨events, calls, handed⟩ : Source).fetch room = (.error failure, next)
  := by
  generalize hall : [] = all at h
  generalize hsome : some failure = ending at h
  induction h generalizing calls handed with
  | ended => simp at hsome
  | idle => simp at hsome
  | failed hf =>
    obtain rfl := Option.some.inj hsome
    exact ⟨_, Source.fetch_of_failed rfl hf⟩
  | disturbed hf _ ih =>
    rw [Source.fetch_of_disturbed rfl hf]
    apply ih (calls + 1) handed hall hsome
  | handed hchunk => simp [hchunk] at hall

end FrontEnd
