import FrontEnd.Source.Failure

/-!
# Sources

A source answers calls: each call hands out some bytes, or none, or fails. `Source.events`
says what the next calls do; afterwards every call hands out nothing. A call offers room for
a number of bytes, and data that does not fit stays for the next call. The source counts the
calls and the bytes it handed out.
-/

namespace FrontEnd

/-- What a source does when it is called. -/
inductive Event where
  /-- It hands out these bytes. -/
  | data (bytes : List UInt8)
  /-- It fails. -/
  | failure (failure : Failure)
  deriving DecidableEq, Repr

/-- The number of bytes that an event holds. -/
def Event.size : Event → Nat
  | data bytes => bytes.length
  | failure _ => 0

/-- Something that bytes are read from. -/
structure Source where
  /-- What the next calls do. -/
  events : List Event
  /-- How often the source was called. -/
  calls : Nat
  /-- How many bytes it handed out. -/
  handed : Nat
  deriving DecidableEq, Repr

namespace Source

/-- A source that was not called yet. -/
def ofEvents (events : List Event) : Source :=
  ⟨events, 0, 0⟩

/-- A source that hands out bytes and ends. -/
def ofBytes (bytes : List UInt8) : Source :=
  ofEvents [.data bytes]

/-- The same events with at most one byte in each. -/
def trickle (events : List Event) : List Event :=
  events.flatMap fun event =>
    match event with
    | .data [] => [.data []]
    | .data bytes => bytes.map fun b => .data [b]
    | .failure failure => [.failure failure]

/-- The number of bytes that the source can still hand out. -/
def remaining (source : Source) : Nat :=
  source.events.foldr (fun event rest => event.size + rest) 0

/-- The events after a call that handed out `room` of these bytes. -/
def keep (room : Nat) (bytes : List UInt8) (events : List Event) : List Event :=
  if bytes.length ≤ room then events else .data (bytes.drop room) :: events

/-- One call with room for a number of bytes. -/
def call (source : Source) (room : Nat) : Except Failure (List UInt8) × Source :=
  match source.events with
  | [] => (.ok [], ⟨[], source.calls + 1, source.handed⟩)
  | .failure failure :: rest => (.error failure, ⟨rest, source.calls + 1, source.handed⟩)
  | .data bytes :: rest =>
    (.ok (bytes.take room),
      ⟨keep room bytes rest, source.calls + 1, source.handed + (bytes.take room).length⟩)

private theorem length_events_of_call_error {source next : Source} {room : Nat}
    {failure : Failure} (h : source.call room = (.error failure, next)) :
  next.events.length < source.events.length
  := by
  unfold call at h
  split at h
  · simp at h
  · next heq =>
    obtain ⟨-, rfl⟩ := Prod.mk.inj h
    simp [heq]
  · simp at h

/-- Calls until one is not disturbed. -/
def fetch (source : Source) (room : Nat) : Except Failure (List UInt8) × Source :=
  match h : source.call room with
  | (.ok bytes, next) => (.ok bytes, next)
  | (.error failure, next) =>
    have := length_events_of_call_error h
    if failure.isInterruption then fetch next room else (.error failure, next)
termination_by source.events.length

/-- What a call hands out no longer remains. -/
theorem remaining_of_call_ok {source next : Source} {room : Nat} {bytes : List UInt8}
    (h : source.call room = (.ok bytes, next)) :
  next.remaining + bytes.length = source.remaining
  := by
  unfold call at h
  split at h
  · next heq =>
    obtain ⟨hb, rfl⟩ := Prod.mk.inj h
    obtain rfl := Except.ok.inj hb
    simp [remaining, heq]
  · simp at h
  · next all rest heq =>
    obtain ⟨hb, rfl⟩ := Prod.mk.inj h
    obtain rfl := Except.ok.inj hb
    simp only [remaining, heq, keep, List.length_take]
    split
    · simp only [List.foldr_cons, Event.size]
      omega
    · simp only [List.foldr_cons, Event.size, List.length_drop]
      omega

/-- A call that fails leaves what remains. -/
theorem remaining_of_call_error {source next : Source} {room : Nat} {failure : Failure}
    (h : source.call room = (.error failure, next)) :
  next.remaining = source.remaining
  := by
  unfold call at h
  split at h
  · simp at h
  · next heq =>
    obtain ⟨-, rfl⟩ := Prod.mk.inj h
    simp [remaining, heq, Event.size]
  · simp at h

/-- What undisturbed calls hand out no longer remains. -/
theorem remaining_of_fetch_ok {source next : Source} {room : Nat} {bytes : List UInt8}
    (h : source.fetch room = (.ok bytes, next)) :
  next.remaining + bytes.length = source.remaining
  := by
  fun_induction fetch source room with
  | case1 source bytes' next' heq =>
    simp only [Prod.mk.injEq, Except.ok.injEq] at h
    obtain ⟨rfl, rfl⟩ := h
    exact remaining_of_call_ok heq
  | case2 source failure next' heq _ _ ih => rw [← remaining_of_call_error heq, ih h]
  | case3 => simp at h

/-- Undisturbed calls that fail leave what remains. -/
theorem remaining_of_fetch_error {source next : Source} {room : Nat} {failure : Failure}
    (h : source.fetch room = (.error failure, next)) :
  next.remaining = source.remaining
  := by
  fun_induction fetch source room with
  | case1 => simp at h
  | case2 source failure' next' heq _ _ ih => rw [ih h, remaining_of_call_error heq]
  | case3 source failure' next' heq _ _ =>
    simp only [Prod.mk.injEq, Except.error.injEq] at h
    obtain ⟨rfl, rfl⟩ := h
    exact remaining_of_call_error heq

end Source

end FrontEnd
