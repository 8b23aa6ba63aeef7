import FrontEnd.Log.Run
import FrontEnd.Source.Bytes

/-!
# Character streams

A character stream reads the characters that the bytes of a source spell. One character can
be pushed back, and is then the next one. The stream ends for good when the source has no
byte where a character would begin, or when it fails; the failure is logged, and kept until
it is taken.
-/

namespace FrontEnd

open Text

/-- The characters of a source, one at a time. -/
structure CharStream where
  bytes : ByteStream
  /-- The character that was pushed back. -/
  pending : Option Char
  /-- Whether the source has come to its end. -/
  exhausted : Bool
  /-- The failure that ended the source, until it is taken. -/
  failure : Option Failure
  deriving DecidableEq, Repr

namespace CharStream

/-- The room that is offered to a source if nothing else is said. -/
def defaultCapacity : Nat := 256

/-- The characters of a source that was not called yet. -/
def ofSource (source : Source) (capacity : Nat) : CharStream :=
  ⟨.ofSource source capacity, none, false, none⟩

/-- The number of characters that the stream can give at most. -/
def weight (stream : CharStream) : Nat :=
  stream.bytes.remaining + if stream.pending.isSome then 1 else 0

/-- The next character, and the stream after it. -/
def read (stream : CharStream) : Run (Option Char × CharStream) :=
  match stream.pending with
  | some c => pure (some c, { stream with pending := none })
  | none =>
    if stream.exhausted then pure (none, stream)
    else
      match stream.bytes.nextChar with
      | (.ok (some c), bytes) => pure (some c, { stream with bytes := bytes })
      | (.ok none, bytes) => pure (none, { stream with bytes := bytes, exhausted := true })
      | (.error failure, bytes) => do
        Run.tell (.sourceFailed failure)
        return (none,
          { stream with bytes := bytes, exhausted := true, failure := some failure })

/-- The stream with a character pushed back, refused if one is waiting. -/
def unread (stream : CharStream) (c : Char) : Except Fault CharStream :=
  match stream.pending with
  | none => .ok { stream with pending := some c }
  | some _ => .error .slotTaken

/-- The next character, which stays in the stream. -/
def peek (stream : CharStream) : Run (Option Char × CharStream) := do
  match ← stream.read with
  | (none, rest) => return (none, rest)
  | (some c, rest) => return (some c, ← rest.unread c)

/-- The failure that ended the source, and the stream without it. -/
def takeFailure (stream : CharStream) : Option Failure × CharStream :=
  (stream.failure, { stream with failure := none })

/-- A character stream with its fields; the bytes are left out. -/
def form (stream : CharStream) : Form :=
  .record "CharReader"
    [("pending", .optional (stream.pending.map fun c => .word (Quoted.char c))),
      ("exhausted", .word (toString stream.exhausted)),
      ("error", .optional (stream.failure.map Failure.form))] false

/-! ### Reading on -/

/-- A character that was read is no longer in the stream. -/
theorem weight_of_read_some {stream rest : CharStream} {c : Char}
    (h : stream.read.Yields (some c, rest)) :
  rest.weight < stream.weight
  := by
  unfold read at h
  split at h
  · next hpending =>
    simp only [Run.yields_pure, Prod.mk.injEq] at h
    obtain ⟨-, rfl⟩ := h
    simp [weight, hpending]
  · next hpending =>
    split at h
    · simp at h
    · split at h
      · next hnext =>
        simp only [Run.yields_pure, Prod.mk.injEq] at h
        obtain ⟨-, rfl⟩ := h
        have hlt := ByteStream.remaining_of_nextChar hnext
        simp only [weight, hpending, Option.isSome_none]
        omega
      · simp at h
      · obtain ⟨_, _, h⟩ := Run.yields_bind.mp h
        simp at h

/-- Reading past the end adds nothing to the stream. -/
theorem weight_of_read_none {stream rest : CharStream}
    (h : stream.read.Yields (none, rest)) :
  rest.weight ≤ stream.weight
  := by
  unfold read at h
  split at h
  · simp at h
  · next hpending =>
    split at h
    · simp only [Run.yields_pure, Prod.mk.injEq, true_and] at h
      subst h
      exact Nat.le_refl _
    · split at h
      · simp at h
      · next hnext =>
        simp only [Run.yields_pure, Prod.mk.injEq, true_and] at h
        subst h
        have hle := ByteStream.remaining_of_nextChar_le hnext
        simp only [weight, hpending, Option.isSome_none]
        omega
      · next hnext =>
        obtain ⟨_, _, h⟩ := Run.yields_bind.mp h
        simp only [Run.yields_pure, Prod.mk.injEq, true_and] at h
        subst h
        have hle := ByteStream.remaining_of_nextChar_le hnext
        simp only [weight, hpending, Option.isSome_none]
        omega

/-- A pushed back character adds one to the stream. -/
theorem weight_of_unread {stream next : CharStream} {c : Char}
    (h : stream.unread c = .ok next) :
  next.weight = stream.weight + 1
  := by
  unfold unread at h
  split at h
  · next hpending =>
    obtain rfl := Except.ok.inj h
    simp [weight, hpending]
  · simp at h

/-- The characters from the front that satisfy `p`. The first one that does not is pushed
back. -/
def takeWhile (p : Char → Bool) (stream : CharStream) : Run (List Char × CharStream) := do
  match ← stream.read.attach with
  | ⟨(none, rest), _⟩ => return ([], rest)
  | ⟨(some c, rest), h⟩ =>
    if p c then
      have := weight_of_read_some h
      (fun (cs, last) => (c :: cs, last)) <$> takeWhile p rest
    else return ([], ← rest.unread c)
termination_by stream.weight

/-- Reading on adds nothing to the stream. -/
theorem weight_of_takeWhile {p : Char → Bool} {stream rest : CharStream} {cs : List Char}
    (h : (stream.takeWhile p).Yields (cs, rest)) :
  rest.weight ≤ stream.weight
  := by
  fun_induction takeWhile p stream generalizing cs rest with
  | case1 stream ih =>
    obtain ⟨⟨⟨c?, next⟩, hread⟩, -, h⟩ := Run.yields_bind.mp h
    cases c? with
    | none =>
      simp only [Run.yields_pure, Prod.mk.injEq] at h
      obtain ⟨-, rfl⟩ := h
      exact weight_of_read_none hread
    | some c =>
      have hlt := weight_of_read_some hread
      simp only at h
      split at h
      · obtain ⟨⟨cs', last⟩, htake, h⟩ := Run.yields_map.mp h
        simp only [Prod.mk.injEq] at h
        obtain ⟨-, rfl⟩ := h
        have hle := ih c next hread htake
        omega
      · obtain ⟨last, hunread, h⟩ := Run.yields_bind.mp h
        simp only [Run.yields_pure, Prod.mk.injEq] at h
        obtain ⟨-, rfl⟩ := h
        have heq := weight_of_unread hunread
        omega

/-- All characters up to the end. -/
def readAll (stream : CharStream) : Run (List Char × CharStream) :=
  stream.takeWhile fun _ => true

end CharStream

end FrontEnd
