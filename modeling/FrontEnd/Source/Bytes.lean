import FrontEnd.Source.Script
import FrontEnd.Text.Utf8

/-!
# Byte streams

A byte stream hands the bytes of a source out one at a time. It calls the source only when it
has no byte left, with room for a fixed number of them; when that call hands out nothing, the
stream has no byte now, and the next demand calls again.

`ByteStream.nextChar` takes the bytes of one character: a lead byte and the continuation bytes
that it announces. The byte that breaks a sequence stays in the stream.
-/

namespace FrontEnd

open Text

/-- The bytes of a source, one at a time. -/
structure ByteStream where
  source : Source
  /-- The room that every call of the source offers. -/
  capacity : Nat
  /-- The bytes that were handed out and not taken yet. -/
  buffer : List UInt8
  deriving DecidableEq, Repr

namespace ByteStream

/-- The bytes of a source that was not called yet. -/
def ofSource (source : Source) (capacity : Nat) : ByteStream :=
  ⟨source, capacity, []⟩

/-- The number of bytes that the stream can still give. -/
def remaining (stream : ByteStream) : Nat :=
  stream.buffer.length + stream.source.remaining

/-- The next byte, which stays in the stream. -/
def peek (stream : ByteStream) : Except Failure (Option UInt8) × ByteStream :=
  match stream.buffer with
  | b :: _ => (.ok (some b), stream)
  | [] =>
    match stream.source.fetch stream.capacity with
    | (.ok bytes, source) => (.ok bytes.head?, ⟨source, stream.capacity, bytes⟩)
    | (.error failure, source) => (.error failure, ⟨source, stream.capacity, []⟩)

/-- The stream without its next byte. -/
def skip (stream : ByteStream) : ByteStream :=
  ⟨stream.source, stream.capacity, stream.buffer.tail⟩

/-- The character that begins with `lead` and the continuation bytes `tail`, of which `count`
more are announced. -/
def completeChar (lead : UInt8) :
    (count : Nat) → (tail : List UInt8) → ByteStream → Except Failure Char × ByteStream
  | 0, tail, stream => (.ok (Utf8.scalar lead tail), stream)
  | count + 1, tail, stream =>
    match stream.peek with
    | (.error failure, stream) => (.error failure, stream)
    | (.ok none, stream) => (.ok Utf8.replacement, stream)
    | (.ok (some b), stream) =>
      if Utf8.continues b then completeChar lead count (tail ++ [b]) stream.skip
      else (.ok Utf8.replacement, stream)

/-- The next character, if there is a byte now. -/
def nextChar (stream : ByteStream) : Except Failure (Option Char) × ByteStream :=
  match stream.peek with
  | (.error failure, stream) => (.error failure, stream)
  | (.ok none, stream) => (.ok none, stream)
  | (.ok (some lead), stream) =>
    match Utf8.announced lead with
    | none => (.ok (some Utf8.replacement), stream.skip)
    | some count =>
      match completeChar lead count [] stream.skip with
      | (.error failure, stream) => (.error failure, stream)
      | (.ok c, stream) => (.ok (some c), stream)

/-! ### What remains -/

theorem remaining_of_peek {stream next : ByteStream} {b? : Except Failure (Option UInt8)}
    (h : stream.peek = (b?, next)) :
  next.remaining = stream.remaining
  := by
  unfold peek at h
  split at h
  · next heq =>
    obtain ⟨-, rfl⟩ := Prod.mk.inj h
    rfl
  · next hbuffer =>
    split at h
    · next heq =>
      obtain ⟨-, rfl⟩ := Prod.mk.inj h
      have hfetch := Source.remaining_of_fetch_ok heq
      simp only [remaining, hbuffer, List.length_nil]
      omega
    · next heq =>
      obtain ⟨-, rfl⟩ := Prod.mk.inj h
      have hfetch := Source.remaining_of_fetch_error heq
      simp only [remaining, hbuffer]
      omega

/-- The byte that was seen is the first one in the buffer. -/
theorem buffer_of_peek {stream next : ByteStream} {b : UInt8}
    (h : stream.peek = (.ok (some b), next)) :
  next.buffer.head? = some b
  := by
  unfold peek at h
  split at h
  · next heq =>
    obtain ⟨hb, rfl⟩ := Prod.mk.inj h
    simp only [Except.ok.injEq] at hb
    rw [heq, List.head?_cons, hb]
  · split at h
    · obtain ⟨hb, rfl⟩ := Prod.mk.inj h
      exact Except.ok.inj hb
    · simp at h

/-- Skipping a byte that was seen leaves one byte less. -/
theorem remaining_skip {stream next : ByteStream} {b : UInt8}
    (h : stream.peek = (.ok (some b), next)) :
  next.skip.remaining + 1 = stream.remaining
  := by
  have hbuffer := buffer_of_peek h
  rw [← remaining_of_peek h]
  obtain ⟨tail, htail⟩ := List.head?_eq_some_iff.mp hbuffer
  simp only [remaining, skip, htail, List.tail_cons, List.length_cons]
  omega

theorem remaining_of_completeChar {lead : UInt8} {count : Nat} {tail : List UInt8}
    {stream next : ByteStream} {c : Except Failure Char}
    (h : completeChar lead count tail stream = (c, next)) :
  next.remaining ≤ stream.remaining
  := by
  fun_induction completeChar lead count tail stream with
  | case1 =>
    obtain ⟨-, rfl⟩ := Prod.mk.inj h
    exact Nat.le_refl _
  | case2 _ _ _ _ _ heq =>
    obtain ⟨-, rfl⟩ := Prod.mk.inj h
    exact Nat.le_of_eq (remaining_of_peek heq)
  | case3 _ _ _ _ heq =>
    obtain ⟨-, rfl⟩ := Prod.mk.inj h
    exact Nat.le_of_eq (remaining_of_peek heq)
  | case4 _ _ _ _ _ heq _ ih =>
    have hnext := ih h
    have hskip := remaining_skip heq
    omega
  | case5 _ _ _ _ _ heq =>
    obtain ⟨-, rfl⟩ := Prod.mk.inj h
    exact Nat.le_of_eq (remaining_of_peek heq)

/-- Looking for a character adds no byte. -/
theorem remaining_of_nextChar_le {stream next : ByteStream}
    {c? : Except Failure (Option Char)} (h : stream.nextChar = (c?, next)) :
  next.remaining ≤ stream.remaining
  := by
  unfold nextChar at h
  split at h
  · next heq =>
    obtain ⟨-, rfl⟩ := Prod.mk.inj h
    exact Nat.le_of_eq (remaining_of_peek heq)
  · next heq =>
    obtain ⟨-, rfl⟩ := Prod.mk.inj h
    exact Nat.le_of_eq (remaining_of_peek heq)
  · next heq =>
    have hskip := remaining_skip heq
    split at h
    · obtain ⟨-, rfl⟩ := Prod.mk.inj h
      omega
    · split at h
      · next hcomplete =>
        obtain ⟨-, rfl⟩ := Prod.mk.inj h
        have hle := remaining_of_completeChar hcomplete
        omega
      · next hcomplete =>
        obtain ⟨-, rfl⟩ := Prod.mk.inj h
        have hle := remaining_of_completeChar hcomplete
        omega

/-- A character takes at least one byte. -/
theorem remaining_of_nextChar {stream next : ByteStream} {c : Char}
    (h : stream.nextChar = (.ok (some c), next)) :
  next.remaining < stream.remaining
  := by
  unfold nextChar at h
  split at h
  · simp at h
  · simp at h
  · next heq =>
    have hskip := remaining_skip heq
    split at h
    · obtain ⟨-, rfl⟩ := Prod.mk.inj h
      omega
    · split at h
      · simp at h
      · next hcomplete =>
        obtain ⟨-, rfl⟩ := Prod.mk.inj h
        have hle := remaining_of_completeChar hcomplete
        omega

end ByteStream

end FrontEnd
