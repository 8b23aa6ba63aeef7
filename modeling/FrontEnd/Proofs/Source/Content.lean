import FrontEnd.Proofs.Source.Delivery
import FrontEnd.Proofs.Text.Decoding
import FrontEnd.Source.Bytes
import Mathlib.Tactic.Use

/-!
# The content of a byte stream

`ByteStream.content` is what a byte stream spells, whatever its source does: the characters up
to where there is no byte, or a failure. For a source that delivers bytes it does not depend on
the pieces and on the room for them: it is what the bytes spell if they end
(`Gives.content_ended`), and the same without a last sequence cut short if they are ended by a
failure (`Gives.content_failed`).
-/

namespace FrontEnd

open Text

namespace ByteStream

/-- The stream gives these bytes: those in its buffer and those that its source delivers. -/
structure Gives (stream : ByteStream) (bytes : List UInt8) (ending : Option Failure) : Prop where
  room : 0 < stream.capacity
  delivers : ∃ rest, bytes = stream.buffer ++ rest ∧ Delivers stream.source.events rest ending

theorem gives_ofSource {source : Source} {bytes : List UInt8} {ending : Option Failure}
    {capacity : Nat} (h : Delivers source.events bytes ending) (hroom : 0 < capacity) :
  (ofSource source capacity).Gives bytes ending
  := ⟨hroom, bytes, rfl, h⟩

variable {stream : ByteStream} {bytes tail rest : List UInt8} {ending : Option Failure}
  {b lead : UInt8}

/-- The next byte is seen, and is there to be skipped. -/
theorem Gives.peek_cons (h : stream.Gives (b :: bytes) ending) :
  ∃ next, stream.peek = (.ok (some b), next) ∧ next.Gives (b :: bytes) ending
    ∧ next.skip.Gives bytes ending
  := by
  obtain ⟨source, capacity, buffer⟩ := stream
  obtain ⟨hroom, rest, hsplit, hdelivers⟩ := h
  cases buffer with
  | cons b' buffer =>
    obtain ⟨rfl, rfl⟩ := List.cons.inj hsplit
    exact ⟨_, rfl, ⟨hroom, rest, rfl, hdelivers⟩, ⟨hroom, rest, rfl, hdelivers⟩⟩
  | nil =>
    obtain rfl : rest = b :: bytes := hsplit.symm
    obtain ⟨events, calls, handed⟩ := source
    obtain ⟨chunk, rest, next, hfetch, rfl, hnext⟩ := hdelivers.fetch_cons hroom calls handed
    use ⟨next, capacity, b :: chunk⟩
    constructor
    · simp only [peek, hfetch, List.head?_cons]
    · exact ⟨⟨hroom, rest, rfl, hnext⟩, ⟨hroom, rest, rfl, hnext⟩⟩

theorem Gives.peek_ended (h : stream.Gives [] none) :
  ∃ next, stream.peek = (.ok none, next) ∧ next.Gives [] none
  := by
  obtain ⟨⟨events, calls, handed⟩, capacity, buffer⟩ := stream
  obtain ⟨hroom, rest, hsplit, hdelivers⟩ := h
  obtain ⟨rfl, rfl⟩ := List.append_eq_nil_iff.mp hsplit.symm
  obtain ⟨next, hfetch, hnext⟩ := hdelivers.fetch_ended capacity calls handed
  use ⟨next, capacity, []⟩
  constructor
  · simp only [peek, hfetch, List.head?_nil]
  · exact ⟨hroom, [], rfl, hnext⟩

theorem Gives.peek_failed {failure : Failure} (h : stream.Gives [] (some failure)) :
  ∃ next, stream.peek = (.error failure, next)
  := by
  obtain ⟨⟨events, calls, handed⟩, capacity, buffer⟩ := stream
  obtain ⟨hroom, rest, hsplit, hdelivers⟩ := h
  obtain ⟨rfl, rfl⟩ := List.append_eq_nil_iff.mp hsplit.symm
  obtain ⟨next, hfetch⟩ := hdelivers.fetch_failed capacity calls handed
  use ⟨next, capacity, []⟩
  simp only [peek, hfetch]

/-! ### Characters of a byte stream -/

/-- The continuation bytes that come next are gathered. -/
theorem Gives.completeChar_append (h : stream.Gives (tail ++ rest) ending)
    (htail : ∀ b ∈ tail, Utf8.continues b) (lead : UInt8) (count : Nat) (start : List UInt8) :
  ∃ next, completeChar lead (tail.length + count) start stream
      = completeChar lead count (start ++ tail) next ∧ next.Gives rest ending
  := by
  induction tail generalizing stream start with
  | nil =>
    use stream
    constructor
    · simp
    · apply h
  | cons b tail ih =>
    obtain ⟨peeked, hpeek, -, hskip⟩ := h.peek_cons
    obtain ⟨hb, htail⟩ := List.forall_mem_cons.mp htail
    obtain ⟨next, hnext, hgives⟩ := ih hskip htail (start ++ [b])
    use next
    constructor
    · rw [List.length_cons, Nat.add_right_comm, completeChar]
      simp only [hpeek, hb, if_true]
      rw [hnext, List.append_assoc, List.singleton_append]
    · apply hgives

theorem Gives.nextChar_of_stray (h : stream.Gives (lead :: bytes) ending)
    (hlead : Utf8.announced lead = none) :
  ∃ next, stream.nextChar = (.ok (some Utf8.replacement), next) ∧ next.Gives bytes ending
  := by
  obtain ⟨peeked, hpeek, -, hskip⟩ := h.peek_cons
  use peeked.skip
  constructor
  · simp only [nextChar, hpeek, hlead]
  · apply hskip

theorem Gives.nextChar_of_complete (h : stream.Gives (lead :: (tail ++ rest)) ending)
    (hlead : Utf8.Complete lead tail) :
  ∃ next, stream.nextChar = (.ok (some (Utf8.scalar lead tail)), next) ∧ next.Gives rest ending
  := by
  obtain ⟨peeked, hpeek, -, hskip⟩ := h.peek_cons
  obtain ⟨next, hnext, hgives⟩ := hskip.completeChar_append hlead.continues lead 0 []
  rw [Nat.add_zero, completeChar, List.nil_append] at hnext
  use next
  constructor
  · simp only [nextChar, hpeek, hlead.announced, hnext]
  · apply hgives

/-- A cut sequence is gathered up to where it is cut. -/
theorem Gives.nextChar_of_cut (h : stream.Gives (lead :: (tail ++ rest)) ending)
    (hlead : Utf8.Cut lead tail rest) :
  ∃ more next, next.Gives rest ending ∧ ∀ answer last,
    completeChar lead (more + 1) tail next = (answer, last) →
      stream.nextChar = (answer.map some, last)
  := by
  obtain ⟨count, hcount, hlt⟩ := hlead.announced
  obtain ⟨more, rfl⟩ := Nat.exists_eq_add_of_lt hlt
  obtain ⟨peeked, hpeek, -, hskip⟩ := h.peek_cons
  obtain ⟨next, hnext, hgives⟩ := hskip.completeChar_append hlead.continues lead (more + 1) []
  use more, next, hgives
  intro answer last hlast
  rw [List.nil_append, ← Nat.add_assoc, hlast] at hnext
  cases answer with
  | error failure => simp only [nextChar, hpeek, hcount, hnext, Except.map]
  | ok c => simp only [nextChar, hpeek, hcount, hnext, Except.map]

theorem Gives.nextChar_of_broken (h : stream.Gives (lead :: (tail ++ b :: rest)) ending)
    (hlead : Utf8.Cut lead tail (b :: rest)) :
  ∃ next, stream.nextChar = (.ok (some Utf8.replacement), next)
    ∧ next.Gives (b :: rest) ending
  := by
  obtain ⟨more, next, hgives, hnext⟩ := h.nextChar_of_cut hlead
  obtain ⟨peeked, hpeek, hgives, -⟩ := hgives.peek_cons
  use peeked
  constructor
  · apply hnext (.ok Utf8.replacement) peeked
    rw [completeChar]
    simp only [hpeek, hlead.next b rfl, Bool.false_eq_true, if_false]
  · apply hgives

theorem Gives.nextChar_of_cut_ended (h : stream.Gives (lead :: tail) none)
    (hlead : Utf8.Cut lead tail []) :
  ∃ next, stream.nextChar = (.ok (some Utf8.replacement), next) ∧ next.Gives [] none
  := by
  rw [← List.append_nil tail] at h
  obtain ⟨more, next, hgives, hnext⟩ := h.nextChar_of_cut hlead
  obtain ⟨peeked, hpeek, hgives⟩ := hgives.peek_ended
  use peeked
  constructor
  · apply hnext (.ok Utf8.replacement) peeked
    rw [completeChar]
    simp only [hpeek]
  · apply hgives

theorem Gives.nextChar_of_cut_failed {failure : Failure}
    (h : stream.Gives (lead :: tail) (some failure)) (hlead : Utf8.Cut lead tail []) :
  ∃ next, stream.nextChar = (.error failure, next)
  := by
  rw [← List.append_nil tail] at h
  obtain ⟨more, next, hgives, hnext⟩ := h.nextChar_of_cut hlead
  obtain ⟨peeked, hpeek⟩ := hgives.peek_failed
  use peeked
  apply hnext (.error failure) peeked
  rw [completeChar]
  simp only [hpeek]

theorem Gives.nextChar_ended (h : stream.Gives [] none) :
  ∃ next, stream.nextChar = (.ok none, next)
  := by
  obtain ⟨next, hpeek, -⟩ := h.peek_ended
  use next
  simp only [nextChar, hpeek]

theorem Gives.nextChar_failed {failure : Failure} (h : stream.Gives [] (some failure)) :
  ∃ next, stream.nextChar = (.error failure, next)
  := by
  obtain ⟨next, hpeek⟩ := h.peek_failed
  use next
  simp only [nextChar, hpeek]

/-! ### The content of a byte stream -/

/-- The characters of a byte stream up to where it has no byte, or fails, and the failure. -/
def content (stream : ByteStream) : List Char × Option Failure :=
  match h : stream.nextChar with
  | (.ok (some c), next) =>
    have := remaining_of_nextChar h
    (c :: next.content.1, next.content.2)
  | (.ok none, _) => ([], none)
  | (.error failure, _) => ([], some failure)
termination_by stream.remaining

theorem content_of_char {next : ByteStream} {c : Char}
    (h : stream.nextChar = (.ok (some c), next)) :
  stream.content = (c :: next.content.1, next.content.2)
  := by
  rw [content]
  split
  · next heq =>
    simp only [heq, Prod.mk.injEq, Except.ok.injEq, Option.some.injEq] at h
    obtain ⟨rfl, rfl⟩ := h
    rfl
  · next heq => simp [heq] at h
  · next heq => simp [heq] at h

theorem content_of_end {next : ByteStream} (h : stream.nextChar = (.ok none, next)) :
  stream.content = ([], none)
  := by
  rw [content]
  split
  · next heq => simp [heq] at h
  · rfl
  · next heq => simp [heq] at h

theorem content_of_failure {next : ByteStream} {failure : Failure}
    (h : stream.nextChar = (.error failure, next)) :
  stream.content = ([], some failure)
  := by
  rw [content]
  split
  · next heq => simp [heq] at h
  · next heq => simp [heq] at h
  · next heq =>
    simp only [heq, Prod.mk.injEq, Except.error.injEq] at h
    rw [h.1]

/-- A stream of bytes that end spells what the bytes do. -/
theorem Gives.content_ended (h : stream.Gives bytes none) :
  stream.content = (Utf8.decode bytes, none)
  := by
  induction bytes using Utf8.sequenceInduction generalizing stream with
  | nil =>
    obtain ⟨next, hnext⟩ := h.nextChar_ended
    rw [content_of_end hnext, Utf8.decode]
  | stray lead rest hlead ih =>
    obtain ⟨next, hnext, hgives⟩ := h.nextChar_of_stray hlead
    rw [content_of_char hnext, ih hgives, Utf8.decode_of_stray hlead]
  | complete lead tail rest hlead ih =>
    obtain ⟨next, hnext, hgives⟩ := h.nextChar_of_complete hlead
    rw [content_of_char hnext, ih hgives, Utf8.decode_of_complete hlead]
  | cut lead tail rest hlead ih =>
    cases rest with
    | nil =>
      rw [List.append_nil] at h
      obtain ⟨next, hnext, hgives⟩ := h.nextChar_of_cut_ended hlead
      rw [content_of_char hnext, ih hgives, Utf8.decode_of_cut hlead]
    | cons b rest =>
      obtain ⟨next, hnext, hgives⟩ := h.nextChar_of_broken hlead
      rw [content_of_char hnext, ih hgives, Utf8.decode_of_cut hlead]

/-- A stream of bytes after which the source fails spells what the bytes do, but for a sequence
that the failure cuts short. -/
theorem Gives.content_failed {failure : Failure} (h : stream.Gives bytes (some failure)) :
  stream.content = (Utf8.finished bytes, some failure)
  := by
  induction bytes using Utf8.sequenceInduction generalizing stream with
  | nil =>
    obtain ⟨next, hnext⟩ := h.nextChar_failed
    rw [content_of_failure hnext, Utf8.finished]
  | stray lead rest hlead ih =>
    obtain ⟨next, hnext, hgives⟩ := h.nextChar_of_stray hlead
    rw [content_of_char hnext, ih hgives, Utf8.finished_of_stray hlead]
  | complete lead tail rest hlead ih =>
    obtain ⟨next, hnext, hgives⟩ := h.nextChar_of_complete hlead
    rw [content_of_char hnext, ih hgives, Utf8.finished_of_complete hlead]
  | cut lead tail rest hlead ih =>
    cases rest with
    | nil =>
      rw [List.append_nil] at h
      obtain ⟨next, hnext⟩ := h.nextChar_of_cut_failed hlead
      rw [content_of_failure hnext, List.append_nil, Utf8.finished_of_cut_at_end hlead]
    | cons b rest =>
      obtain ⟨next, hnext, hgives⟩ := h.nextChar_of_broken hlead
      rw [content_of_char hnext, ih hgives, Utf8.finished_of_cut hlead (by simp)]

/-- What bytes spell, with the failure that ends them if there is one. -/
def spelled (bytes : List UInt8) : Option Failure → List Char
  | none => Utf8.decode bytes
  | some _ => Utf8.finished bytes

/-- The content of a stream depends on the bytes and their ending only. -/
theorem Gives.content_eq (h : stream.Gives bytes ending) :
  stream.content = (spelled bytes ending, ending)
  := by
  cases ending with
  | none => apply h.content_ended
  | some failure => apply h.content_failed

end ByteStream

end FrontEnd
