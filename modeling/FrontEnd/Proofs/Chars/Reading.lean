import FrontEnd.Chars.Stream
import FrontEnd.Proofs.Log.Running
import FrontEnd.Proofs.Source.Content
import FrontEnd.Proofs.Text.Sequences
import Mathlib.Data.List.TakeWhile

/-!
# Reading characters

To read from a character stream is to take from a list: `stream.Gives cs fate` says that the
stream is about to give the characters `cs`, and that the failure `fate`, if any, will then be
there to be taken. Each operation has one lemma, which says what it answers and what the stream
gives afterwards, whatever the source does.
-/

namespace FrontEnd

open Text

namespace CharStream

/-! ### The cases of a read -/

/-- What a stream may answer to a read, with the stream after it and what is logged: the character
that was pushed back, the end where it was reached before, or what the bytes come to. -/
inductive ReadCase (stream : CharStream) : Option Char → CharStream → List Record → Prop where
  | waiting {c : Char} (hpending : stream.pending = some c) :
      ReadCase stream (some c) { stream with pending := none } []
  | ended (hpending : stream.pending = none) (hexhausted : stream.exhausted) :
      ReadCase stream none stream []
  | char {c : Char} {bytes : ByteStream} (hpending : stream.pending = none)
      (hexhausted : stream.exhausted = false)
      (hnext : stream.bytes.nextChar = (.ok (some c), bytes)) :
      ReadCase stream (some c) { stream with bytes := bytes } []
  | silence {bytes : ByteStream} (hpending : stream.pending = none)
      (hexhausted : stream.exhausted = false)
      (hnext : stream.bytes.nextChar = (.ok none, bytes)) :
      ReadCase stream none { stream with bytes := bytes, exhausted := true } []
  | failed {failure : Failure} {bytes : ByteStream} (hpending : stream.pending = none)
      (hexhausted : stream.exhausted = false)
      (hnext : stream.bytes.nextChar = (.error failure, bytes)) :
      ReadCase stream none
        { stream with bytes := bytes, exhausted := true, failure := some failure }
        [.sourceFailed failure]

theorem read_cases (stream : CharStream) :
  ∃ c? next log, stream.read = ⟨.ok (c?, next), log⟩ ∧ stream.ReadCase c? next log
  := by
  unfold CharStream.read
  split
  · next hpending => exact ⟨_, _, _, rfl, .waiting hpending⟩
  · next hpending =>
    split
    · next hexhausted => exact ⟨_, _, _, rfl, .ended hpending hexhausted⟩
    · next hexhausted =>
      rw [Bool.not_eq_true] at hexhausted
      split
      · next hnext => exact ⟨_, _, _, rfl, .char hpending hexhausted hnext⟩
      · next hnext => exact ⟨_, _, _, rfl, .silence hpending hexhausted hnext⟩
      · next hnext => exact ⟨_, _, _, rfl, .failed hpending hexhausted hnext⟩

/-- A character that is pushed back waits in the stream. -/
theorem eq_of_unread {stream next : CharStream} {c : Char} (h : stream.unread c = .ok next) :
  next = { stream with pending := some c }
  := by
  unfold CharStream.unread at h
  split at h
  · exact (Except.ok.inj h).symm
  · simp at h

/-! ### What a stream gives -/

/-- The characters that reading comes to before the end. -/
def text (stream : CharStream) : List Char :=
  stream.pending.toList ++ if stream.exhausted then [] else stream.bytes.content.1

/-- The failure that is kept when reading has come to the end. -/
def fate (stream : CharStream) : Option Failure :=
  if stream.exhausted then stream.failure else stream.bytes.content.2.or stream.failure

/-- The stream gives these characters and comes to this failure. -/
structure Gives (stream : CharStream) (cs : List Char) (fate : Option Failure) : Prop where
  text_eq : stream.text = cs
  fate_eq : stream.fate = fate

/-- The source has come to its end, and nothing is waiting. -/
structure Ended (stream : CharStream) : Prop where
  exhausted : stream.exhausted
  pending : stream.pending = none

theorem gives_text (stream : CharStream) :
  stream.Gives stream.text stream.fate
  := ⟨rfl, rfl⟩

variable {stream : CharStream} {cs : List Char} {fate : Option Failure}

theorem Ended.failure_eq (h : stream.Ended) (hgives : stream.Gives cs fate) :
  stream.failure = fate
  := by
  rw [← hgives.fate_eq, CharStream.fate, if_pos h.exhausted]

/-- A stream that was not read from gives what the delivered bytes spell. -/
theorem gives_delivered {source : Source} {bytes : List UInt8} {ending : Option Failure}
    (h : Delivers source.events bytes ending) {capacity : Nat} (hroom : 0 < capacity) :
  (ofSource source capacity).Gives (ByteStream.spelled bytes ending) ending
  := by
  have hcontent := (ByteStream.gives_ofSource h hroom).content_eq
  constructor
  · simp [text, ofSource, hcontent]
  · simp [CharStream.fate, ofSource, hcontent]

/-! ### Operations -/

/-- Reading takes the first character. -/
theorem Gives.read (h : stream.Gives cs fate) :
  ∃ next, stream.read.Yields (cs.head?, next) ∧ next.Gives cs.tail fate
    ∧ next.pending = none ∧ (cs = [] → next.Ended)
  := by
  obtain ⟨rfl, rfl⟩ := h
  obtain ⟨c?, next, log, hread, hcase⟩ := stream.read_cases
  use next
  rw [hread]
  cases hcase with
  | waiting hpending =>
    refine ⟨?_, ⟨?_, rfl⟩, rfl, ?_⟩
    all_goals simp [Run.Yields, text, hpending]
  | ended hpending hexhausted =>
    refine ⟨?_, ⟨?_, rfl⟩, hpending, fun _ => ⟨hexhausted, hpending⟩⟩
    all_goals simp [Run.Yields, text, hpending, hexhausted]
  | char hpending hexhausted hnext =>
    have hcontent := ByteStream.content_of_char hnext
    refine ⟨?_, ⟨?_, ?_⟩, hpending, ?_⟩
    all_goals simp [Run.Yields, text, CharStream.fate, hpending, hexhausted, hcontent]
  | silence hpending hexhausted hnext =>
    have hcontent := ByteStream.content_of_end hnext
    refine ⟨?_, ⟨?_, ?_⟩, hpending, fun _ => ⟨rfl, hpending⟩⟩
    all_goals simp [Run.Yields, text, CharStream.fate, hpending, hexhausted, hcontent]
  | failed hpending hexhausted hnext =>
    have hcontent := ByteStream.content_of_failure hnext
    refine ⟨?_, ⟨?_, ?_⟩, hpending, fun _ => ⟨rfl, hpending⟩⟩
    all_goals simp [Run.Yields, text, CharStream.fate, hpending, hexhausted, hcontent]

/-- A character that is pushed back comes first. -/
theorem Gives.unread (h : stream.Gives cs fate) (hpending : stream.pending = none) (c : Char) :
  ∃ next, stream.unread c = .ok next ∧ next.Gives (c :: cs) fate ∧ next.pending = some c
  := by
  obtain ⟨rfl, rfl⟩ := h
  use { stream with pending := some c }
  constructor
  · simp only [CharStream.unread, hpending]
  · constructor
    · constructor
      · simp [text, hpending]
      · rfl
    · rfl

/-- What was read and then pushed back is given again. -/
theorem Gives.read_unread {c : Char} (h : stream.Gives (c :: cs) fate) :
  ∃ middle next, stream.read.Yields (some c, middle) ∧ middle.unread c = .ok next
    ∧ next.Gives (c :: cs) fate ∧ next.pending = some c
  := by
  obtain ⟨middle, hread, hmiddle, hpending, -⟩ := h.read
  obtain ⟨next, hunread, hnext, hsome⟩ := hmiddle.unread hpending c
  use middle, next, hread, hunread, hnext

/-- Peeking answers the first character and leaves it. -/
theorem Gives.peek (h : stream.Gives cs fate) :
  ∃ next, stream.peek.Yields (cs.head?, next) ∧ next.Gives cs fate
  := by
  cases cs with
  | nil =>
    obtain ⟨next, hread, hnext, -⟩ := h.read
    use next
    constructor
    · apply hread.bind
      rfl
    · apply hnext
  | cons c cs =>
    obtain ⟨middle, next, hread, hunread, hnext, -⟩ := h.read_unread
    use next
    constructor
    · apply hread.bind
      apply Run.lift_bind hunread
      rfl
    · apply hnext

/-- Reading while a condition holds takes the characters that satisfy it. -/
theorem Gives.takeWhile (p : Char → Bool) (h : stream.Gives cs fate) :
  ∃ next, (stream.takeWhile p).Yields (cs.takeWhile p, next)
    ∧ next.Gives (cs.dropWhile p) fate ∧ (cs.dropWhile p = [] → next.Ended)
  := by
  induction cs generalizing stream with
  | nil =>
    obtain ⟨next, hread, hnext, -, hended⟩ := h.read
    use next
    constructor
    · rw [CharStream.takeWhile]
      apply hread.attach_bind
      rfl
    · use hnext
      intro _
      apply hended rfl
  | cons c cs ih =>
    by_cases hc : p c
    · obtain ⟨middle, hread, hmiddle, -, -⟩ := h.read
      obtain ⟨next, htake, hnext, hended⟩ := ih hmiddle
      simp only [List.takeWhile_cons, List.dropWhile_cons, hc, if_true]
      use next
      constructor
      · rw [CharStream.takeWhile]
        apply hread.attach_bind
        simp only [List.head?_cons, hc, if_true]
        apply htake.map
      · use hnext
    · obtain ⟨middle, next, hread, hunread, hnext, -⟩ := h.read_unread
      simp only [List.takeWhile_cons, List.dropWhile_cons, hc, Bool.false_eq_true, if_false]
      use next
      constructor
      · rw [CharStream.takeWhile]
        apply hread.attach_bind
        simp only [hc, Bool.false_eq_true, if_false]
        apply Run.lift_bind hunread
        rfl
      · use hnext
        simp

/-- Reading all there is takes all characters and comes to the end. -/
theorem Gives.readAll (h : stream.Gives cs fate) :
  ∃ last, stream.readAll.Yields (cs, last) ∧ last.Gives [] fate ∧ last.Ended
  := by
  obtain ⟨last, htake, hlast, hended⟩ := h.takeWhile fun _ => true
  have hnil : cs.dropWhile (fun _ => true) = [] := List.dropWhile_eq_nil_iff.mpr (by simp)
  rw [List.takeWhile_eq_self_iff.mpr (by simp)] at htake
  rw [hnil] at hlast
  use last, htake, hlast
  apply hended hnil

/-! ### Bytes that end -/

/-- The encoding of `é€`, cut within both characters and disturbed. -/
def pieces : List Event :=
  [.data [0xC3], .failure (.plain .interrupted), .data [0xA9, 0xE2], .data [0x82, 0xAC]]

theorem delivers_pieces :
  Delivers pieces [0xC3, 0xA9, 0xE2, 0x82, 0xAC] none
  := .handed (List.cons_ne_nil _ _) (.disturbed rfl
    (.handed (List.cons_ne_nil _ _) (.handed (List.cons_ne_nil _ _) .ended)))

/-- All characters of a source that delivers bytes and ends, in any pieces and disturbed at any
time: the bytes split into sequences that stand for one character each, an encoding for what it
encodes and a broken sequence for the replacement character. The encoding of a text is read as
the text. -/
theorem readAll_delivered {source : Source} {bytes : List UInt8} {capacity : Nat}
    (h : Delivers source.events bytes none) (hroom : 0 < capacity) :
  ∃ sequences last,
    (ofSource source capacity).readAll.Yields (sequences.map Utf8.Sequence.char, last)
    ∧ last.Ended
    ∧ Utf8.Spells bytes sequences
    ∧ sequences.flatMap Utf8.Sequence.bytes = bytes
    ∧ (∀ sequence ∈ sequences, sequence.bytes ≠ []
        ∧ (∀ c, sequence.bytes = String.utf8EncodeChar c → sequence.char = c)
        ∧ ((∀ c, sequence.bytes ≠ String.utf8EncodeChar c) →
            sequence.char = Utf8.replacement))
    ∧ ∀ text, bytes = Utf8.encode text → sequences.map Utf8.Sequence.char = text.toList
  := by
  obtain ⟨sequences, hspells, hchars⟩ := Utf8.exists_spells bytes
  obtain ⟨last, hread, -, hended⟩ := (gives_delivered h hroom).readAll
  rw [ByteStream.spelled, ← hchars] at hread
  use sequences, last, hread, hended, hspells, hspells.flatMap_bytes, hspells.char_eq
  rintro text rfl
  rw [hchars, Utf8.decode_encode]

theorem readAll_pieces :
  Delivers pieces (Utf8.encode "é€") none ∧ 0 < 1
    ∧ ∃ last, (ofSource (.ofEvents pieces) 1).readAll.Yields (['é', '€'], last)
  := by
  have hencode : Utf8.encode "é€" = [0xC3, 0xA9, 0xE2, 0x82, 0xAC] := by decide
  have hdelivers : Delivers (Source.ofEvents pieces).events (Utf8.encode "é€") none :=
    hencode ▸ delivers_pieces
  obtain ⟨sequences, last, hread, -, -, -, -, htext⟩ := readAll_delivered hdelivers Nat.one_pos
  rw [htext "é€" rfl] at hread
  use hdelivers, Nat.one_pos, last
  apply hread

end CharStream

end FrontEnd
