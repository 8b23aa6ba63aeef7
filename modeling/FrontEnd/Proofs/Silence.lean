import FrontEnd.Proofs.Permanence
import FrontEnd.Proofs.Source.Calling

/-!
# Calls that hand out nothing

A source reports its end by a call that hands out nothing. A call that does so for a character
is the last one that is made for it (`read_silence`). Where the character would begin the stream is
at its end then, for ever. Within a sequence of bytes the call ends the sequence, which is read as the
replacement character, and the stream is not at its end: it goes on with what the source hands out
next.
-/

namespace FrontEnd

open Text

/-- At the end no character comes before one is pushed back. -/
theorem Deck.spent_transcript {steps : List CharStream.Step} (h : ∀ c, .unread c ∉ steps)
    (failure : Option Failure) :
  ∀ entry ∈ (spent failure).transcript steps, entry.1 ≠ .takeFailure → entry.2 = .char none
  := by
  induction steps generalizing failure with
  | nil => simp [transcript]
  | cons step steps ih =>
    have hsteps : ∀ c, .unread c ∉ steps := fun c hmem => h c (List.mem_cons_of_mem step hmem)
    rw [transcript, List.forall_mem_cons]
    cases step with
    | read => use fun _ => rfl, ih hsteps failure
    | peek => use fun _ => rfl, ih hsteps failure
    | unread c => exact absurd List.mem_cons_self (h c)
    | takeFailure => use absurd rfl, ih hsteps none

namespace CharStream

open Source

/-- Without a character pushed back, reading answers with the end for ever and leaves the source. -/
def IsOver (stream : CharStream) : Prop :=
  ∀ steps : List Step, (∀ c, .unread c ∉ steps) → ∃ transcript last,
    (Run.session respond steps stream).Yields (transcript, last)
    ∧ (∀ entry ∈ transcript, entry.1 ≠ .takeFailure → entry.2 = .char none)
    ∧ last.bytes.source = stream.bytes.source

variable {stream rest : CharStream} {c? : Option Char} {answers : List Source.Answer}

theorem Ended.isOver (h : stream.Ended) :
  stream.IsOver
  := by
  intro steps hsteps
  obtain ⟨last, hsession, hsource⟩ := h.session steps
  use (Deck.spent stream.failure).transcript steps, last, hsession
  use Deck.spent_transcript hsteps stream.failure

/-- What a read comes to whose last call hands out nothing: the end where no byte was left for a
character, and a replacement character where the bytes that were left begin a sequence. -/
inductive Silenced (stream : CharStream) (answers : List Source.Answer) :
    Option Char → CharStream → Prop where
  | border {rest : CharStream} (hbytes : stream.bytes.buffer ++ handedOut answers = [])
      (hover : rest.IsOver) : Silenced stream answers none rest
  /-- The stream goes on as one onto the source as it is now. -/
  | within {lead : UInt8} {tail : List UInt8} {source : Source}
      (hbytes : stream.bytes.buffer ++ handedOut answers = lead :: tail)
      (hcut : Utf8.Cut lead tail []) :
      Silenced stream answers (some Utf8.replacement)
        { ofSource source stream.bytes.capacity with failure := stream.failure }

/-- Every read comes to an answer by calls of the source, in the course of which the source may
report its end by handing out nothing. Then no further call is made, and either the stream is at
its end for ever, which is so where a character would begin, or a sequence was begun: then the
replacement character is read for its bytes, and the stream goes on with what the source hands out
after its end. -/
theorem read_silence (stream : CharStream) :
  ∃ c? rest answers, stream.read.Yields (c?, rest)
    ∧ stream.bytes.source.Answers stream.bytes.capacity answers rest.bytes.source
    ∧ (.ok [] ∈ answers →
        PlainUntil (some (.ok [])) answers ∧ Silenced stream answers c? rest)
  := by
  obtain ⟨c?, rest, log, hread, hcase⟩ := stream.read_cases
  have hyields : stream.read.Yields (c?, rest) := by
    rw [hread]
    rfl
  cases hcase with
  | waiting => exact ⟨_, _, [], hyields, .refl _, by simp⟩
  | ended => exact ⟨_, _, [], hyields, .refl _, by simp⟩
  | @char c bytes hpending hexhausted hnext =>
    obtain ⟨answers, taken, htakes, hcalling⟩ := ByteStream.calling_of_nextChar hnext
    refine ⟨_, _, answers, hyields, htakes.calls, ?_⟩
    intro hsilent
    cases hcalling with
    | char hplain => exact absurd hsilent hplain.not_mem
    | @within _ lead tail _ huntil hbuffer hcut =>
      use huntil
      have hbytes := htakes.bytes_eq
      rw [hbuffer, List.append_nil] at hbytes
      have hfresh : { stream with bytes := bytes }
          = { ofSource bytes.source stream.bytes.capacity with failure := stream.failure } := by
        rw [ofSource, ByteStream.ofSource, ← htakes.capacity_eq, ← hbuffer, hpending, hexhausted]
      rw [hfresh]
      exact .within hbytes hcut
  | silence hpending _ hnext =>
    obtain ⟨answers, taken, htakes, hcalling⟩ := ByteStream.calling_of_nextChar hnext
    refine ⟨_, _, answers, hyields, htakes.calls, ?_⟩
    intro _
    cases hcalling with
    | border huntil hbuffer =>
      use huntil
      have hbytes := htakes.bytes_eq
      rw [hbuffer, List.append_nil] at hbytes
      exact .border hbytes (Ended.isOver ⟨rfl, hpending⟩)
  | failed _ _ hnext =>
    obtain ⟨answers, taken, htakes, hcalling⟩ := ByteStream.calling_of_nextChar hnext
    refine ⟨_, _, answers, hyields, htakes.calls, ?_⟩
    intro hsilent
    cases hcalling with
    | failed huntil _ =>
      obtain ⟨front, hfront, rfl⟩ := huntil
      rcases List.mem_append.mp hsilent with hmem | hmem
      · exact absurd hmem hfront.not_mem
      · simp at hmem

/-- A sequence that is begun, a call that hands out nothing, and a byte after it. -/
def resumingWithin : Source :=
  .ofEvents [.data [0xC3], .data [], .data [0x61]]

/-- A byte after the end of the source is read as a character. -/
theorem read_after_silence :
  ∃ middle last, (ofSource resumingWithin 256).read.Yields (some Utf8.replacement, middle)
    ∧ resumingWithin.Answers 256 [.ok [0xC3], .ok []] middle.bytes.source
    ∧ middle.read.Yields (some 'a', last)
  := by
  have hlead : resumingWithin.fetch 256 = (.ok [0xC3], ⟨[.data [], .data [0x61]], 1, 1⟩) :=
    fetch_of_call_ok rfl
  have hsilence : (Source.mk [.data [], .data [0x61]] 1 1).fetch 256
      = (.ok [], ⟨[.data [0x61]], 2, 1⟩) := fetch_of_call_ok rfl
  have hbyte : (Source.mk [.data [0x61]] 2 1).fetch 256 = (.ok [0x61], ⟨[], 3, 2⟩) :=
    fetch_of_call_ok rfl
  have hannounced : Utf8.announced 0xC3 = some 1 := by decide
  have hannounced' : Utf8.announced 0x61 = some 0 := by decide
  have hscalar : Utf8.scalar 0x61 [] = 'a' := by decide
  use ofSource ⟨[.data [0x61]], 2, 1⟩ 256, ⟨⟨⟨[], 3, 2⟩, 256, []⟩, none, false, none⟩
  refine ⟨?_, .call rfl (.call rfl (.refl _)), ?_⟩
  · simp [CharStream.read, ofSource, ByteStream.ofSource, ByteStream.nextChar, ByteStream.peek,
      ByteStream.skip, ByteStream.completeChar, hlead, hsilence, hannounced]
  · simp [CharStream.read, ofSource, ByteStream.ofSource, ByteStream.nextChar, ByteStream.peek,
      ByteStream.skip, ByteStream.completeChar, hbyte, hannounced', hscalar]

end CharStream

end FrontEnd
