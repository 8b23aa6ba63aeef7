import FrontEnd.Proofs.Chars.Decks
import FrontEnd.Proofs.Faultless

/-!
# The end is permanent

Once a token stream has answered with the end, it answers with the end for ever, and once a
character stream has, no character is there but one that is pushed back; neither calls its source
again, whatever the source would still hand out (`end_permanent`).
-/

namespace FrontEnd

open Text

/-! ### Characters after the end -/

namespace CharStream

variable {stream rest : CharStream}

/-- The end is reached by the read that answers with it. -/
theorem ended_of_read (h : stream.read.Yields (none, rest)) :
  rest.Ended
  := by
  obtain ⟨next, hread, -, hpending, hended⟩ := stream.gives_text.read
  obtain ⟨hnone, rfl⟩ := Prod.mk.inj (h.unique hread)
  apply hended (List.head?_eq_none_iff.mp hnone.symm)

theorem Ended.deck_eq (h : stream.Ended) :
  stream.deck = Deck.spent stream.failure
  := by simp [deck, Deck.spent, h.exhausted, h.pending]

/-- A stream whose source has come to its end does not call it. -/
theorem respond_exhausted (h : stream.exhausted) (step : Step) :
  ∃ answer next, (stream.respond step).Yields (answer, next)
    ∧ next.exhausted ∧ next.bytes = stream.bytes
  := by
  obtain ⟨bytes, pending, exhausted, failure⟩ := stream
  obtain rfl : exhausted = true := h
  cases step with
  | takeFailure => exact ⟨_, _, rfl, rfl, rfl⟩
  | _ =>
    cases pending with
    | none => exact ⟨_, _, rfl, rfl, rfl⟩
    | some _ => exact ⟨_, _, rfl, rfl, rfl⟩

/-- After the end a stream answers as a place for one character, and its source is not called. -/
theorem Ended.session (h : stream.Ended) (steps : List Step) :
  ∃ last, (Run.session respond steps stream).Yields
      ((Deck.spent stream.failure).transcript steps, last)
    ∧ last.bytes.source = stream.bytes.source
  := by
  obtain ⟨last, hdeck⟩ := stream.session_deck steps
  rw [h.deck_eq] at hdeck
  have hstep : ∀ (middle : CharStream) (step : Step),
      middle.exhausted ∧ middle.bytes = stream.bytes →
      ∃ answer next, (middle.respond step).Yields (answer, next)
        ∧ True ∧ next.exhausted ∧ next.bytes = stream.bytes := by
    rintro middle step ⟨hexhausted, hbytes⟩
    obtain ⟨answer, next, hanswer, hnext, hsame⟩ := respond_exhausted hexhausted step
    use answer, next, hanswer, trivial, hnext
    rw [hsame, hbytes]
  obtain ⟨transcript, last', hsession, -, -, hbytes⟩ :=
    Run.exists_yields_session (Q := fun _ _ => True) hstep ⟨h.exhausted, rfl⟩ steps
  obtain ⟨-, rfl⟩ := Prod.mk.inj (hdeck.unique hsession)
  use last, hdeck
  rw [hbytes]

/-- At the end nothing is read. -/
theorem Ended.yields_read (h : stream.Ended) :
  stream.read.Yields (none, stream)
  := by simp [CharStream.read, h.pending, h.exhausted]

theorem Ended.yields_takeWhile (h : stream.Ended) (p : Char → Bool) :
  (stream.takeWhile p).Yields ([], stream)
  := by
  rw [CharStream.takeWhile]
  apply h.yields_read.attach_bind
  rfl

end CharStream

/-! ### Tokens after the end -/

namespace TokenStream

/-- What a token stream answers to a step. -/
inductive Answer where
  /-- The next token. -/
  | token (token : Token)
  /-- The next token, unless it is the end. -/
  | token? (token? : Option Token)
  /-- The failure that ended the source, unless there is none to take. -/
  | failure (failure? : Option Failure)
  deriving DecidableEq, Repr

/-- Whether an answer is that the end is there. -/
def Answer.isEnd : Answer → Bool
  | .token t => t.isEnd
  | .token? t? => t?.isNone
  | .failure _ => false

/-- The answer to a step and the stream after it. -/
def respond (stream : TokenStream) : Step → Run (Answer × TokenStream)
  | .next => (fun (token, rest) => (.token token, rest)) <$> stream.next
  | .next? => (fun (token?, rest) => (.token? token?, rest)) <$> stream.next?
  | .takeFailure => pure (.failure stream.takeFailure.1, stream.takeFailure.2)

variable {stream rest : TokenStream} {step : Step} {answer : Answer} {token : Token}

/-- The next token is left out where it is the end. -/
theorem yields_next? (h : stream.next.Yields (token, rest)) :
  stream.next?.Yields (if token.isEnd then none else some token, rest)
  := by
  apply h.bind
  rfl

/-- The end is reached by the step that takes the end token. -/
theorem ended_of_next (h : stream.next.Yields (token, rest)) (hend : token.isEnd) :
  rest.chars.Ended
  := by
  obtain ⟨ts, fate, hts⟩ := stream.exists_holds
  obtain ⟨next, hnext, -, hended⟩ := hts.next
  obtain ⟨rfl, rfl⟩ := Prod.mk.inj (h.unique hnext)
  cases ts with
  | nil => apply (hended rfl).ended
  | cons token ts =>
    have hfalse := hts.isEnd_eq token List.mem_cons_self
    rw [List.headD_cons, hfalse] at hend
    contradiction

theorem ended_of_respond (h : (stream.respond step).Yields (answer, rest)) (hend : answer.isEnd) :
  rest.chars.Ended
  := by
  cases step with
  | next =>
    obtain ⟨⟨token, next⟩, hnext, hanswer⟩ := Run.yields_map.mp h
    obtain ⟨rfl, rfl⟩ := Prod.mk.inj hanswer
    apply ended_of_next hnext hend
  | next? =>
    obtain ⟨⟨token?, next⟩, hnext?, hanswer⟩ := Run.yields_map.mp h
    obtain ⟨rfl, rfl⟩ := Prod.mk.inj hanswer
    obtain ⟨⟨token, last⟩, hnext, hpure⟩ := Run.yields_bind.mp hnext?
    obtain ⟨rfl, rfl⟩ := Prod.mk.inj (Run.yields_pure.mp hpure)
    apply ended_of_next hnext
    simpa [Answer.isEnd] using hend
  | takeFailure =>
    obtain ⟨rfl, -⟩ := Prod.mk.inj (Run.yields_pure.mp h)
    simp [Answer.isEnd] at hend

/-- At the end there is the end token, again and again. -/
theorem yields_next_of_ended (h : stream.chars.Ended) :
  stream.next.Yields (.endOfInput, stream)
  := by
  apply yields_next (h.yields_takeWhile isBlank)
  apply h.yields_read.bind
  rfl

theorem respond_ended (h : stream.chars.Ended) (step : Step) :
  ∃ answer next, (stream.respond step).Yields (answer, next)
    ∧ (step ≠ .takeFailure → answer.isEnd)
    ∧ next.chars.Ended ∧ next.chars.bytes = stream.chars.bytes
  := by
  have hnext := yields_next_of_ended h
  cases step with
  | next => use .token .endOfInput, stream, hnext.map _, fun _ => rfl, h
  | next? => use .token? none, stream, (yields_next? hnext).map _, fun _ => rfl, h
  | takeFailure =>
    use .failure stream.takeFailure.1, stream.takeFailure.2, rfl, absurd rfl
    exact ⟨⟨h.exhausted, h.pending⟩, rfl⟩

end TokenStream

/-- Once a token stream has answered with the end, it does so for ever: with the end token, or with
no token where the end is left out. Once reading a character stream has come to the end, the stream
answers as one without characters does, with a place for one that is pushed back. In both cases the
source is not called again, whatever it would still hand out. -/
theorem end_permanent :
  (∀ (stream rest : TokenStream) (step : TokenStream.Step) (answer : TokenStream.Answer),
      (stream.respond step).Yields (answer, rest) → answer.isEnd → ∀ steps, ∃ transcript last,
        (Run.session TokenStream.respond steps rest).Yields (transcript, last)
        ∧ (∀ entry ∈ transcript, entry.1 ≠ .takeFailure → entry.2.isEnd)
        ∧ last.chars.bytes.source = rest.chars.bytes.source)
    ∧ ∀ stream rest : CharStream, stream.read.Yields (none, rest) → ∀ steps, ∃ last,
        (Run.session CharStream.respond steps rest).Yields
          ((Deck.spent rest.failure).transcript steps, last)
        ∧ last.bytes.source = rest.bytes.source
  := by
  constructor
  · intro stream rest step answer hanswer hend steps
    have hstep : ∀ (middle : TokenStream) (step : TokenStream.Step),
        middle.chars.Ended ∧ middle.chars.bytes = rest.chars.bytes →
        ∃ answer next, (middle.respond step).Yields (answer, next)
          ∧ (step ≠ .takeFailure → answer.isEnd)
          ∧ next.chars.Ended ∧ next.chars.bytes = rest.chars.bytes := by
      rintro middle step ⟨hended, hbytes⟩
      obtain ⟨answer, next, hanswer, hlast, hnext, hsame⟩ := TokenStream.respond_ended hended step
      use answer, next, hanswer, hlast, hnext
      rw [hsame, hbytes]
    obtain ⟨transcript, last, hsession, hall, -, hbytes⟩ :=
      Run.exists_yields_session hstep ⟨TokenStream.ended_of_respond hanswer hend, rfl⟩ steps
    use transcript, last, hsession, hall
    rw [hbytes]
  · intro stream rest hread steps
    apply (CharStream.ended_of_read hread).session

/-- A source that hands nothing out, and then a byte. -/
def resuming : Source :=
  .ofEvents [.data [], .data [0x61]]

theorem nextChar_resuming :
  (ByteStream.ofSource resuming 256).nextChar
    = (.ok none, ⟨⟨[.data [0x61]], 1, 0⟩, 256, []⟩)
  := by
  have hfetch : resuming.fetch 256 = (.ok [], ⟨[.data [0x61]], 1, 0⟩) :=
    Source.fetch_of_call_ok rfl
  simp [ByteStream.nextChar, ByteStream.peek, ByteStream.ofSource, hfetch]

/-- The byte after the end is read neither as a token nor as a character. -/
theorem end_permanent_resuming :
  (∃ rest, ((TokenStream.ofSource resuming).respond .next).Yields (.token .endOfInput, rest)
      ∧ ∃ transcript last,
        (Run.session TokenStream.respond [.next, .takeFailure, .next?] rest).Yields
          (transcript, last)
        ∧ ∀ entry ∈ transcript, entry.1 ≠ .takeFailure → entry.2.isEnd)
    ∧ ∃ rest last, (CharStream.ofSource resuming 256).read.Yields (none, rest)
      ∧ (Run.session CharStream.respond [.peek, .unread 'b', .read, .read] rest).Yields
          ([(.peek, .char none), (.unread 'b', .pushed), (.read, .char (some 'b')),
            (.read, .char none)], last)
      ∧ last.bytes.source.events = [.data [0x61]]
  := by
  constructor
  · have hcontent := ByteStream.content_of_end nextChar_resuming
    have hgives : (TokenStream.ofSource resuming).Gives [] none := by
      constructor
      · simp [CharStream.text, TokenStream.ofSource, CharStream.ofSource, CharStream.defaultCapacity,
          hcontent]
      · simp [CharStream.fate, TokenStream.ofSource, CharStream.ofSource, CharStream.defaultCapacity,
          hcontent]
    obtain ⟨rest, hnext, -⟩ := hgives.next_end rfl
    have hrespond : ((TokenStream.ofSource resuming).respond .next).Yields
        (.token .endOfInput, rest) := hnext.map _
    obtain ⟨transcript, last, hsession, hall, -⟩ :=
      end_permanent.1 _ _ _ _ hrespond rfl [.next, .takeFailure, .next?]
    use rest, hrespond, transcript, last, hsession
  · have hread : (CharStream.ofSource resuming 256).read.Yields
        (none, ⟨⟨⟨[.data [0x61]], 1, 0⟩, 256, []⟩, none, true, none⟩) := by
      simp [CharStream.read, CharStream.ofSource, nextChar_resuming]
    obtain ⟨last, hsession, hsource⟩ :=
      end_permanent.2 _ _ hread [.peek, .unread 'b', .read, .read]
    use ⟨⟨⟨[.data [0x61]], 1, 0⟩, 256, []⟩, none, true, none⟩, last, hread, hsession
    rw [hsource]

end FrontEnd
