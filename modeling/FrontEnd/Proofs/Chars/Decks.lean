import FrontEnd.Proofs.Chars.Reading
import FrontEnd.Proofs.Log.Sessions

/-!
# Character streams as lists

A deck is a list of characters to be read one after the other, with a place for one that is put
back, and with the failure that comes after them, if there is one. A character stream answers as the
deck of its characters does, whatever is done with it and whatever its source does
(`session_deck`).
-/

namespace FrontEnd

namespace CharStream

/-- Something that can be done with a character stream. -/
inductive Step where
  /-- Take the next character. -/
  | read
  /-- Look at the next character. -/
  | peek
  /-- Push a character back. -/
  | unread (c : Char)
  /-- Take the failure that ended the source. -/
  | takeFailure
  deriving DecidableEq, Repr

/-- What a character stream answers to a step. -/
inductive Answer where
  /-- The next character, unless the end is there. -/
  | char (c? : Option Char)
  /-- The character was pushed back. -/
  | pushed
  /-- No character can be pushed back where one is waiting. -/
  | refused
  /-- The failure that ended the source, unless there is none to take. -/
  | failure (failure? : Option Failure)
  deriving DecidableEq, Repr

/-- The answer to a step and the stream after it. A step that is refused leaves the stream. -/
def respond (stream : CharStream) : Step → Run (Answer × CharStream)
  | .read => (fun (c?, next) => (.char c?, next)) <$> stream.read
  | .peek => (fun (c?, next) => (.char c?, next)) <$> stream.peek
  | .unread c =>
    match stream.unread c with
    | .ok next => pure (.pushed, next)
    | .error _ => pure (.refused, stream)
  | .takeFailure => pure (.failure stream.takeFailure.1, stream.takeFailure.2)

end CharStream

/-! ### Decks -/

/-- Characters to be read one after the other. -/
structure Deck where
  /-- The character that was put back. -/
  waiting : Option Char
  /-- The characters after it. -/
  chars : List Char
  /-- The failure that is there when no character is left. -/
  fate : Option Failure
  /-- The failure that was found, until it is taken. -/
  failure : Option Failure

namespace Deck

/-- The deck without characters, where this failure was found. -/
def spent (failure : Option Failure) : Deck :=
  ⟨none, [], none, failure⟩

/-- The first character, and the deck without it. -/
def draw (deck : Deck) : Option Char × Deck :=
  match deck.waiting, deck.chars with
  | some c, _ => (some c, { deck with waiting := none })
  | none, c :: cs => (some c, { deck with chars := cs })
  | none, [] => (none, spent (deck.fate.or deck.failure))

/-- The answer to a step and the deck after it. -/
def respond (deck : Deck) : CharStream.Step → CharStream.Answer × Deck
  | .read => (.char deck.draw.1, deck.draw.2)
  | .peek => (.char deck.draw.1, { deck.draw.2 with waiting := deck.draw.1 })
  | .unread c =>
    match deck.waiting with
    | none => (.pushed, { deck with waiting := some c })
    | some _ => (.refused, deck)
  | .takeFailure => (.failure deck.failure, { deck with failure := none })

/-- The transcript of these steps. -/
def transcript (deck : Deck) : List CharStream.Step → List (CharStream.Step × CharStream.Answer)
  | [] => []
  | step :: steps => (step, (deck.respond step).1) :: (deck.respond step).2.transcript steps

end Deck

namespace CharStream

/-- The characters that a stream is about to give. -/
def deck (stream : CharStream) : Deck where
  waiting := stream.pending
  chars := if stream.exhausted then [] else stream.bytes.content.1
  fate := if stream.exhausted then none else stream.bytes.content.2
  failure := stream.failure

/-- Reading draws from the deck. -/
theorem read_deck (stream : CharStream) :
  ∃ next, stream.read.Yields (stream.deck.draw.1, next) ∧ next.deck = stream.deck.draw.2
    ∧ next.pending = none
  := by
  obtain ⟨c?, next, log, hread, hcase⟩ := stream.read_cases
  use next
  rw [hread]
  cases hcase with
  | waiting hpending => simp [Run.Yields, deck, Deck.draw, hpending]
  | ended hpending hexhausted =>
    simp [Run.Yields, deck, Deck.draw, Deck.spent, hpending, hexhausted]
  | char hpending hexhausted hnext =>
    have hcontent := ByteStream.content_of_char hnext
    simp [Run.Yields, deck, Deck.draw, hpending, hexhausted, hcontent]
  | silence hpending hexhausted hnext =>
    have hcontent := ByteStream.content_of_end hnext
    simp [Run.Yields, deck, Deck.draw, Deck.spent, hpending, hexhausted, hcontent]
  | failed hpending hexhausted hnext =>
    have hcontent := ByteStream.content_of_failure hnext
    simp [Run.Yields, deck, Deck.draw, Deck.spent, hpending, hexhausted, hcontent]

/-- Peeking puts back what was drawn. -/
theorem peek_deck (stream : CharStream) :
  ∃ next, stream.peek.Yields (stream.deck.draw.1, next)
    ∧ next.deck = { stream.deck.draw.2 with waiting := stream.deck.draw.1 }
  := by
  obtain ⟨next, hread, hnext, hpending⟩ := stream.read_deck
  cases hdrawn : stream.deck.draw.1 with
  | none =>
    rw [hdrawn] at hread
    use next
    constructor
    · apply hread.bind
      rfl
    · rw [← hnext]
      simp [deck, hpending]
  | some c =>
    rw [hdrawn] at hread
    use { next with pending := some c }
    constructor
    · apply hread.bind
      apply Run.lift_bind (a := { next with pending := some c })
      · simp only [CharStream.unread, hpending]
      · rfl
    · rw [← hnext]
      rfl

/-- A step comes to the answer of the deck. -/
theorem respond_deck (stream : CharStream) (step : Step) :
  ∃ next, (stream.respond step).Yields ((stream.deck.respond step).1, next)
    ∧ next.deck = (stream.deck.respond step).2
  := by
  cases step with
  | read =>
    obtain ⟨next, hread, hnext, -⟩ := stream.read_deck
    use next, hread.map _
    apply hnext
  | peek =>
    obtain ⟨next, hpeek, hnext⟩ := stream.peek_deck
    use next, hpeek.map _
    apply hnext
  | unread c =>
    obtain ⟨bytes, pending, exhausted, failure⟩ := stream
    cases pending with
    | none => exact ⟨_, rfl, rfl⟩
    | some _ => exact ⟨_, rfl, rfl⟩
  | takeFailure => exact ⟨_, rfl, rfl⟩

/-- A character stream answers as its deck, whatever is done with it. -/
theorem session_deck (stream : CharStream) (steps : List Step) :
  ∃ last, (Run.session respond steps stream).Yields (stream.deck.transcript steps, last)
  := by
  induction steps generalizing stream with
  | nil => use stream; rfl
  | cons step steps ih =>
    obtain ⟨next, hstep, hnext⟩ := stream.respond_deck step
    obtain ⟨last, hlast⟩ := ih next
    use last
    apply hstep.session_cons
    rwa [← hnext]

end CharStream

end FrontEnd
