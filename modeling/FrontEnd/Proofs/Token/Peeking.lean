import FrontEnd.Proofs.Chars.Reading
import FrontEnd.Proofs.Log.Ensuring
import FrontEnd.Proofs.Token.Lexeme
import FrontEnd.Token.Stream

/-!
# What waits after a token

A token that could go on with the next character looks at that character, which then waits in the
stream. Any other token is taken without a look at what comes after it, so that nothing waits then
(`TokenStream.ensures_next`).
-/

namespace FrontEnd

open Text

/-! ### Kinds that look ahead -/

namespace Kind

/-- Whether the next character decides where a token of this kind ends. -/
def looksAhead (kind : Kind) : Bool :=
  kind.isReserved || kind ∈ [identifier, number, assign, bang]

theorem looksAhead_ofWord (word : String) :
  (ofWord word).looksAhead
  := by
  have hreserved : ∀ entry ∈ reservedWords, entry.2.looksAhead := by decide
  by_cases hmem : ∃ kind, (word, kind) ∈ reservedWords
  · obtain ⟨kind, hmem⟩ := hmem
    rw [ofWord_of_mem _ hmem]
    apply hreserved _ hmem
  · rw [ofWord_of_not_mem (not_exists.mp hmem)]
    rfl

theorem looksAhead_of_ofSymbol? {c : Char} {kind : Kind} (h : ofSymbol? c = some kind) :
  kind.looksAhead = false
  := by
  unfold ofSymbol? at h
  split at h
  case h_13 => contradiction
  all_goals
    obtain rfl := Option.some.inj h
    rfl

end Kind

/-! ### Looking at a character -/

namespace CharStream

variable {stream : CharStream} {token : Token} {c first : Char}

/-- The next character, if there is one, waits in the stream. -/
def Peeked (stream : CharStream) : Prop :=
  stream.pending = stream.text.head?

theorem peeked_of_pending (h : stream.pending = some c) :
  stream.Peeked
  := by simp [Peeked, text, h]

theorem Ended.peeked (h : stream.Ended) :
  stream.Peeked
  := by simp [Peeked, text, h.pending, h.exhausted]

/-- A read leaves nothing waiting, and it is the end that it leaves if no character was there. -/
theorem ensures_read (stream : CharStream) :
  stream.read.Ensures fun answer _ => answer.2.pending = none ∧ (answer.1 = none → answer.2.Ended)
  := by
  constructor
  rintro ⟨c?, next⟩ hyields
  obtain ⟨next', hread, -, hpending, hended⟩ := stream.gives_text.read
  obtain ⟨rfl, rfl⟩ := Prod.mk.inj (hyields.unique hread)
  use hpending
  intro hnone
  apply hended (List.head?_eq_none_iff.mp hnone)

/-- A character that is pushed back waits in the stream then. -/
theorem ensures_unread {α : Type} (stream : CharStream) (c : Char) {answer : CharStream → α}
    {P : α → List Record → Prop} (h : ∀ next : CharStream, next.Peeked → P (answer next) []) :
  (do return answer (← stream.unread c) : Run α).Ensures P
  := by
  have hunread : (liftM (stream.unread c) : Run CharStream).Ensures
      fun next log => next.Peeked ∧ log = [] := by
    apply Run.ensures_lift
    intro next hnext
    obtain rfl := eq_of_unread hnext
    exact ⟨peeked_of_pending rfl, rfl⟩
  apply hunread.bind
  rintro next log ⟨hpeeked, rfl⟩
  apply Run.ensures_pure
  apply h next hpeeked

/-- The character that ends a run of characters waits. -/
theorem ensures_takeWhile (p : Char → Bool) (stream : CharStream) :
  (stream.takeWhile p).Ensures fun answer _ => answer.2.Peeked
  := by
  fun_induction CharStream.takeWhile p stream with
  | case1 stream ih =>
    apply stream.ensures_read.attach_bind
    rintro ⟨c | c, next⟩ hread log ⟨-, hended⟩
    · apply Run.ensures_pure
      apply (hended rfl).peeked
    · dsimp only
      split
      · apply Run.Ensures.map
        apply ih c next hread
      · apply next.ensures_unread c
        intro last hlast
        apply hlast

/-- What is peeked at waits. -/
theorem ensures_peek (stream : CharStream) :
  stream.peek.Ensures fun answer _ => answer.2.Peeked
  := by
  apply stream.ensures_read.bind
  rintro ⟨c | c, next⟩ log ⟨-, hended⟩
  · apply Run.ensures_pure
    apply (hended rfl).peeked
  · apply next.ensures_unread c
    intro last hlast
    apply hlast

theorem ensures_fraction (stream : CharStream) :
  stream.fraction.Ensures fun answer _ => answer.2.Peeked
  := by
  apply stream.ensures_read.bind
  rintro ⟨c | c, next⟩ log ⟨-, hended⟩
  · apply Run.ensures_pure
    apply (hended rfl).peeked
  · dsimp only
    split
    · apply (next.ensures_takeWhile _).bind
      rintro ⟨digits, last⟩ log' hlast
      apply Run.ensures_pure hlast
    · apply next.ensures_unread c
      intro last hlast
      apply hlast

/-! ### Tokens -/

/-- The next character waits after a token that looks ahead, if there is one, and nothing waits
after any other token. -/
def WaitsAfter (token : Token) (stream : CharStream) : Prop :=
  stream.pending = if token.kind.looksAhead then stream.text.head? else none

theorem Peeked.waitsAfter (h : stream.Peeked) (hkind : token.kind.looksAhead) :
  WaitsAfter token stream
  := by
  rw [WaitsAfter, if_pos hkind]
  apply h

theorem waitsAfter_of_none (h : stream.pending = none) (hkind : token.kind.looksAhead = false) :
  WaitsAfter token stream
  := by
  rw [WaitsAfter, hkind]
  apply h

/-- Making a token leaves what waits. -/
theorem ensures_make {kind : Kind} {literal : String} (h : WaitsAfter ⟨kind, literal⟩ stream) :
  (do return (← Token.make kind literal, stream) : Run (Token × CharStream)).Ensures
    fun answer _ => WaitsAfter answer.1 answer.2
  := by
  have hmake : (liftM (Token.make kind literal) : Run Token).Ensures
      fun token _ => token = ⟨kind, literal⟩ := by
    apply Run.ensures_lift
    intro token htoken
    apply (Token.make_eq_ok_iff.mp htoken).2
  apply hmake.bind
  rintro token log rfl
  apply Run.ensures_pure h

theorem ensures_wordAfter (first : Char) (stream : CharStream) :
  (stream.wordAfter first).Ensures fun answer _ => WaitsAfter answer.1 answer.2
  := by
  apply (stream.ensures_takeWhile _).bind
  rintro ⟨rest, next⟩ log hnext
  apply ensures_make
  apply hnext.waitsAfter
  apply Kind.looksAhead_ofWord

theorem ensures_numberAfter (first : Char) (stream : CharStream) :
  (stream.numberAfter first).Ensures fun answer _ => WaitsAfter answer.1 answer.2
  := by
  apply (stream.ensures_takeWhile _).bind
  rintro ⟨whole, middle⟩ log -
  apply middle.ensures_fraction.bind
  rintro ⟨part, next⟩ log' hnext
  apply ensures_make
  apply hnext.waitsAfter rfl

/-- A token of two characters is taken with the second one, and a token of one was ended by a look at
the next character. -/
theorem ensures_equalsAfter {one two : Kind} {alone both : Token}
    (hone : Token.fixed? one = some alone) (htwo : Token.fixed? two = some both)
    (halone : alone.kind.looksAhead) (hboth : both.kind.looksAhead = false)
    (stream : CharStream) :
  (stream.equalsAfter one two).Ensures fun answer _ => WaitsAfter answer.1 answer.2
  := by
  rw [equalsAfter, hone, htwo]
  apply stream.ensures_peek.bind
  rintro ⟨c?, next⟩ log hnext
  split
  · apply (ensures_read _).bind
    rintro ⟨_, last⟩ log' ⟨hlast, -⟩
    apply Run.ensures_pure
    apply waitsAfter_of_none hlast hboth
  · next heq =>
    obtain ⟨-, rfl⟩ := Prod.mk.inj heq
    apply Run.ensures_pure
    apply Peeked.waitsAfter hnext halone

/-- What waits after a token depends on its kind only, where its first character was read. -/
theorem ensures_tokenAfter (h : stream.pending = none) (first : Char) :
  (stream.tokenAfter first).Ensures fun answer _ => WaitsAfter answer.1 answer.2
  := by
  unfold tokenAfter
  split
  · apply ensures_equalsAfter rfl rfl rfl rfl
  split
  · apply ensures_equalsAfter rfl rfl rfl rfl
  split
  · apply ensures_wordAfter
  split
  · apply ensures_numberAfter
  split
  · next kind hkind =>
    apply ensures_make
    apply waitsAfter_of_none h (Kind.looksAhead_of_ofSymbol? hkind)
  · apply Run.ensures_tell_bind
    apply Run.ensures_pure
    apply waitsAfter_of_none h rfl

theorem ensures_nextToken (stream : CharStream) :
  stream.nextToken.Ensures fun answer _ => WaitsAfter answer.1 answer.2
  := by
  apply stream.ensures_read.bind
  rintro ⟨c | c, next⟩ log ⟨hpending, -⟩
  · apply Run.ensures_pure
    apply waitsAfter_of_none hpending rfl
  · apply ensures_tokenAfter hpending c

end CharStream

/-- After a token the next character waits in the stream if the token looks ahead, and nothing waits
otherwise, however the stream came to where it was. -/
theorem TokenStream.ensures_next (stream : TokenStream) :
  stream.next.Ensures fun answer _ => CharStream.WaitsAfter answer.1 answer.2.chars
  := by
  apply (stream.chars.ensures_takeWhile isBlank).bind
  rintro ⟨_, chars⟩ log -
  apply chars.ensures_nextToken.bind
  rintro ⟨token, last⟩ log' hlast
  apply Run.ensures_tell_bind
  apply Run.ensures_pure hlast

end FrontEnd
