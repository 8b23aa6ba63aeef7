import FrontEnd.Proofs.Chars.Decoding
import FrontEnd.Proofs.Permanence
import FrontEnd.Proofs.Token.Peeking

/-!
# Bounded lookahead

Whatever tokens are taken from a source, the characters that were decoded for them are the white
space before them and their own, and at most one more, which waits in the stream: a token that looks
ahead has left it there, and any other token was taken before that character was decoded
(`lookahead_bounded`).
-/

namespace FrontEnd

open Text

/-! ### Tiles off the front -/

/-- The characters of a tile. -/
def Tile.chars (tile : Tile) : List Char :=
  tile.blank ++ tile.text

/-- Taking these tiles off the front of the characters leaves the rest. A tile is the white space at
the front and the longest lexeme after it. Where there is nothing but white space, it is this and
the end, which has no text. -/
inductive Leaves : List Char → List Tile → List Char → Prop where
  | refl (cs : List Char) : Leaves cs [] cs
  | token {cs text middle rest : List Char} {token : Token} {tiles : List Tile}
      (hmunch : Munch (cs.dropWhile isBlank) text middle token) (hrest : Leaves middle tiles rest) :
      Leaves cs (⟨cs.takeWhile isBlank, text, token⟩ :: tiles) rest
  | ended {cs rest : List Char} {tiles : List Tile} (hblank : ∀ c ∈ cs, isBlank c)
      (hrest : Leaves [] tiles rest) :
      Leaves cs (⟨cs, [], .endOfInput⟩ :: tiles) rest

namespace Leaves

variable {cs middle rest : List Char} {tiles tiles' : List Tile}

theorem trans (h : Leaves cs tiles middle) (h' : Leaves middle tiles' rest) :
  Leaves cs (tiles ++ tiles') rest
  := by
  induction h with
  | refl => apply h'
  | token hmunch _ ih => exact .token hmunch (ih h')
  | ended hblank _ ih => exact .ended hblank (ih h')

/-- The characters are those of the tiles, and the rest. -/
theorem eq_append (h : Leaves cs tiles rest) :
  cs = tiles.flatMap Tile.chars ++ rest
  := by
  induction h with
  | refl => rfl
  | token hmunch _ ih =>
    rw [List.flatMap_cons, List.append_assoc, ← ih, Tile.chars, List.append_assoc, ← hmunch.split,
      List.takeWhile_append_dropWhile]
  | ended _ _ ih => rw [List.flatMap_cons, List.append_assoc, ← ih, Tile.chars, List.append_nil,
      List.append_nil]

end Leaves

namespace TokenStream

variable {start stream : TokenStream} {tiles : List Tile}

/-! ### One token -/

/-- The next token takes a tile off the characters of the stream. -/
theorem exists_leaves_next (stream : TokenStream) :
  ∃ tile next, stream.next.Yields (tile.token, next)
    ∧ Leaves stream.chars.text [tile] next.chars.text
    ∧ (tile.token.isEnd → tile.token = .endOfInput)
  := by
  have hgives : stream.Gives stream.chars.text stream.chars.fate := stream.chars.gives_text
  by_cases hblank : stream.chars.text.dropWhile isBlank = []
  · obtain ⟨next, hnext, hended⟩ := hgives.next_end hblank
    use ⟨stream.chars.text, [], .endOfInput⟩, next, hnext
    constructor
    · rw [CharStream.Gives.text_eq hended.gives]
      exact .ended (List.dropWhile_eq_nil_iff.mp hblank) (.refl [])
    · intro _
      rfl
  · obtain ⟨text, rest, token, next, hnext, hmunch, hrest⟩ := hgives.next_token hblank
    use ⟨stream.chars.text.takeWhile isBlank, text, token⟩, next, hnext
    constructor
    · rw [CharStream.Gives.text_eq hrest]
      exact .token hmunch (.refl rest)
    · simp [hmunch.lexeme.isEnd_eq]

/-! ### Any tokens -/

/-- From one stream to the other these tiles were taken, with what was decoded for them and what
waits after the last of them. -/
structure Passes (start : TokenStream) (tiles : List Tile) (stream : TokenStream) : Prop where
  leaves : Leaves start.chars.text tiles stream.chars.text
  decodes : ∃ cs, start.chars.bytes.Decodes cs stream.chars.bytes
    ∧ start.chars.deck.chars = cs ++ stream.chars.deck.chars
  waits : stream.chars.pending = if tiles.getLast?.any (·.token.kind.looksAhead) then
    stream.chars.text.head? else none

theorem passes_start (source : Source) :
  (ofSource source).Passes [] (ofSource source)
  := ⟨.refl _, ⟨[], .refl _, rfl⟩, rfl⟩

/-- One more token is one more tile. -/
theorem Passes.next (h : start.Passes tiles stream) :
  ∃ tile next, stream.next.Yields (tile.token, next) ∧ start.Passes (tiles ++ [tile]) next
    ∧ (tile.token.isEnd → tile.token = .endOfInput)
  := by
  obtain ⟨tile, next, hnext, hleaves, hend⟩ := stream.exists_leaves_next
  obtain ⟨cs, hdecodes, hchars⟩ := h.decodes
  obtain ⟨cs', hdecodes', hchars'⟩ := (stream.reachesBy_next.goes hnext).decodes
  have hwaits := stream.ensures_next.of_yields _ hnext
  use tile, next, hnext
  refine ⟨⟨h.leaves.trans hleaves, ⟨cs ++ cs', hdecodes.trans hdecodes', ?_⟩, ?_⟩, hend⟩
  · rw [hchars, hchars', List.append_assoc]
  · rw [List.getLast?_concat]
    apply hwaits

/-- Taking the failure passes nothing. -/
theorem Passes.takeFailure (h : start.Passes tiles stream) :
  start.Passes tiles stream.takeFailure.2
  := ⟨h.leaves, h.decodes, h.waits⟩

/-- The tokens that an answer tells of; one that leaves the end out tells of the end. -/
def Answer.tokens : Answer → List Token
  | .token t => [t]
  | .token? t? => [t?.getD .endOfInput]
  | .failure _ => []

/-- The tokens that the answers of a transcript tell of. -/
def tokensOf (transcript : List (Step × Answer)) : List Token :=
  transcript.flatMap fun entry => entry.2.tokens

/-- A step passes the tokens that it answers. -/
theorem Passes.respond (h : start.Passes tiles stream) (step : Step) :
  ∃ answer next more, (stream.respond step).Yields (answer, next)
    ∧ more.map Tile.token = answer.tokens ∧ start.Passes (tiles ++ more) next
  := by
  obtain ⟨tile, next, hnext, hpasses, hend⟩ := h.next
  cases step with
  | next => use .token tile.token, next, [tile], hnext.map _, rfl
  | next? =>
    use .token? (if tile.token.isEnd then none else some tile.token), next, [tile]
    use (yields_next? hnext).map _
    constructor
    · rw [List.map_singleton, Answer.tokens]
      split
      · next hisEnd => rw [hend hisEnd, Option.getD_none]
      · rfl
    · apply hpasses
  | takeFailure =>
    use .failure stream.takeFailure.1, stream.takeFailure.2, [], rfl, rfl
    rw [List.append_nil]
    apply h.takeFailure

/-- A session passes the tokens of its transcript. -/
theorem Passes.session (h : start.Passes tiles stream) (steps : List Step) :
  ∃ transcript last more, (Run.session TokenStream.respond steps stream).Yields (transcript, last)
    ∧ more.map Tile.token = tokensOf transcript ∧ start.Passes (tiles ++ more) last
  := by
  induction steps generalizing stream tiles with
  | nil =>
    use [], stream, [], rfl, rfl
    rwa [List.append_nil]
  | cons step steps ih =>
    obtain ⟨answer, next, more, hstep, hmore, hnext⟩ := h.respond step
    obtain ⟨transcript, last, rest, hsession, hrest, hlast⟩ := ih hnext
    use (step, answer) :: transcript, last, more ++ rest, hstep.session_cons hsession
    constructor
    · rw [List.map_append, hmore, hrest]
      rfl
    · rwa [← List.append_assoc]

end TokenStream

/-- Lookahead is bounded. Whatever tokens were taken from a source, the characters that were decoded
until then are those of the tokens with the white space before them, and the one that waits in the
stream, if there is one. It waits there exactly if there is a further character and the last token
was one that looks ahead. -/
theorem lookahead_bounded (source : Source) :
  ∃ cs last, (CharStream.ofSource source CharStream.defaultCapacity).readAll.Yields (cs, last)
    ∧ ∀ steps, ∃ transcript stream tiles rest decoded,
      (Run.session TokenStream.respond steps (.ofSource source)).Yields (transcript, stream)
      ∧ tiles.map Tile.token = TokenStream.tokensOf transcript
      ∧ Leaves cs tiles rest
      ∧ (ByteStream.ofSource source CharStream.defaultCapacity).Decodes decoded stream.chars.bytes
      ∧ (∀ other, (ByteStream.ofSource source CharStream.defaultCapacity).Decodes other
            stream.chars.bytes → other = decoded)
      ∧ decoded = tiles.flatMap Tile.chars ++ stream.chars.pending.toList
      ∧ stream.chars.pending
        = if tiles.getLast?.any (·.token.kind.looksAhead) then rest.head? else none
  := by
  have hgives := (CharStream.ofSource source CharStream.defaultCapacity).gives_text
  obtain ⟨last, hread, -⟩ := hgives.readAll
  use (CharStream.ofSource source CharStream.defaultCapacity).text, last, hread
  intro steps
  obtain ⟨transcript, stream, tiles, hsession, htokens, hpasses⟩ :=
    (TokenStream.passes_start source).session steps
  obtain ⟨decoded, hdecodes, hchars⟩ := hpasses.decodes
  use transcript, stream, tiles, stream.chars.text, decoded, hsession, htokens, hpasses.leaves
  refine ⟨hdecodes, fun other hother => hother.unique hdecodes, ?_, hpasses.waits⟩
  -- Both ways of counting leave the characters that are still to be decoded.
  have hcount := calc decoded ++ stream.chars.deck.chars
    _ = (TokenStream.ofSource source).chars.text := hchars.symm
    _ = tiles.flatMap Tile.chars ++ stream.chars.text := hpasses.leaves.eq_append
    _ = tiles.flatMap Tile.chars ++ stream.chars.pending.toList ++ stream.chars.deck.chars :=
        (List.append_assoc _ _ _).symm
  apply List.append_cancel_right hcount

end FrontEnd
