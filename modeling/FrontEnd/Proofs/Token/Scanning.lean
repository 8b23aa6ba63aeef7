import FrontEnd.Proofs.Chars.Reading
import FrontEnd.Proofs.Text.Encoding
import FrontEnd.Proofs.Token.Tiling
import FrontEnd.Token.Stream

/-!
# Scanning tokens

A token stream over the characters `cs` gives the tokens of a tiling of `cs`. What a token
takes from the characters is the longest lexeme at their front, whatever the source does.
-/

namespace FrontEnd

open Text

theorem Token.make_of_admits {kind : Kind} {literal : String} (h : kind.admits literal) :
  Token.make kind literal = .ok ⟨kind, literal⟩
  := make_eq_ok_iff.mpr ⟨h, rfl⟩

namespace Kind

theorem admits_of_mem_reservedWords :
  ∀ entry ∈ reservedWords, entry.2.admits entry.1
  := by decide

theorem admits_of_mem_symbols :
  ∀ entry ∈ symbols, entry.2.admits (String.singleton entry.1)
  := by decide

/-- A word is admitted by its kind. -/
theorem admits_ofWord {word : String} (h : word ≠ "") :
  (ofWord word).admits word
  := by
  by_cases hmem : ∃ kind, (word, kind) ∈ reservedWords
  · obtain ⟨kind, hmem⟩ := hmem
    rw [ofWord_of_mem _ hmem]
    exact admits_of_mem_reservedWords _ hmem
  · have hidentifier := ofWord_of_not_mem (not_exists.mp hmem)
    simp [hidentifier, admits, h]

theorem admits_number {first : Char} (h : first.isDigit) (rest : List Char) :
  number.admits (String.ofList (first :: rest))
  := by simp [admits, h]

end Kind

/-- The literal of a lexeme is one that its kind admits. -/
theorem Lexeme.admitted {text : List Char} {token : Token} (h : Lexeme text token) :
  token.Admitted
  := by
  cases h with
  | reserved _ h => apply Kind.admits_of_mem_reservedWords _ h
  | identifier hne _ h =>
    have hword : String.ofList text ≠ "" := by simpa using hne
    rw [← Kind.ofWord_of_not_mem h]
    apply Kind.admits_ofWord hword
  | @number whole part hne hwhole _ =>
    obtain ⟨first, whole, rfl⟩ := List.exists_cons_of_ne_nil hne
    apply Kind.admits_number (hwhole first List.mem_cons_self)
  | equal => rfl
  | notEqual => rfl
  | symbol h => apply Kind.admits_of_mem_symbols _ h
  | stray => rfl

/-! ### Tokens by their first character -/

namespace CharStream

/-- The run takes the longest lexeme at the front of `cs`, and the stream after it gives the
rest. -/
def Scans (run : Run (Token × CharStream)) (cs : List Char) (fate : Option Failure) : Prop :=
  ∃ text rest token next, run.Yields (token, next) ∧ Munch cs text rest token
    ∧ next.Gives rest fate

variable {stream : CharStream} {cs : List Char} {fate : Option Failure} {first : Char}

theorem scans_of_munch {run : Run (Token × CharStream)} {text rest : List Char} {token : Token}
    {next : CharStream} (hmunch : Munch cs text rest token) (hnext : next.Gives rest fate)
    (hyields : run.Yields (token, next)) :
  Scans run cs fate
  := by use text, rest, token, next

theorem Gives.wordAfter (h : stream.Gives cs fate) (hfirst : isAlphabetic first) :
  Scans (stream.wordAfter first) (first :: cs) fate
  := by
  obtain ⟨next, htake, hnext, -⟩ := h.takeWhile isAlphabetic
  have hne : String.ofList (first :: cs.takeWhile isAlphabetic) ≠ "" := by simp
  apply scans_of_munch (munch_word hfirst cs) hnext
  apply htake.bind
  apply Run.lift_bind (Token.make_of_admits (Kind.admits_ofWord hne))
  rfl

/-- A point is taken with all digits after it, and anything else is left. -/
theorem Gives.fraction (h : stream.Gives cs fate) :
  ∃ part rest next, stream.fraction.Yields (part, next) ∧ cs = part ++ rest
    ∧ IsFraction part ∧ (∀ other, IsFraction other → other <+: cs → other.length ≤ part.length)
    ∧ next.Gives rest fate
  := by
  by_cases hpoint : cs.head? = some '.'
  · obtain ⟨cs, rfl⟩ := List.head?_eq_some_iff.mp hpoint
    obtain ⟨middle, hread, hmiddle, -⟩ := h.read
    obtain ⟨next, htake, hnext, -⟩ := hmiddle.takeWhile Char.isDigit
    use '.' :: cs.takeWhile Char.isDigit, cs.dropWhile Char.isDigit, next
    refine ⟨?_, ?_, ?_, ?_, hnext⟩
    · apply hread.bind
      apply htake.bind
      rfl
    · rw [List.cons_append, List.takeWhile_append_dropWhile]
    · right
      use cs.takeWhile Char.isDigit, rfl
      intro c
      apply List.mem_takeWhile_imp
    · rintro other (rfl | ⟨digits, rfl, hdigits⟩) hprefix
      · simp
      · have hle := length_le_takeWhile (List.cons_prefix_cons.mp hprefix).2 hdigits
        simpa using hle
  · -- No fraction but the empty one is at the front of what has no point there.
    have hnone : ∀ other, IsFraction other → other <+: cs → other.length ≤ ([] : List Char).length
        := by
      rintro other (rfl | ⟨digits, rfl, -⟩) ⟨after, rfl⟩
      · simp
      · exact absurd rfl hpoint
    cases cs with
    | nil =>
      obtain ⟨next, hread, hnext, -⟩ := h.read
      use [], [], next
      refine ⟨?_, rfl, .inl rfl, hnone, hnext⟩
      apply hread.bind
      rfl
    | cons c cs =>
      obtain ⟨middle, next, hread, hunread, hnext, -⟩ := h.read_unread
      have hc : c ≠ '.' := by simpa using hpoint
      use [], c :: cs, next
      refine ⟨?_, rfl, .inl rfl, hnone, hnext⟩
      apply hread.bind
      simp only [hc, if_false]
      apply Run.lift_bind hunread
      rfl

theorem Gives.numberAfter (h : stream.Gives cs fate) (hfirst : first.isDigit) :
  Scans (stream.numberAfter first) (first :: cs) fate
  := by
  obtain ⟨middle, htake, hmiddle, -⟩ := h.takeWhile Char.isDigit
  obtain ⟨part, rest, next, hfraction, hsplit, hpart, hlongest, hnext⟩ := hmiddle.fraction
  rw [hsplit] at hlongest
  apply scans_of_munch (munch_number hfirst hsplit hpart hlongest) hnext
  apply htake.bind
  apply hfraction.bind
  apply Run.lift_bind (Token.make_of_admits (Kind.admits_number hfirst _))
  rfl

/-- `=` is taken if it is next, and anything else is left. -/
theorem Gives.equalsAfter (h : stream.Gives cs fate) (hfirst : first = '=' ∨ first = '!')
    {one two : Kind} {alone both : Token} (hone : Token.fixed? one = some alone)
    (htwo : Token.fixed? two = some both) (halone : Lexeme [first] alone)
    (hboth : Lexeme [first, '='] both) :
  Scans (stream.equalsAfter one two) (first :: cs) fate
  := by
  obtain ⟨middle, hpeek, hmiddle⟩ := h.peek
  by_cases hequals : cs.head? = some '='
  · obtain ⟨rest, rfl⟩ := List.head?_eq_some_iff.mp hequals
    obtain ⟨next, hread, hnext, -⟩ := hmiddle.read
    apply scans_of_munch (munch_equals hfirst hboth rest) hnext
    apply hpeek.bind
    apply hread.bind
    rw [htwo]
    rfl
  · apply scans_of_munch (munch_equals_alone hfirst halone hequals) hmiddle
    apply hpeek.bind
    split
    · next heq => exact absurd (congrArg Prod.fst heq) hequals
    · next heq =>
      obtain ⟨-, rfl⟩ := Prod.mk.inj heq
      rw [hone]
      rfl

/-- A token that begins with `first` is the longest lexeme that does. -/
theorem Gives.tokenAfter (h : stream.Gives cs fate) (first : Char) :
  Scans (stream.tokenAfter first) (first :: cs) fate
  := by
  unfold CharStream.tokenAfter
  split
  · next hfirst =>
    subst hfirst
    have hmem : ('=', Kind.assign) ∈ Kind.symbols := by decide
    apply h.equalsAfter (.inl rfl) rfl rfl (.symbol hmem) .equal
  split
  · next hfirst =>
    subst hfirst
    have hmem : ('!', Kind.bang) ∈ Kind.symbols := by decide
    apply h.equalsAfter (.inr rfl) rfl rfl (.symbol hmem) .notEqual
  split
  · next hword => apply h.wordAfter hword
  split
  · next hdigit => apply h.numberAfter hdigit
  next hassign hbang hword hdigit =>
  simp only [Bool.not_eq_true] at hword hdigit
  have hequals := not_or.mpr ⟨hassign, hbang⟩
  split
  · next kind hkind =>
    have hmem := Kind.mem_symbols_of_ofSymbol? hkind
    apply scans_of_munch (munch_single hword hdigit hequals (.symbol hmem) cs) h
    apply Run.lift_bind (Token.make_of_admits (Kind.admits_of_mem_symbols _ hmem))
    rfl
  · next hnone =>
    have hstray : ∀ kind, (first, kind) ∉ Kind.symbols := by
      intro kind hmem
      simp [Kind.ofSymbol?_of_mem _ hmem hassign hbang] at hnone
    apply scans_of_munch (munch_single hword hdigit hequals (.stray hword hdigit hstray) cs) h
    apply Run.tell_bind
    rfl

end CharStream

/-! ### Streams of tokens -/

namespace TokenStream

/-- The stream gives the tokens of these characters and comes to this failure. -/
def Gives (stream : TokenStream) (cs : List Char) (fate : Option Failure) : Prop :=
  stream.chars.Gives cs fate

/-- The end has been reached, with this failure to be taken. -/
structure Ended (stream : TokenStream) (fate : Option Failure) : Prop where
  gives : stream.Gives [] fate
  ended : stream.chars.Ended

variable {stream : TokenStream} {cs : List Char} {fate : Option Failure}

/-- What is taken from a stream at its end is the failure. -/
theorem Ended.takeFailure_eq (h : stream.Ended fate) :
  stream.takeFailure.1 = fate
  := by apply h.ended.failure_eq h.gives

theorem yields_next {blank : List Char} {chars next : CharStream} {token : Token}
    (hblank : (stream.chars.takeWhile isBlank).Yields (blank, chars))
    (htoken : chars.nextToken.Yields (token, next)) :
  stream.next.Yields (token, ⟨next⟩)
  := by
  apply hblank.bind
  apply htoken.bind
  apply Run.tell_bind
  rfl

/-- Where only white space is left, the end token comes. -/
theorem Gives.next_end (h : stream.Gives cs fate) (hblank : cs.dropWhile isBlank = []) :
  ∃ next, stream.next.Yields (.endOfInput, next) ∧ next.Ended fate
  := by
  obtain ⟨chars, htake, hchars, -⟩ := CharStream.Gives.takeWhile isBlank h
  rw [hblank] at hchars
  obtain ⟨next, hread, hnext, -, hended⟩ := hchars.read
  use ⟨next⟩
  constructor
  · apply yields_next htake
    apply hread.bind
    rfl
  · use hnext
    apply hended rfl

/-- Else the longest lexeme after the white space is taken. -/
theorem Gives.next_token (h : stream.Gives cs fate) (hblank : cs.dropWhile isBlank ≠ []) :
  ∃ text rest token next, stream.next.Yields (token, next)
    ∧ Munch (cs.dropWhile isBlank) text rest token ∧ next.Gives rest fate
  := by
  obtain ⟨chars, htake, hchars, -⟩ := CharStream.Gives.takeWhile isBlank h
  obtain ⟨first, cs', hcs⟩ := List.exists_cons_of_ne_nil hblank
  rw [hcs] at hchars ⊢
  obtain ⟨middle, hread, hmiddle, -⟩ := hchars.read
  obtain ⟨text, rest, token, next, htoken, hmunch, hnext⟩ := hmiddle.tokenAfter first
  use text, rest, token, ⟨next⟩
  constructor
  · apply yields_next htake
    apply hread.bind
    apply htoken
  · use hmunch
    apply hnext

/-- The tokens before the end are those of a tiling. -/
theorem Gives.toList (h : stream.Gives cs fate) :
  ∃ tiles last, Tiles cs tiles ∧ stream.toList.Yields (tiles.map Tile.token, last)
    ∧ last.Ended fate
  := by
  induction hlength : cs.length using Nat.strong_induction_on generalizing stream cs with
  | h length ih =>
    rw [TokenStream.toList]
    by_cases hblank : cs.dropWhile isBlank = []
    · obtain ⟨next, hnext, hended⟩ := h.next_end hblank
      use [], next, .blank (List.dropWhile_eq_nil_iff.mp hblank)
      constructor
      · apply hnext.attach_bind
        rfl
      · apply hended
    · obtain ⟨text, rest, token, next, hnext, hmunch, hrest⟩ := h.next_token hblank
      have hlt : rest.length < length := hlength ▸ hmunch.length_lt
      obtain ⟨tiles, last, htiles, htokens, hended⟩ := ih rest.length hlt hrest rfl
      use ⟨cs.takeWhile isBlank, text, token⟩ :: tiles, last, hmunch.tiles htiles
      constructor
      · apply hnext.attach_bind
        simp only [hmunch.lexeme.isEnd_eq, Bool.false_eq_true, dite_false]
        apply htokens.map
      · apply hended

/-- The tokens before the end are taken one by one. -/
theorem toList_cases {ts : List Token} {last : TokenStream} (h : stream.toList.Yields (ts, last)) :
  ∃ token rest, stream.next.Yields (token, rest)
    ∧ (token.isEnd = true ∧ ts = [] ∧ last = rest
      ∨ token.isEnd = false ∧ ∃ us, ts = token :: us ∧ rest.toList.Yields (us, last))
  := by
  rw [TokenStream.toList] at h
  obtain ⟨⟨⟨token, rest⟩, hnext⟩, -, h⟩ := Run.yields_bind.mp h
  use token, rest, hnext
  cases hend : token.isEnd with
  | true =>
    simp only [hend, dite_true, Run.yields_pure, Prod.mk.injEq] at h
    left
    exact ⟨rfl, h.1.symm, h.2.symm⟩
  | false =>
    simp only [hend, Bool.false_eq_true, dite_false] at h
    obtain ⟨⟨us, last'⟩, hrest, hts⟩ := Run.yields_map.mp h
    obtain ⟨rfl, rfl⟩ := Prod.mk.inj hts
    right
    exact ⟨rfl, us, rfl, hrest⟩

/-! ### The tokens to come -/

/-- These tokens come before the end, and then there is this failure. -/
def Holds (stream : TokenStream) (ts : List Token) (fate : Option Failure) : Prop :=
  ∃ cs tiles, stream.Gives cs fate ∧ Tiles cs tiles ∧ tiles.map Tile.token = ts

variable {ts : List Token}

theorem Gives.holds {tiles : List Tile} (h : stream.Gives cs fate) (htiles : Tiles cs tiles) :
  stream.Holds (tiles.map Tile.token) fate
  := by use cs, tiles

/-- Every stream holds some tokens, whatever its source does. -/
theorem exists_holds (stream : TokenStream) :
  ∃ ts fate, stream.Holds ts fate
  := by
  have hgives : stream.Gives stream.chars.text stream.chars.fate := stream.chars.gives_text
  obtain ⟨tiles, -, htiles, -⟩ := hgives.toList
  use tiles.map Tile.token, stream.chars.fate
  apply hgives.holds htiles

/-- The tokens up to the end are those that the stream holds. -/
theorem exists_yields_toList (stream : TokenStream) :
  ∃ ts last fate, stream.Holds ts fate ∧ stream.toList.Yields (ts, last)
  := by
  have hgives : stream.Gives stream.chars.text stream.chars.fate := stream.chars.gives_text
  obtain ⟨tiles, last, htiles, hlist, -⟩ := hgives.toList
  use tiles.map Tile.token, last, stream.chars.fate, hgives.holds htiles

theorem Ended.holds (h : stream.Ended fate) :
  stream.Holds [] fate
  := by
  apply h.gives.holds (.blank _)
  simp

/-- The tokens to come are lexemes. -/
theorem Holds.exists_lexeme (h : stream.Holds ts fate) :
  ∀ token ∈ ts, ∃ text, Lexeme text token
  := by
  obtain ⟨cs, tiles, -, htiles, rfl⟩ := h
  intro token hmem
  obtain ⟨tile, htile, rfl⟩ := List.mem_map.mp hmem
  use tile.text
  apply htiles.lexeme tile htile

/-- The end is none of the tokens before it. -/
theorem Holds.isEnd_eq (h : stream.Holds ts fate) :
  ∀ token ∈ ts, token.isEnd = false
  := by
  intro token hmem
  obtain ⟨text, hlexeme⟩ := h.exists_lexeme token hmem
  apply hlexeme.isEnd_eq

/-- The next token is the first of those to come, or the end. -/
theorem Holds.next (h : stream.Holds ts fate) :
  ∃ next, stream.next.Yields (ts.headD .endOfInput, next) ∧ next.Holds ts.tail fate
    ∧ (ts = [] → next.Ended fate)
  := by
  obtain ⟨cs, tiles, hgives, htiles, rfl⟩ := h
  rcases htiles.cases_front with ⟨hblank, rfl⟩ | ⟨text, rest, token, more, hmunch, hmore, rfl⟩
  · obtain ⟨next, hnext, hended⟩ := hgives.next_end hblank
    use next, hnext, hended.holds
    intro _
    apply hended
  · obtain ⟨text', rest', token', next, hnext, hmunch', hrest⟩ := hgives.next_token hmunch.ne_nil
    obtain ⟨rfl, rfl, rfl⟩ := hmunch.unique hmunch'
    use next, hnext, hrest.holds hmore
    simp

/-- A token stream gives what the delivered bytes spell. -/
theorem gives_delivered {source : Source} {bytes : List UInt8} {ending : Option Failure}
    (h : Delivers source.events bytes ending) :
  (ofSource source).Gives (ByteStream.spelled bytes ending) ending
  := by
  apply CharStream.gives_delivered h
  decide

end TokenStream

/-! ### The tokens of a text -/

/-- The tokens of a text are those of its only tiling: white space and longest lexemes one
after the other, in which no character is lost. The literal of a token is its text, unless it
is an illegal token, which stands for one character. -/
theorem tokens_of_text (text : String) :
  ∃ tiles last,
    (TokenStream.ofSource (.ofBytes (Utf8.encode text))).toList.Yields
        (tiles.map Tile.token, last)
    ∧ last.Ended none
    ∧ Tiles text.toList tiles ∧ (∀ other, Tiles text.toList other → other = tiles)
    ∧ (∃ blank, text.toList = (tiles.flatMap fun tile => tile.blank ++ tile.text) ++ blank
        ∧ ∀ c ∈ blank, isBlank c)
    ∧ ∀ tile ∈ tiles,
        (tile.token.kind ≠ .illegal → tile.token.literal = String.ofList tile.text)
        ∧ (tile.token.kind = .illegal →
            tile.token.literal = "ILLEGAL" ∧ tile.text.length = 1)
  := by
  have hgives := TokenStream.gives_delivered (delivers_ofBytes (Utf8.encode text))
  rw [ByteStream.spelled, Utf8.decode_encode] at hgives
  obtain ⟨tiles, last, htiles, htokens, hended⟩ := hgives.toList
  use tiles, last, htokens, hended, htiles
  refine ⟨?_, htiles.exists_eq_append, ?_⟩
  · intro other h
    apply h.unique htiles
  · intro tile hmem
    have hlexeme := htiles.lexeme tile hmem
    constructor
    · apply hlexeme.literal_eq
    · apply hlexeme.illegal_eq

end FrontEnd
