import FrontEnd.Proofs.Lookahead
import FrontEnd.Proofs.Tree.Moving

/-!
# What a log tells of tokens

Each token that is taken from a stream leaves its record in the log, and an illegal one has the
record of its character right before it; between the records of two tokens there may be others, none
of which tells of scanning (`Told`). So whatever takes tokens from a stream, its log tells of these
tokens, one after the other, and of no others (`TokenStream.Pulls`).
-/

namespace FrontEnd

open Text

/-! ### Records of tiles -/

namespace Record

/-- The record says, at its severity and in these words, that the token was taken. -/
def TellsToken (record : Record) (token : Token) : Prop :=
  record = scanned token ∧ record.severity = .trace
    ∧ record.message
      = "scanned " ++ token.kind.head ++ "(" ++ Quoted.text token.literal ++ ")"

/-- The record says, at its severity and in these words, that the character begins no token. -/
def TellsStray (record : Record) (c : Char) : Prop :=
  record = strayChar c ∧ record.severity = .debug
    ∧ record.message = "illegal character " ++ Quoted.char c

theorem tellsToken_scanned (token : Token) :
  (scanned token).TellsToken token
  := by
  have hmessage : (scanned token).message = "scanned " ++ token.inspect := rfl
  refine ⟨rfl, rfl, ?_⟩
  simp only [hmessage, Token.inspect, String.append_assoc]

theorem tellsStray_strayChar (c : Char) :
  (strayChar c).TellsStray c
  := ⟨rfl, rfl, rfl⟩

end Record

/-- The log has a record of the token of each of these tiles, in order, and right before it the
character of the tile if the token is illegal. No other record tells of scanning. -/
inductive Told : List Tile → List Record → Prop where
  | nil : Told [] []
  | legal {tile : Tile} {record : Record} {tiles : List Tile} {log : List Record}
      (hkind : tile.token.kind ≠ .illegal) (hrecord : record.TellsToken tile.token)
      (h : Told tiles log) : Told (tile :: tiles) (record :: log)
  | illegal {tile : Tile} {c : Char} {stray record : Record} {tiles : List Tile}
      {log : List Record} (hkind : tile.token.kind = .illegal) (htext : tile.text = [c])
      (hstray : stray.TellsStray c) (hrecord : record.TellsToken tile.token)
      (h : Told tiles log) : Told (tile :: tiles) (stray :: record :: log)
  | other {record : Record} {tiles : List Tile} {log : List Record}
      (hrecord : record.isScanning = false) (h : Told tiles log) : Told tiles (record :: log)

variable {tiles tiles' : List Tile} {log log' : List Record}

theorem Told.append (h : Told tiles log) (h' : Told tiles' log') :
  Told (tiles ++ tiles') (log ++ log')
  := by
  induction h with
  | nil => apply h'
  | legal hkind hrecord _ ih => exact .legal hkind hrecord ih
  | illegal hkind htext hstray hrecord _ ih => exact .illegal hkind htext hstray hrecord ih
  | other hrecord _ ih => exact .other hrecord ih

/-- Records that do not tell of scanning tell of no tile. -/
theorem told_nil (h : ∀ record ∈ log, record.isScanning = false) :
  Told [] log
  := by
  induction log with
  | nil => exact .nil
  | cons record log ih =>
    obtain ⟨hrecord, hlog⟩ := List.forall_mem_cons.mp h
    exact .other hrecord (ih hlog)

/-- The tokens in the log are those of the tiles. -/
theorem Told.scannedTokens_eq (h : Told tiles log) :
  scannedTokens log = tiles.map Tile.token
  := by
  induction h with
  | nil => rfl
  | legal _ hrecord _ ih =>
    obtain ⟨rfl, -⟩ := hrecord
    exact congrArg (_ :: ·) ih
  | illegal _ _ hstray hrecord _ ih =>
    obtain ⟨rfl, -⟩ := hstray
    obtain ⟨rfl, -⟩ := hrecord
    exact congrArg (_ :: ·) ih
  | @other record _ _ hrecord _ ih =>
    have hnone : record.scanned? = none := by
      cases record with
      | scanned => simp [Record.isScanning] at hrecord
      | _ => rfl
    rw [scannedTokens, List.filterMap_cons_none hnone, ← scannedTokens, ih]

/-! ### One token -/

/-- An illegal token is a character that begins no token. -/
theorem Lexeme.exists_stray {text : List Char} {token : Token} (h : Lexeme text token)
    (hkind : token.kind = .illegal) :
  ∃ c, text = [c] ∧ token = .illegal ∧ isAlphabetic c = false ∧ c.isDigit = false
    ∧ ∀ kind, (c, kind) ∉ Kind.symbols
  := by
  cases h with
  | reserved _ h => exact absurd hkind (Kind.kind_of_mem_reservedWords _ h).1
  | symbol h => exact absurd hkind (Kind.kind_of_mem_symbols _ h).1
  | @stray c hword hdigit h => exact ⟨c, rfl, rfl, hword, hdigit, h⟩
  | _ => simp at hkind

/-- Such a character is told of, and nothing else happens. -/
theorem CharStream.tokenAfter_stray {first : Char} (hword : isAlphabetic first = false)
    (hdigit : first.isDigit = false) (h : ∀ kind, (first, kind) ∉ Kind.symbols)
    (chars : CharStream) :
  chars.tokenAfter first = ⟨.ok (.illegal, chars), [.strayChar first]⟩
  := by
  have hassign : first ≠ '=' := by
    rintro rfl
    apply h .assign (by decide)
  have hbang : first ≠ '!' := by
    rintro rfl
    apply h .bang (by decide)
  have hsymbol : Kind.ofSymbol? first = none := by
    apply Option.eq_none_iff_forall_ne_some.mpr
    intro kind hkind
    apply h kind (Kind.mem_symbols_of_ofSymbol? hkind)
  simp only [CharStream.tokenAfter, hassign, hbang, hword, hdigit, hsymbol, if_false,
    Bool.false_eq_true]
  rfl

theorem Recorded.eq_of_legal {token : Token} (h : Recorded token log)
    (hkind : token.kind ≠ .illegal) :
  log = [.scanned token]
  := by
  cases h with
  | legal => rfl
  | stray hillegal => exact absurd hillegal hkind

theorem Run.told_of_quiet {α : Type} {run : Run α} {a : α} (h : run.Quiet) (ha : run.Yields a) :
  Told [] run.log
  := by
  apply told_nil
  simpa using h.ensures.of_yields a ha

namespace TokenStream

variable {stream rest : TokenStream} {tile : Tile}

/-- Before the record of a token that is not illegal nothing tells of scanning. -/
theorem told_legal (h : stream.next.Yields (tile.token, rest))
    (hkind : tile.token.kind ≠ .illegal) :
  Told [tile] stream.next.log
  := by
  obtain ⟨front, hlog⟩ : ∃ front, stream.next.log = front ++ [.scanned tile.token] := by
    obtain ⟨⟨blank, chars⟩, hblank, h⟩ := Run.yields_bind.mp h
    obtain ⟨⟨token, chars'⟩, htoken, h⟩ := Run.yields_bind.mp h
    obtain ⟨_, -, h⟩ := Run.yields_bind.mp h
    obtain ⟨rfl, -⟩ := Prod.mk.inj (Run.yields_pure.mp h)
    use (stream.chars.takeWhile isBlank).log ++ chars.nextToken.log
    rw [next, Run.log_bind hblank, Run.log_bind htoken, List.append_assoc]
    rfl
  have hlast : [Record.scanned tile.token].filter Record.isScanning = [.scanned tile.token] := rfl
  have hfront := (stream.next_recorded.ensures.of_yields _ h).eq_of_legal hkind
  rw [hlog, List.filter_append, hlast, List.append_left_eq_self] at hfront
  rw [hlog]
  apply (told_nil (by simpa using hfront)).append
  apply Told.legal hkind (Record.tellsToken_scanned _) .nil

/-- Right before the record of an illegal token there is that of its character. -/
theorem told_stray {c : Char} {cs : List Char}
    (h : stream.chars.text.dropWhile isBlank = c :: cs) (hword : isAlphabetic c = false)
    (hdigit : c.isDigit = false) (hsymbol : ∀ kind, (c, kind) ∉ Kind.symbols)
    (blank : List Char) :
  Told [⟨blank, [c], .illegal⟩] stream.next.log
  := by
  obtain ⟨chars, htake, hchars, -⟩ := stream.chars.gives_text.takeWhile isBlank
  rw [h] at hchars
  obtain ⟨middle, hread, -, -⟩ := hchars.read
  rw [List.head?_cons] at hread
  have htoken : chars.nextToken
      = ⟨.ok (.illegal, middle), chars.read.log ++ [.strayChar c]⟩ := by
    rw [CharStream.nextToken, hread.bind_eq]
    dsimp only
    rw [CharStream.tokenAfter_stray hword hdigit hsymbol]
  have hlog : stream.next.log = (stream.chars.takeWhile isBlank).log
      ++ (chars.read.log ++ [.strayChar c, .scanned .illegal]) := by
    rw [next, Run.log_bind htake]
    dsimp only
    rw [htoken, Run.ok_bind]
    simp [Run.tell, Run.ok_bind, Run.pure_def]
  rw [hlog]
  apply (Run.told_of_quiet (stream.chars.quiet_takeWhile isBlank) htake).append
  apply (Run.told_of_quiet chars.quiet_read hread).append
  apply Told.illegal rfl rfl (Record.tellsStray_strayChar c) (Record.tellsToken_scanned _) .nil

/-- Taking a token takes a tile off the characters, and the log tells of this tile. -/
theorem exists_told_next (stream : TokenStream) :
  ∃ tile next, stream.next.Yields (tile.token, next)
    ∧ Leaves stream.chars.text [tile] next.chars.text ∧ Told [tile] stream.next.log
  := by
  obtain ⟨tile, next, hnext, hleaves, -⟩ := stream.exists_leaves_next
  use tile, next, hnext, hleaves
  by_cases hkind : tile.token.kind = .illegal
  · cases hleaves with
    | token hmunch =>
      obtain ⟨c, rfl, rfl, hword, hdigit, hsymbol⟩ := hmunch.lexeme.exists_stray hkind
      apply told_stray hmunch.split hword hdigit hsymbol
    | ended => simp [Token.endOfInput] at hkind
  · apply told_legal hnext hkind

end TokenStream

/-! ### Any tokens -/

namespace TokenStream

/-- Taking tokens one by one leads from one stream to the other, they are these tiles off the
characters, and the log tells of these tiles. -/
structure Pulls (stream : TokenStream) (tiles : List Tile) (log : List Record)
    (last : TokenStream) : Prop where
  draws : stream.Draws (tiles.map Tile.token) last
  leaves : Leaves stream.chars.text tiles last.chars.text
  told : Told tiles log

variable {stream middle last : TokenStream}

theorem pulls_of_still (hdraws : stream.Draws [] last) (htext : last.chars.text = stream.chars.text)
    (h : ∀ record ∈ log, record.isScanning = false) :
  stream.Pulls [] log last
  := by
  constructor
  · apply hdraws
  · rw [htext]
    apply Leaves.refl
  · apply told_nil h

theorem Pulls.trans (h : stream.Pulls tiles log middle) (h' : middle.Pulls tiles' log' last) :
  stream.Pulls (tiles ++ tiles') (log ++ log') last
  := by
  constructor
  · rw [List.map_append]
    apply h.draws.trans h'.draws
  · apply h.leaves.trans h'.leaves
  · apply h.told.append h'.told

theorem exists_pulls_next {token : Token} (h : stream.next.Yields (token, last)) :
  ∃ tile, tile.token = token ∧ stream.Pulls [tile] stream.next.log last
  := by
  obtain ⟨tile, next, hnext, hleaves, htold⟩ := stream.exists_told_next
  obtain ⟨rfl, rfl⟩ := Prod.mk.inj (hnext.unique h)
  use tile, rfl
  exact ⟨.next hnext (.refl _), hleaves, htold⟩

/-- Taking tokens as a passage. -/
def pulling : Passage TokenStream where
  Goes stream log last := ∃ tiles, stream.Pulls tiles log last
  refl stream := ⟨[], pulls_of_still (.refl stream) rfl (by simp)⟩
  trans := by
    rintro stream middle last log log' ⟨tiles, h⟩ ⟨tiles', h'⟩
    use tiles ++ tiles'
    apply h.trans h'

theorem pulling_next (stream : TokenStream) :
  pulling.Leads stream stream.next Prod.snd
  := by
  constructor
  constructor
  rintro ⟨token, last⟩ hnext
  obtain ⟨tile, -, hpulls⟩ := exists_pulls_next hnext
  use [tile]

end TokenStream

/-! ### Windows -/

namespace Window

/-- Taking tokens for the view of a window as a passage. -/
def pulling : Passage Window where
  Goes window log next := TokenStream.pulling.Goes window.tokens log next.tokens
  refl window := TokenStream.pulling.refl window.tokens
  trans := TokenStream.pulling.trans

theorem pulling_allowsParsing :
  pulling.AllowsParsing
  := by
  have hstill : ∀ (window : Window) (record : Record), record.isScanning = false →
      TokenStream.pulling.Goes window.tokens [record] window.tokens := by
    intro window record hrecord
    use []
    apply TokenStream.pulls_of_still (.refl _) rfl (List.forall_mem_singleton.mpr hrecord)
  refine ⟨⟨?_⟩, ?_, ?_⟩
  · intro window
    constructor
    have hadvance : TokenStream.pulling.Leads window.tokens window.advance Window.tokens := by
      apply (TokenStream.pulling_next window.tokens).bind
      rintro ⟨token, tokens⟩
      exact Passage.leads_done rfl
    apply hadvance.ensures
  · intro window diagnostic
    apply hstill window _ rfl
  · intro window record hrecord
    apply hstill window
    by_contra hscanning
    simp [Record.isReading_of_isScanning (by simpa using hscanning)] at hrecord

theorem pulling_ofTokens (tokens : TokenStream) :
  TokenStream.pulling.Leads tokens (ofTokens tokens) Window.tokens
  := by
  apply (TokenStream.pulling_next tokens).bind
  rintro ⟨current, middle⟩
  apply (TokenStream.pulling_next middle).bind
  rintro ⟨following, last⟩
  exact Passage.leads_done rfl

end Window

end FrontEnd
