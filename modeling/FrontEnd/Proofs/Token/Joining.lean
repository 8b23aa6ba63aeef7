import FrontEnd.Proofs.Token.Tiling

/-!
# Joined texts

A boundary is a character that stands in no lexeme but by itself. What comes before a boundary
and what comes from it on are split into tokens apart (`Splits.append`), so no text can change how
what comes after a boundary is read. Semicolons are boundaries.
-/

namespace FrontEnd

open Text

/-- The character is a lexeme by itself, or none, and stands in no other one. -/
def IsBoundary (c : Char) : Prop :=
  ∀ text token, Lexeme text token → c ∈ text → text = [c]

/-- The characters split into these tokens. -/
def Splits (cs : List Char) (ts : List Token) : Prop :=
  ∃ tiles, Tiles cs tiles ∧ tiles.map Tile.token = ts

variable {c : Char} {cs ds text rest : List Char} {token : Token} {ts us : List Token}

theorem Tiles.splits {tiles : List Tile} (h : Tiles cs tiles) :
  Splits cs (tiles.map Tile.token)
  := ⟨tiles, h, rfl⟩

/-- Characters split into tokens in one way at most. -/
theorem Splits.unique (h : Splits cs ts) (h' : Splits cs us) :
  ts = us
  := by
  obtain ⟨tiles, htiles, rfl⟩ := h
  obtain ⟨tiles', htiles', rfl⟩ := h'
  rw [htiles.unique htiles']

/-- A character that is no letter and no digit and stands in no number and no symbol of two
characters is a boundary. -/
theorem isBoundary_of_class (hword : isAlphabetic c = false) (hdigit : c.isDigit = false)
    (hpoint : c ≠ '.') (hequals : c ≠ '=') (hbang : c ≠ '!') :
  IsBoundary c
  := by
  intro text token hlexeme hmem
  cases hlexeme with
  | reserved h => simp [h c hmem] at hword
  | identifier _ h => simp [h c hmem] at hword
  | number _ hwhole hpart =>
    rcases List.mem_append.mp hmem with hmem | hmem
    · simp [hwhole c hmem] at hdigit
    · rcases hpart with rfl | ⟨digits, rfl, hdigits⟩
      · simp at hmem
      · rcases List.mem_cons.mp hmem with rfl | hmem
        · exact absurd rfl hpoint
        · simp [hdigits c hmem] at hdigit
  | equal => simp [hequals] at hmem
  | notEqual => simp [hequals, hbang] at hmem
  | symbol => rw [List.mem_singleton.mp hmem]
  | stray => rw [List.mem_singleton.mp hmem]

/-- The longest lexeme stays the same where a boundary comes after the text. -/
theorem Munch.append (h : Munch cs text rest token) (hc : IsBoundary c) (ds : List Char) :
  Munch (cs ++ c :: ds) text (rest ++ c :: ds) token
  := by
  refine ⟨by rw [h.split, List.append_assoc], h.lexeme, ?_⟩
  intro longer token' hlexeme hprefix
  rw [← List.append_assoc, ← h.split] at hprefix
  by_cases hle : longer.length ≤ cs.length
  · have hfront := List.prefix_of_prefix_length_le hprefix (List.prefix_append cs _) hle
    apply h.longest longer token' hlexeme (h.split ▸ hfront)
  · -- A lexeme that goes beyond the text has the boundary in it, so it is the boundary alone.
    have hbeyond : cs ++ [c] <+: longer := by
      apply List.prefix_of_prefix_length_le _ hprefix
      · rw [List.length_append, List.length_singleton]
        omega
      · use ds
        simp
    have hmem : c ∈ longer := hbeyond.subset (by simp)
    have hpos := List.length_pos_iff.mpr h.ne_nil
    rw [hc longer token' hlexeme hmem, List.length_singleton] at hle
    omega

/-- Two texts split apart where the second one begins with a boundary. -/
theorem Splits.append (h : Splits cs ts) (hc : IsBoundary c) (hback : Splits (c :: ds) us) :
  Splits (cs ++ c :: ds) (ts ++ us)
  := by
  obtain ⟨tiles, htiles, rfl⟩ := h
  induction htiles with
  | @blank cs hall =>
    have hdrop : (cs ++ c :: ds).dropWhile isBlank = (c :: ds).dropWhile isBlank :=
      List.dropWhile_append_of_pos hall
    obtain ⟨back, hback, rfl⟩ := hback
    rcases hback.cases_front with ⟨hblank, rfl⟩ | ⟨text, rest, token, more, hmunch, hmore, rfl⟩
    · apply Tiles.splits (.blank (List.dropWhile_eq_nil_iff.mp (hdrop.trans hblank)))
    · rw [← hdrop] at hmunch
      apply (hmunch.tiles hmore).splits
  | @cons blank cs text rest token tiles hblank hstart hmunch _ ih =>
    obtain ⟨joined, hjoined, htokens⟩ := ih
    have hstart' : ∀ c', (cs ++ c :: ds).head? = some c' → isBlank c' = false := by
      obtain ⟨first, cs, rfl⟩ := List.exists_cons_of_ne_nil hmunch.ne_nil
      apply hstart
    use ⟨blank, text, token⟩ :: joined
    constructor
    · rw [List.append_assoc]
      apply Tiles.cons hblank hstart' (hmunch.append hc ds) hjoined
    · rw [List.map_cons, htokens, List.map_cons, List.cons_append]

/-- A boundary that is a token comes first where it is the first character. -/
theorem Splits.cons (hc : IsBoundary c) (hblank : isBlank c = false) (htoken : Lexeme [c] token)
    (h : Splits cs ts) :
  Splits (c :: cs) (token :: ts)
  := by
  obtain ⟨tiles, htiles, rfl⟩ := h
  have hlongest : Longest [c] cs := by
    intro longer token' hlexeme hprefix
    obtain ⟨first, more, rfl⟩ := List.exists_cons_of_ne_nil hlexeme.ne_nil
    obtain ⟨rfl, -⟩ := List.cons_prefix_cons.mp hprefix
    rw [hc _ token' hlexeme List.mem_cons_self]
  have hdrop : (c :: cs).dropWhile isBlank = c :: cs := by simp [hblank]
  have hmunch : Munch ((c :: cs).dropWhile isBlank) [c] cs token := by
    rw [hdrop]
    exact ⟨rfl, htoken, hlongest⟩
  apply (hmunch.tiles htiles).splits

/-! ### Semicolons -/

/-- The token of a semicolon. -/
def Token.semicolon : Token := ⟨.semicolon, ";"⟩

theorem isBoundary_semicolon :
  IsBoundary ';'
  := by
  have hmem : (';', Kind.semicolon) ∈ Kind.symbols := by decide
  obtain ⟨hword, hdigit⟩ := Kind.class_of_mem_symbols _ hmem
  apply isBoundary_of_class hword hdigit
  all_goals decide

/-- A semicolon ends what comes before it and is a token by itself. -/
theorem Splits.append_semicolon (h : Splits cs ts) (hback : Splits ds us) :
  Splits (cs ++ ';' :: ds) (ts ++ Token.semicolon :: us)
  := by
  have hlexeme : Lexeme [';'] Token.semicolon := .symbol (by decide)
  apply h.append isBoundary_semicolon
  apply Splits.cons isBoundary_semicolon (by decide) hlexeme hback

end FrontEnd
