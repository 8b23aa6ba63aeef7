import FrontEnd.Proofs.Token.Lexeme
import FrontEnd.Text.Blank
import Mathlib.Tactic.Use

/-!
# Tilings

A text splits into runs of white space and lexemes, where each lexeme is the longest one at the
front of what remains (`Munch`). `Tiles cs tiles` says that the tiles do this; there is at most
one such tiling of a text (`Tiles.unique`).
-/

namespace FrontEnd

open Text

/-- No lexeme at the front of `text ++ rest` is longer than `text`. -/
def Longest (text rest : List Char) : Prop :=
  ∀ longer token, Lexeme longer token → longer <+: text ++ rest → longer.length ≤ text.length

/-- The longest lexeme at the front of the characters `cs` is `text`, which is the token
`token`, and `rest` comes after it. -/
structure Munch (cs text rest : List Char) (token : Token) : Prop where
  split : cs = text ++ rest
  lexeme : Lexeme text token
  longest : Longest text rest

/-- White space and the lexeme after it. -/
structure Tile where
  blank : List Char
  text : List Char
  token : Token

/-- The characters are these tiles one after the other, and then white space. -/
inductive Tiles : List Char → List Tile → Prop where
  | blank {cs : List Char} (h : ∀ c ∈ cs, isBlank c) : Tiles cs []
  | cons {blank cs text rest : List Char} {token : Token} {tiles : List Tile}
      (hblank : ∀ c ∈ blank, isBlank c) (hstart : ∀ c, cs.head? = some c → isBlank c = false)
      (hmunch : Munch cs text rest token) (hrest : Tiles rest tiles) :
      Tiles (blank ++ cs) (⟨blank, text, token⟩ :: tiles)

/-! ### Longest lexemes -/

/-- A lexeme is the longest one if no longer tail can come after its first character. -/
theorem longest_cons {first : Char} {tail rest : List Char}
    (h : ∀ more, LexemeTail first more → more <+: tail ++ rest → more.length ≤ tail.length) :
  Longest (first :: tail) rest
  := by
  intro longer token hlexeme hprefix
  cases longer with
  | nil => simp
  | cons c more =>
    rw [List.cons_append] at hprefix
    obtain ⟨rfl, hmore⟩ := List.cons_prefix_cons.mp hprefix
    have hle := h more hlexeme.tail hmore
    simpa using hle

/-- A front part that satisfies a condition is no longer than what is taken while it holds. -/
theorem length_le_takeWhile {p : Char → Bool} {front cs : List Char} (h : front <+: cs)
    (hp : ∀ c ∈ front, p c) :
  front.length ≤ (cs.takeWhile p).length
  := by
  obtain ⟨rest, rfl⟩ := h
  rw [List.takeWhile_append_of_pos hp, List.length_append]
  omega

theorem munch_word {first : Char} (hfirst : isAlphabetic first) (cs : List Char) :
  Munch (first :: cs) (first :: cs.takeWhile isAlphabetic) (cs.dropWhile isAlphabetic)
    ⟨Kind.ofWord (String.ofList (first :: cs.takeWhile isAlphabetic)),
      String.ofList (first :: cs.takeWhile isAlphabetic)⟩
  := by
  have hword : ∀ c ∈ first :: cs.takeWhile isAlphabetic, isAlphabetic c :=
    List.forall_mem_cons.mpr ⟨hfirst, fun c => List.mem_takeWhile_imp⟩
  constructor
  · simp
  · exact .word (List.cons_ne_nil _ _) hword
  · apply longest_cons
    intro more hmore hprefix
    rw [LexemeTail, if_pos hfirst] at hmore
    rw [List.takeWhile_append_dropWhile] at hprefix
    apply length_le_takeWhile hprefix hmore

/-- A number is the longest one if its whole digits and its fraction are. -/
theorem munch_number {first : Char} (hfirst : first.isDigit) {cs part rest : List Char}
    (hsplit : cs.dropWhile Char.isDigit = part ++ rest) (hpart : IsFraction part)
    (hlongest : ∀ other, IsFraction other → other <+: part ++ rest → other.length ≤ part.length) :
  Munch (first :: cs) (first :: cs.takeWhile Char.isDigit ++ part) rest
    ⟨.number, String.ofList (first :: cs.takeWhile Char.isDigit ++ part)⟩
  := by
  have hwhole : ∀ c ∈ first :: cs.takeWhile Char.isDigit, c.isDigit :=
    List.forall_mem_cons.mpr ⟨hfirst, fun c => List.mem_takeWhile_imp⟩
  have hlexeme := Lexeme.number (by simp) hwhole hpart
  rw [List.cons_append] at hlexeme ⊢
  constructor
  · rw [List.cons_append, List.append_assoc, ← hsplit, List.takeWhile_append_dropWhile]
  · apply hlexeme
  · apply longest_cons
    intro more hmore hprefix
    rw [LexemeTail, isAlphabetic_of_isDigit hfirst, if_neg (by simp), if_pos hfirst] at hmore
    obtain ⟨whole, fraction, rfl, hdigits, hfraction⟩ := hmore
    rw [List.append_assoc, ← hsplit, List.takeWhile_append_dropWhile] at hprefix
    rw [List.length_append, List.length_append]
    rcases hfraction with rfl | ⟨digits, rfl, hdigits'⟩
    · have hle := length_le_takeWhile (by simpa using hprefix) hdigits
      simp only [List.length_nil]
      omega
    · -- The digits before the point are exactly those that are taken.
      obtain ⟨after, rfl⟩ := hprefix
      rw [List.append_assoc, List.dropWhile_append_of_pos hdigits, List.cons_append,
        List.dropWhile_cons_of_neg (by decide)] at hsplit
      have hle := hlongest ('.' :: digits) (.inr ⟨digits, rfl, hdigits'⟩)
        (hsplit ▸ List.prefix_append ('.' :: digits) after)
      rw [List.append_assoc, List.takeWhile_append_of_pos hdigits, List.cons_append,
        List.takeWhile_cons_of_neg (by decide), List.append_nil]
      omega

theorem lexemeTail_iff_of_equals {first : Char} (h : first = '=' ∨ first = '!')
    (more : List Char) :
  LexemeTail first more ↔ more = [] ∨ more = ['=']
  := by
  rcases h with rfl | rfl
  · apply Iff.rfl
  · apply Iff.rfl

/-- `=` or `!` with `=` after it is one lexeme. -/
theorem munch_equals {first : Char} {token : Token} (hfirst : first = '=' ∨ first = '!')
    (h : Lexeme [first, '='] token) (rest : List Char) :
  Munch (first :: '=' :: rest) [first, '='] rest token
  := by
  refine ⟨rfl, h, longest_cons ?_⟩
  intro more hmore _
  rcases (lexemeTail_iff_of_equals hfirst more).mp hmore with rfl | rfl
  · simp
  · simp

/-- `=` or `!` without `=` after it is a lexeme by itself. -/
theorem munch_equals_alone {first : Char} {token : Token} (hfirst : first = '=' ∨ first = '!')
    (h : Lexeme [first] token) {rest : List Char} (hrest : rest.head? ≠ some '=') :
  Munch (first :: rest) [first] rest token
  := by
  refine ⟨rfl, h, longest_cons ?_⟩
  intro more hmore hprefix
  rcases (lexemeTail_iff_of_equals hfirst more).mp hmore with rfl | rfl
  · simp
  · obtain ⟨after, rfl⟩ := hprefix
    exact absurd rfl hrest

/-- Any other character is a lexeme by itself. -/
theorem munch_single {first : Char} {token : Token} (hword : isAlphabetic first = false)
    (hdigit : first.isDigit = false) (hequals : ¬ (first = '=' ∨ first = '!'))
    (h : Lexeme [first] token) (rest : List Char) :
  Munch (first :: rest) [first] rest token
  := by
  refine ⟨rfl, h, longest_cons ?_⟩
  intro more hmore _
  simp only [LexemeTail, hword, hdigit, hequals, Bool.false_eq_true, if_false] at hmore
  simp [hmore]

/-! ### There is one tiling -/

/-- There is one longest lexeme. -/
theorem Munch.unique {cs text text' rest rest' : List Char} {token token' : Token}
    (h : Munch cs text rest token) (h' : Munch cs text' rest' token') :
  text = text' ∧ rest = rest' ∧ token = token'
  := by
  have hle := h.longest text' token' h'.lexeme (h.split ▸ h'.split ▸ List.prefix_append _ _)
  have hle' := h'.longest text token h.lexeme (h'.split ▸ h.split ▸ List.prefix_append _ _)
  obtain ⟨rfl, rfl⟩ := List.append_inj (h.split.symm.trans h'.split) (by omega)
  exact ⟨rfl, rfl, h.lexeme.unique h'.lexeme⟩

/-- White space before a lexeme is all the white space at the front. -/
theorem takeWhile_isBlank {blank cs : List Char} (hblank : ∀ c ∈ blank, isBlank c)
    (hstart : ∀ c, cs.head? = some c → isBlank c = false) :
  (blank ++ cs).takeWhile isBlank = blank ∧ (blank ++ cs).dropWhile isBlank = cs
  := by
  rw [List.takeWhile_append_of_pos hblank, List.dropWhile_append_of_pos hblank]
  cases cs with
  | nil => simp
  | cons c cs =>
    have hc : ¬ isBlank c := by simp [hstart c rfl]
    simp [hc]

theorem Munch.ne_nil {cs text rest : List Char} {token : Token} (h : Munch cs text rest token) :
  cs ≠ []
  := by
  rw [h.split]
  apply List.append_ne_nil_of_left_ne_nil h.lexeme.ne_nil rest

theorem Munch.length_lt {cs text rest : List Char} {token : Token}
    (h : Munch (cs.dropWhile isBlank) text rest token) :
  rest.length < cs.length
  := by
  have hle : (cs.dropWhile isBlank).length ≤ cs.length := (List.dropWhile_sublist _).length_le
  have hlt := List.length_pos_iff.mpr h.lexeme.ne_nil
  rw [h.split, List.length_append] at hle
  omega

/-- The longest lexeme after the white space is the first tile. -/
theorem Munch.tiles {cs text rest : List Char} {token : Token} {tiles : List Tile}
    (h : Munch (cs.dropWhile isBlank) text rest token) (hrest : Tiles rest tiles) :
  Tiles cs (⟨cs.takeWhile isBlank, text, token⟩ :: tiles)
  := by
  have hstart : ∀ c, (cs.dropWhile isBlank).head? = some c → isBlank c = false := by
    intro c hc
    simpa [hc] using List.head?_dropWhile_not isBlank cs
  have hblank : ∀ c ∈ cs.takeWhile isBlank, isBlank c := fun c => List.mem_takeWhile_imp
  have htiles := Tiles.cons hblank hstart h hrest
  rwa [List.takeWhile_append_dropWhile] at htiles

/-- A tiling is empty, or begins with the longest lexeme after the white space. -/
theorem Tiles.cases_front {cs : List Char} {tiles : List Tile} (h : Tiles cs tiles) :
  cs.dropWhile isBlank = [] ∧ tiles = []
    ∨ ∃ text rest token more, Munch (cs.dropWhile isBlank) text rest token ∧ Tiles rest more
      ∧ tiles = ⟨cs.takeWhile isBlank, text, token⟩ :: more
  := by
  cases h with
  | blank hall =>
    left
    use List.dropWhile_eq_nil_iff.mpr hall
  | cons hblank hstart hmunch hrest =>
    obtain ⟨htake, hdrop⟩ := takeWhile_isBlank hblank hstart
    rw [htake, hdrop]
    right
    exact ⟨_, _, _, _, hmunch, hrest, rfl⟩

/-- A text has one tiling at most. -/
theorem Tiles.unique {cs : List Char} {tiles tiles' : List Tile} (h : Tiles cs tiles)
    (h' : Tiles cs tiles') :
  tiles = tiles'
  := by
  induction h generalizing tiles' with
  | blank hall =>
    rcases h'.cases_front with ⟨-, rfl⟩ | ⟨_, _, _, _, hmunch, -, -⟩
    · rfl
    · exact absurd (List.dropWhile_eq_nil_iff.mpr hall) hmunch.ne_nil
  | cons hblank hstart hmunch _ ih =>
    obtain ⟨htake, hdrop⟩ := takeWhile_isBlank hblank hstart
    rcases h'.cases_front with ⟨hnil, -⟩ | ⟨_, _, _, _, hmunch', hmore, rfl⟩
    · exact absurd (hdrop.symm.trans hnil) hmunch.ne_nil
    · rw [hdrop] at hmunch'
      obtain ⟨rfl, rfl, rfl⟩ := hmunch.unique hmunch'
      rw [htake, ih hmore]

/-! ### What the tiles are -/

/-- The tiles of a text and the white space after them are the whole text. -/
theorem Tiles.exists_eq_append {cs : List Char} {tiles : List Tile} (h : Tiles cs tiles) :
  ∃ blank, cs = (tiles.flatMap fun tile => tile.blank ++ tile.text) ++ blank
    ∧ ∀ c ∈ blank, isBlank c
  := by
  induction h with
  | @blank cs hall => use cs, rfl
  | cons _ _ hmunch _ ih =>
    obtain ⟨blank, hrest, hblank⟩ := ih
    use blank
    constructor
    · rw [hmunch.split, List.flatMap_cons, List.append_assoc, List.append_assoc, ← hrest]
    · apply hblank

theorem Tiles.lexeme {cs : List Char} {tiles : List Tile} (h : Tiles cs tiles) :
  ∀ tile ∈ tiles, Lexeme tile.text tile.token
  := by
  induction h with
  | blank => simp
  | cons _ _ hmunch _ ih =>
    rw [List.forall_mem_cons]
    use hmunch.lexeme

/-- Every tile has a character. -/
theorem Tiles.length_le {cs : List Char} {tiles : List Tile} (h : Tiles cs tiles) :
  tiles.length ≤ cs.length
  := by
  induction h with
  | blank => exact Nat.zero_le _
  | @cons blank cs text rest token tiles _ _ hmunch _ ih =>
    have hpos := List.length_pos_iff.mpr hmunch.lexeme.ne_nil
    rw [hmunch.split, List.length_append, List.length_append, List.length_cons]
    omega

end FrontEnd
