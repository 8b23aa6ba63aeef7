import FrontEnd.Proofs.Delivered
import FrontEnd.Proofs.Text.Encoding

/-!
# Words and white space

White space is no part of any token, so what comes before it and what comes after it split apart
(`Splits.append_blank`), and a lexeme that stands alone is one token (`Lexeme.splits`). Every text
splits into tokens, and none of them is a semicolon unless there is one in the text.
-/

namespace FrontEnd

open Text

/-- White space, and at least one character of it. -/
abbrev Break : Type := { text : String // text ≠ "" ∧ ∀ c ∈ text.toList, isBlank c }

variable {c : Char} {cs ds blank word text : List Char} {ts us : List Token} {token : Token}

/-! ### White space -/

/-- The tables of white space and of letters have no code point in common. -/
theorem contains_alphabeticRanges_blank :
  ∀ range ∈ blankRanges, ∀ place < range.2 + 1 - range.1,
    Ranges.contains alphabeticRanges (range.1 + place) = false
  := by decide +kernel

theorem isAlphabetic_of_isBlank (h : isBlank c) :
  isAlphabetic c = false
  := by
  obtain ⟨range, hmem, hlow, hhigh⟩ :=
    (Ranges.contains_eq_true_iff blankRanges_ascending c.toNat).mp h
  have hplace := contains_alphabeticRanges_blank range hmem (c.toNat - range.1) (by omega)
  rwa [Nat.add_sub_cancel' hlow] at hplace

theorem isBlank_of_isAlphabetic (h : isAlphabetic c) :
  isBlank c = false
  := by
  by_contra hblank
  simp [isAlphabetic_of_isBlank (by simpa using hblank)] at h

theorem isBlank_of_isDigit (h : c.isDigit) :
  isBlank c = false
  := by
  simp only [Char.isDigit, ge_iff_le, Bool.and_eq_true, decide_eq_true_eq,
    UInt32.le_iff_toNat_le] at h
  obtain ⟨hlow, hhigh⟩ : 0x30 ≤ c.toNat ∧ c.toNat ≤ 0x39 := h
  simp only [isBlank, blankRanges, Ranges.contains]
  grind

/-- White space stands in no lexeme but by itself. -/
theorem isBoundary_of_isBlank (h : isBlank c) :
  IsBoundary c
  := by
  have hdigit : c.isDigit = false := by
    by_contra hdigit
    simp [isBlank_of_isDigit (by simpa using hdigit)] at h
  apply isBoundary_of_class (isAlphabetic_of_isBlank h) hdigit
  all_goals
    rintro rfl
    exact absurd h (by decide)

/-- White space before a text is no part of its tokens. -/
theorem Splits.blank_append (hblank : ∀ c ∈ blank, isBlank c) (h : Splits cs ts) :
  Splits (blank ++ cs) ts
  := by
  obtain ⟨tiles, htiles, rfl⟩ := h
  have hdrop : (blank ++ cs).dropWhile isBlank = cs.dropWhile isBlank :=
    List.dropWhile_append_of_pos hblank
  rcases htiles.cases_front with ⟨hall, rfl⟩ | ⟨text, rest, token, more, hmunch, hmore, rfl⟩
  · apply Tiles.splits (.blank (List.dropWhile_eq_nil_iff.mp (hdrop.trans hall)))
  · rw [← hdrop] at hmunch
    apply (hmunch.tiles hmore).splits

/-- White space parts what comes before it from what comes after it. -/
theorem Splits.append_blank (h : Splits cs ts) (hne : blank ≠ [])
    (hblank : ∀ c ∈ blank, isBlank c) (hback : Splits ds us) :
  Splits (cs ++ (blank ++ ds)) (ts ++ us)
  := by
  have hback' := hback.blank_append hblank
  obtain ⟨first, rest, rfl⟩ := List.exists_cons_of_ne_nil hne
  apply h.append (isBoundary_of_isBlank (hblank first List.mem_cons_self)) hback'

theorem Splits.append_space (h : Splits cs ts) (hback : Splits ds us) :
  Splits (cs ++ ' ' :: ds) (ts ++ us)
  := by
  apply h.append_blank (List.cons_ne_nil ' ' []) _ hback
  simpa using (by decide : isBlank ' ')

/-! ### Words -/

/-- The longest lexeme at the front is a token, and what comes after it splits by itself. -/
theorem Munch.splits (h : Munch cs text ds token) (hstart : cs.dropWhile isBlank = cs)
    (hrest : Splits ds us) :
  Splits cs (token :: us)
  := by
  obtain ⟨tiles, htiles, rfl⟩ := hrest
  rw [← hstart] at h
  apply (h.tiles htiles).splits

theorem splits_nil :
  Splits [] []
  := Tiles.splits (.blank (by simp))

/-- No lexeme has white space in it, unless it is an illegal token. -/
theorem Lexeme.isBlank_eq (h : Lexeme text token) (hkind : token.kind ≠ .illegal) :
  ∀ c ∈ text, isBlank c = false
  := by
  intro c hc
  cases h with
  | reserved hword => apply isBlank_of_isAlphabetic (hword c hc)
  | identifier _ hword => apply isBlank_of_isAlphabetic (hword c hc)
  | number _ hwhole hpart =>
    rcases List.mem_append.mp hc with hc | hc
    · apply isBlank_of_isDigit (hwhole c hc)
    · obtain rfl | ⟨digits, rfl, hdigits⟩ := hpart
      · simp at hc
      · rcases List.mem_cons.mp hc with rfl | hc
        · decide
        · apply isBlank_of_isDigit (hdigits c hc)
  | equal =>
    obtain rfl : c = '=' := by simpa using hc
    decide
  | notEqual =>
    obtain rfl | rfl : c = '!' ∨ c = '=' := by simpa using hc
    · decide
    · decide
  | symbol hmem =>
    have hall : ∀ entry ∈ Kind.symbols, isBlank entry.1 = false := by decide
    rw [List.mem_singleton.mp hc]
    apply hall _ hmem
  | stray => exact absurd rfl hkind

/-- There is no white space in the literal of a lexeme. -/
theorem Lexeme.isBlank_literal (h : Lexeme text token) :
  ∀ c ∈ token.literal.toList, isBlank c = false
  := by
  by_cases hkind : token.kind = .illegal
  · have hall : "ILLEGAL".toList.all fun c => !isBlank c := by decide
    rw [(h.illegal_eq hkind).1]
    simpa using List.all_eq_true.mp hall
  · rw [h.literal_eq hkind, String.toList_ofList]
    apply h.isBlank_eq hkind

/-- A lexeme that stands alone is one token. -/
theorem Lexeme.splits (h : Lexeme text token) (hkind : token.kind ≠ .illegal) :
  Splits text [token]
  := by
  have hmunch : Munch text text [] token := by
    refine ⟨(List.append_nil text).symm, h, ?_⟩
    intro longer token' _ hprefix
    rw [List.append_nil] at hprefix
    apply hprefix.length_le
  obtain ⟨first, rest, rfl⟩ := List.exists_cons_of_ne_nil h.ne_nil
  apply hmunch.splits _ splits_nil
  simp [h.isBlank_eq hkind first List.mem_cons_self]

/-- A word that stands alone is one token. -/
theorem splits_word (hne : word ≠ []) (hword : ∀ c ∈ word, isAlphabetic c) :
  Splits word [⟨Kind.ofWord (String.ofList word), String.ofList word⟩]
  := by
  apply (Lexeme.word hne hword).splits (Kind.ofWord_ne_illegal _)

/-! ### Any text -/

theorem exists_splits (text : String) :
  ∃ ts, Splits text.toList ts
  := by
  have hsplits := exists_splits_decode (Utf8.encode text)
  rwa [Utf8.decode_encode] at hsplits

theorem Lexeme.semicolon_mem (h : Lexeme text token) (hkind : token.kind = .semicolon) :
  ';' ∈ text
  := by
  cases h with
  | reserved _ hmem =>
    have hne : ∀ entry ∈ Kind.reservedWords, entry.2 ≠ .semicolon := by decide
    exact absurd hkind (hne _ hmem)
  | symbol hmem =>
    have honly : ∀ entry ∈ Kind.symbols, entry.2 = .semicolon → entry.1 = ';' := by decide
    obtain rfl := honly _ hmem hkind
    apply List.mem_singleton_self
  | _ => simp at hkind

/-- A text without semicolons has no semicolon among its tokens. -/
theorem Splits.ne_semicolon (h : Splits cs ts) (hcs : ';' ∉ cs) :
  ∀ token ∈ ts, token.kind ≠ .semicolon
  := by
  obtain ⟨tiles, htiles, rfl⟩ := h
  induction htiles with
  | blank => simp
  | cons _ _ hmunch _ ih =>
    rw [hmunch.split, List.mem_append, List.mem_append, not_or, not_or] at hcs
    rw [List.map_cons, List.forall_mem_cons]
    constructor
    · intro hkind
      exact hcs.2.1 (hmunch.lexeme.semicolon_mem hkind)
    · apply ih hcs.2.2

end FrontEnd
