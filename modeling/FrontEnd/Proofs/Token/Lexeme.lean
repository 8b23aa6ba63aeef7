import FrontEnd.Text.Alphabetic
import FrontEnd.Token.Basic
import Mathlib.Data.List.TakeWhile

/-!
# Lexemes

`Lexeme text token` says which texts are tokens by themselves and of which kind: words, numbers,
symbols of one or two characters, and every other single character, which is an illegal token.
The first character decides which class a lexeme is of, so a text is one token at most
(`Lexeme.unique`).
-/

namespace FrontEnd

open Text

/-- The reserved words. -/
def Kind.reservedWords : List (String × Kind) :=
  [("fn", .fnWord), ("let", .letWord), ("true", .trueWord), ("false", .falseWord),
    ("if", .ifWord), ("else", .elseWord), ("return", .returnWord)]

/-- The symbols of one character. -/
def Kind.symbols : List (Char × Kind) :=
  [('=', .assign), ('!', .bang), ('+', .plus), ('-', .minus), ('*', .asterisk), ('/', .slash),
    (',', .comma), (';', .semicolon), ('(', .leftParen), (')', .rightParen), ('{', .leftBrace),
    ('}', .rightBrace), ('>', .greater), ('<', .less)]

/-- A point and digits after it, or nothing. -/
def IsFraction (part : List Char) : Prop :=
  part = [] ∨ ∃ digits, part = '.' :: digits ∧ ∀ c ∈ digits, c.isDigit

/-- The text is one token by itself. -/
inductive Lexeme : List Char → Token → Prop where
  | reserved {text : List Char} {kind : Kind} (hword : ∀ c ∈ text, isAlphabetic c)
      (h : (String.ofList text, kind) ∈ Kind.reservedWords) :
      Lexeme text ⟨kind, String.ofList text⟩
  | identifier {text : List Char} (hne : text ≠ []) (hword : ∀ c ∈ text, isAlphabetic c)
      (h : ∀ kind, (String.ofList text, kind) ∉ Kind.reservedWords) :
      Lexeme text ⟨.identifier, String.ofList text⟩
  | number {whole part : List Char} (hne : whole ≠ []) (hwhole : ∀ c ∈ whole, c.isDigit)
      (hpart : IsFraction part) :
      Lexeme (whole ++ part) ⟨.number, String.ofList (whole ++ part)⟩
  | equal : Lexeme ['=', '='] ⟨.equal, "=="⟩
  | notEqual : Lexeme ['!', '='] ⟨.notEqual, "!="⟩
  | symbol {c : Char} {kind : Kind} (h : (c, kind) ∈ Kind.symbols) :
      Lexeme [c] ⟨kind, String.singleton c⟩
  | stray {c : Char} (hword : isAlphabetic c = false) (hdigit : c.isDigit = false)
      (h : ∀ kind, (c, kind) ∉ Kind.symbols) :
      Lexeme [c] ⟨.illegal, "ILLEGAL"⟩

/-! ### Words and symbols -/

namespace Kind

theorem ofWord_of_mem :
  ∀ entry ∈ reservedWords, ofWord entry.1 = entry.2
  := by decide

/-- The literal of a reserved kind is listed with it. -/
theorem mem_reservedWords {word : String} {kind : Kind} (h : kind.isReserved)
    (hliteral : kind.literal? = some word) :
  (word, kind) ∈ reservedWords
  := by
  cases kind
  all_goals simp_all [isReserved, literal?, reservedWords]

theorem ofWord_of_not_mem {word : String} (h : ∀ kind, (word, kind) ∉ reservedWords) :
  ofWord word = identifier
  := by
  have hnone : (all.find? fun kind => kind.isReserved && kind.literal? == some word) = none := by
    apply List.find?_eq_none.mpr
    intro kind _ hkind
    simp only [Bool.and_eq_true, beq_iff_eq] at hkind
    apply h kind (mem_reservedWords hkind.1 hkind.2)
  rw [ofWord, hnone]

/-- A symbol that stands alone is listed, and so are `=` and `!`. -/
theorem mem_symbols_of_ofSymbol? {c : Char} {kind : Kind} (h : ofSymbol? c = some kind) :
  (c, kind) ∈ symbols
  := by
  unfold ofSymbol? at h
  split at h
  all_goals simp_all [symbols]

theorem ofSymbol?_of_mem :
  ∀ entry ∈ symbols, entry.1 ≠ '=' → entry.1 ≠ '!' → ofSymbol? entry.1 = some entry.2
  := by decide

theorem ne_empty_of_mem_reservedWords :
  ∀ entry ∈ reservedWords, entry.1 ≠ ""
  := by decide

theorem isAlphabetic_of_mem_reservedWords :
  ∀ entry ∈ reservedWords, entry.1.toList.all isAlphabetic
  := by decide +kernel

theorem kind_of_mem_reservedWords :
  ∀ entry ∈ reservedWords, entry.2 ≠ illegal ∧ entry.2 ≠ endOfInput
  := by decide

theorem ofWord_ne_illegal (word : String) :
  ofWord word ≠ illegal
  := by
  by_cases h : ∃ kind, (word, kind) ∈ reservedWords
  · obtain ⟨kind, hmem⟩ := h
    rw [ofWord_of_mem _ hmem]
    apply (kind_of_mem_reservedWords _ hmem).1
  · rw [ofWord_of_not_mem (not_exists.mp h)]
    decide

theorem kind_of_mem_symbols :
  ∀ entry ∈ symbols, entry.2 ≠ illegal ∧ entry.2 ≠ endOfInput
  := by decide

/-- A symbol is of one kind. -/
theorem lookup_symbols :
  ∀ entry ∈ symbols, symbols.lookup entry.1 = some entry.2
  := by decide

/-- No symbol can stand in a word or a number. -/
theorem class_of_mem_symbols :
  ∀ entry ∈ symbols, isAlphabetic entry.1 = false ∧ entry.1.isDigit = false
  := by decide +kernel

end Kind

theorem isAlphabetic_of_lt {c : Char} (h : c.toNat < 0x41) :
  isAlphabetic c = false
  := by
  rw [isAlphabetic, show alphabeticRanges = (0x41, 0x5A) :: alphabeticRanges.tail from rfl,
    Ranges.contains]
  simp only [Bool.and_eq_false_imp, decide_eq_true_eq]
  omega

theorem isAlphabetic_of_isDigit {c : Char} (h : c.isDigit) :
  isAlphabetic c = false
  := by
  apply isAlphabetic_of_lt
  simp only [Char.isDigit, Bool.and_eq_true, decide_eq_true_eq, ge_iff_le,
    UInt32.le_iff_toNat_le] at h
  have hle : c.toNat ≤ 0x39 := h.2
  omega

/-! ### Lexemes by their first character -/

/-- What can come after the first character in a lexeme. -/
def LexemeTail (first : Char) (rest : List Char) : Prop :=
  if isAlphabetic first then ∀ c ∈ rest, isAlphabetic c
  else if first.isDigit then
    ∃ whole part, rest = whole ++ part ∧ (∀ c ∈ whole, c.isDigit) ∧ IsFraction part
  else if first = '=' ∨ first = '!' then rest = [] ∨ rest = ['=']
  else rest = []

/-- The token of a lexeme. -/
def Token.ofLexeme (first : Char) (rest : List Char) : Token :=
  if isAlphabetic first then
    ⟨Kind.ofWord (String.ofList (first :: rest)), String.ofList (first :: rest)⟩
  else if first.isDigit then ⟨.number, String.ofList (first :: rest)⟩
  else if rest = ['='] then
    if first = '=' then ⟨.equal, "=="⟩ else ⟨.notEqual, "!="⟩
  else
    match Kind.symbols.lookup first with
    | some kind => ⟨kind, String.singleton first⟩
    | none => ⟨.illegal, "ILLEGAL"⟩

namespace Lexeme

variable {first : Char} {rest : List Char} {token : Token}

theorem ne_nil {text : List Char} (h : Lexeme text token) :
  text ≠ []
  := by
  cases h with
  | reserved _ h =>
    rintro rfl
    apply Kind.ne_empty_of_mem_reservedWords _ h rfl
  | identifier hne => apply hne
  | number hne => simp [hne]
  | equal => simp
  | notEqual => simp
  | symbol => simp
  | stray => simp

/-- A word is a lexeme, reserved or not. -/
theorem word {text : List Char} (hne : text ≠ []) (hword : ∀ c ∈ text, isAlphabetic c) :
  Lexeme text ⟨Kind.ofWord (String.ofList text), String.ofList text⟩
  := by
  by_cases hmem : ∃ kind, (String.ofList text, kind) ∈ Kind.reservedWords
  · obtain ⟨kind, hmem⟩ := hmem
    rw [Kind.ofWord_of_mem _ hmem]
    exact .reserved hword hmem
  · rw [Kind.ofWord_of_not_mem (not_exists.mp hmem)]
    exact .identifier hne hword (not_exists.mp hmem)

theorem of_mem_reservedWords {word : String} {kind : Kind} (h : (word, kind) ∈ Kind.reservedWords) :
  Lexeme word.toList ⟨kind, word⟩
  := by
  have hword := List.all_eq_true.mp (Kind.isAlphabetic_of_mem_reservedWords _ h)
  rw [← String.ofList_toList (s := word)] at h
  simpa using Lexeme.reserved hword h

/-- The first character decides what can come after it. -/
theorem tail (h : Lexeme (first :: rest) token) :
  LexemeTail first rest
  := by
  generalize htext : first :: rest = text at h
  cases h with
  | reserved hword =>
    subst htext
    obtain ⟨hfirst, hrest⟩ := List.forall_mem_cons.mp hword
    rwa [LexemeTail, if_pos hfirst]
  | identifier _ hword =>
    subst htext
    obtain ⟨hfirst, hrest⟩ := List.forall_mem_cons.mp hword
    rwa [LexemeTail, if_pos hfirst]
  | @number whole part hne hwhole hpart =>
    cases whole with
    | nil => exact absurd rfl hne
    | cons digit whole =>
      obtain ⟨rfl, rfl⟩ := List.cons.inj htext
      obtain ⟨hfirst, hrest⟩ := List.forall_mem_cons.mp hwhole
      rw [LexemeTail, isAlphabetic_of_isDigit hfirst, if_neg (by simp), if_pos hfirst]
      exact ⟨whole, part, rfl, hrest, hpart⟩
  | equal =>
    obtain ⟨rfl, rfl⟩ := List.cons.inj htext
    exact .inr rfl
  | notEqual =>
    obtain ⟨rfl, rfl⟩ := List.cons.inj htext
    exact .inr rfl
  | symbol h =>
    obtain ⟨rfl, rfl⟩ := List.cons.inj htext
    obtain ⟨hword, hdigit⟩ := Kind.class_of_mem_symbols _ h
    simp [LexemeTail, hword, hdigit]
  | stray hword hdigit =>
    obtain ⟨rfl, rfl⟩ := List.cons.inj htext
    simp [LexemeTail, hword, hdigit]

/-- The text decides which token it is. -/
theorem eq_ofLexeme (h : Lexeme (first :: rest) token) :
  token = Token.ofLexeme first rest
  := by
  generalize htext : first :: rest = text at h
  cases h with
  | reserved hword h =>
    subst htext
    rw [Token.ofLexeme, if_pos (hword first List.mem_cons_self), Kind.ofWord_of_mem _ h]
  | identifier _ hword h =>
    subst htext
    rw [Token.ofLexeme, if_pos (hword first List.mem_cons_self), Kind.ofWord_of_not_mem h]
  | @number whole part hne hwhole hpart =>
    cases whole with
    | nil => exact absurd rfl hne
    | cons digit whole =>
      obtain ⟨rfl, rfl⟩ := List.cons.inj htext
      have hfirst := hwhole first List.mem_cons_self
      rw [Token.ofLexeme, isAlphabetic_of_isDigit hfirst, if_neg (by simp), if_pos hfirst]
      rfl
  | equal =>
    obtain ⟨rfl, rfl⟩ := List.cons.inj htext
    rfl
  | notEqual =>
    obtain ⟨rfl, rfl⟩ := List.cons.inj htext
    rfl
  | symbol h =>
    obtain ⟨rfl, rfl⟩ := List.cons.inj htext
    obtain ⟨hword, hdigit⟩ := Kind.class_of_mem_symbols _ h
    simp [Token.ofLexeme, hword, hdigit, Kind.lookup_symbols _ h]
  | stray hword hdigit h =>
    obtain ⟨rfl, rfl⟩ := List.cons.inj htext
    have hnone : Kind.symbols.lookup first = none := by
      apply List.lookup_eq_none_iff.mpr
      rintro ⟨c, kind⟩ hmem
      simp only [bne_iff_ne, ne_eq]
      rintro rfl
      apply h kind hmem
    simp [Token.ofLexeme, hword, hdigit, hnone]

/-- A text is one token at most. -/
theorem unique {text : List Char} {token token' : Token} (h : Lexeme text token)
    (h' : Lexeme text token') :
  token = token'
  := by
  cases text with
  | nil => exact absurd rfl h.ne_nil
  | cons first rest => rw [h.eq_ofLexeme, h'.eq_ofLexeme]

/-- The literal of a token is its text, unless the token is illegal. -/
theorem literal_eq {text : List Char} (h : Lexeme text token) :
  token.kind ≠ .illegal → token.literal = String.ofList text
  := by
  cases h with
  | stray => exact fun hkind => absurd rfl hkind
  | _ => exact fun _ => rfl

/-- An illegal token stands for one character. -/
theorem illegal_eq {text : List Char} (h : Lexeme text token) (hkind : token.kind = .illegal) :
  token.literal = "ILLEGAL" ∧ text.length = 1
  := by
  cases h with
  | reserved _ h => exact absurd hkind ((Kind.kind_of_mem_reservedWords _ h).1)
  | symbol h => exact absurd hkind ((Kind.kind_of_mem_symbols _ h).1)
  | stray => exact ⟨rfl, rfl⟩
  | _ => simp at hkind

/-- No text is the end of the input. -/
theorem isEnd_eq {text : List Char} (h : Lexeme text token) :
  token.isEnd = false
  := by
  have hkind : token.kind ≠ .endOfInput := by
    cases h with
    | reserved _ h => apply (Kind.kind_of_mem_reservedWords _ h).2
    | symbol h => apply (Kind.kind_of_mem_symbols _ h).2
    | _ => simp
  simpa [Token.isEnd] using hkind

end Lexeme

end FrontEnd
