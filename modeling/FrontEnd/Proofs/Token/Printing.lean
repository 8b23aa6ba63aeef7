import FrontEnd.Proofs.Token.Spacing

/-!
# Printing tokens

A token is scannable if its literal is enough to tell it: so are reserved words, symbols, words that
are not reserved, and numbers, and so are all tokens that are read from anything, except the illegal
ones (`Token.scannable_iff`). Scannable tokens that are printed with white space between them are
read back one by one, whatever the white space is (`toList_print`).
-/

namespace FrontEnd

open Text

variable {token : Token}

/-- A literal that is fixed is a reserved word, a symbol of one character or one of two. -/
theorem Kind.cases_of_literal? {kind : Kind} {literal : String} (h : kind.literal? = some literal)
    (hillegal : kind ≠ .illegal) (hend : kind ≠ .endOfInput) :
  (literal, kind) ∈ reservedWords
    ∨ (∃ entry ∈ symbols, literal = String.singleton entry.1 ∧ kind = entry.2)
    ∨ (literal = "==" ∧ kind = .equal) ∨ (literal = "!=" ∧ kind = .notEqual)
  := by
  cases kind
  case illegal => exact absurd rfl hillegal
  case endOfInput => exact absurd rfl hend
  case number => simp [literal?] at h
  case identifier => simp [literal?] at h
  all_goals
    obtain rfl := Option.some.inj h
    decide

namespace Token

/-! ### Scannable tokens -/

/-- A token that its literal is enough to tell. -/
inductive Scannable : Token → Prop where
  /-- A reserved word or a symbol. -/
  | fixed {token : Token} (h : fixed? token.kind = some token) (hillegal : token.kind ≠ .illegal)
      (hend : token.kind ≠ .endOfInput) : Scannable token
  | identifier {word : String} (hne : word ≠ "") (hword : ∀ c ∈ word.toList, isAlphabetic c)
      (h : ∀ kind, (word, kind) ∉ Kind.reservedWords) : Scannable ⟨.identifier, word⟩
  | number {whole part : List Char} (hne : whole ≠ []) (hwhole : ∀ c ∈ whole, c.isDigit)
      (hpart : IsFraction part) : Scannable ⟨.number, String.ofList (whole ++ part)⟩

theorem lexeme_of_fixed? (h : fixed? token.kind = some token) (hillegal : token.kind ≠ .illegal)
    (hend : token.kind ≠ .endOfInput) :
  Lexeme token.literal.toList token
  := by
  obtain ⟨kind, literal⟩ := token
  have hliteral : kind.literal? = some literal := by simpa [fixed?] using h
  rcases Kind.cases_of_literal? hliteral hillegal hend with
    hmem | ⟨⟨c, kind⟩, hmem, rfl, rfl⟩ | ⟨rfl, rfl⟩ | ⟨rfl, rfl⟩
  · exact .of_mem_reservedWords hmem
  · rw [String.toList_singleton]
    exact .symbol hmem
  · exact .equal
  · exact .notEqual

/-- A token is scannable if and only if it is a lexeme by its literal and not an illegal one. -/
theorem scannable_iff :
  token.Scannable ↔ Lexeme token.literal.toList token ∧ token.kind ≠ .illegal
  := by
  constructor
  · intro h
    cases h with
    | fixed h hillegal hend => use lexeme_of_fixed? h hillegal hend
    | identifier hne hword h =>
      have hlexeme := Lexeme.identifier (by simpa using hne) hword (by simpa using h)
      rw [String.ofList_toList] at hlexeme
      use hlexeme
      simp
    | number hne hwhole hpart =>
      rw [String.toList_ofList]
      use Lexeme.number hne hwhole hpart
      simp
  · rintro ⟨h, hkind⟩
    generalize token.literal.toList = text at h
    cases h with
    | reserved _ hmem =>
      have hfixed : ∀ entry ∈ Kind.reservedWords, fixed? entry.2 = some ⟨entry.2, entry.1⟩ := by
        decide
      exact .fixed (hfixed _ hmem) hkind (Kind.kind_of_mem_reservedWords _ hmem).2
    | identifier hne hword h =>
      exact .identifier (by simpa using hne) (by simpa using hword) h
    | number hne hwhole hpart => exact .number hne hwhole hpart
    | equal => exact .fixed rfl hkind (by simp)
    | notEqual => exact .fixed rfl hkind (by simp)
    | symbol hmem =>
      have hfixed : ∀ entry ∈ Kind.symbols,
          fixed? entry.2 = some ⟨entry.2, String.singleton entry.1⟩ := by decide
      exact .fixed (hfixed _ hmem) hkind (Kind.kind_of_mem_symbols _ hmem).2
    | stray => exact absurd rfl hkind

/-- A token that is read from a text is scannable, unless it is illegal. -/
theorem scannable_of_splits {cs : List Char} {ts : List Token} (h : Splits cs ts)
    (hmem : token ∈ ts) (hkind : token.kind ≠ .illegal) :
  token.Scannable
  := by
  obtain ⟨tiles, htiles, rfl⟩ := h
  obtain ⟨tile, htile, rfl⟩ := List.mem_map.mp hmem
  have hlexeme := htiles.lexeme tile htile
  apply scannable_iff.mpr
  rw [hlexeme.literal_eq hkind, String.toList_ofList]
  use hlexeme

/-! ### Printing -/

/-- The literals of tokens, with white space between them: the break that comes with a token
follows it, except for the last one. -/
def print : List (Token × Break) → String
  | [] => ""
  | [(token, _)] => token.literal
  | (token, gap) :: rest => token.literal ++ gap.val ++ print rest

theorem splits_print {entries : List (Token × Break)} (h : ∀ entry ∈ entries, entry.1.Scannable) :
  Splits (print entries).toList (entries.map Prod.fst)
  := by
  fun_induction print entries with
  | case1 => apply splits_nil
  | case2 token gap =>
    obtain ⟨hlexeme, hkind⟩ := scannable_iff.mp (h _ List.mem_cons_self)
    apply hlexeme.splits hkind
  | case3 token gap rest _ ih =>
    obtain ⟨hfirst, hrest⟩ := List.forall_mem_cons.mp h
    obtain ⟨hlexeme, hkind⟩ := scannable_iff.mp hfirst
    have hsplits := (hlexeme.splits hkind).append_blank (by simpa using gap.property.1)
      gap.property.2 (ih hrest)
    simpa using hsplits

/-- One space. -/
def space : Break := ⟨" ", by decide, by simpa using (by decide : isBlank ' ')⟩

theorem print_space (ts : List Token) :
  print (ts.map fun token => (token, space)) = " ".intercalate (ts.map literal)
  := by
  match ts with
  | [] => rfl
  | [_] => simp [print]
  | token :: token' :: ts =>
    have ih := print_space (token' :: ts)
    simp only [List.map_cons] at ih ⊢
    rw [print, ih, String.intercalate_cons_cons, space]
    simp

end Token

/-! ### Reading back -/

/-- Scannable tokens are read back from what is printed of them. -/
theorem yields_print {entries : List (Token × Break)} (h : ∀ entry ∈ entries, entry.1.Scannable) :
  ∃ last, (TokenStream.ofSource (.ofBytes (Utf8.encode (Token.print entries)))).toList.Yields
      (entries.map Prod.fst, last)
    ∧ last.Ended none
  := by
  have hsplits := Token.splits_print h
  rw [← Utf8.decode_encode] at hsplits
  apply yields_toList (delivers_ofBytes _) hsplits

theorem yields_intercalate {ts : List Token} (h : ∀ token ∈ ts, token.Scannable) :
  ∃ last, (TokenStream.ofSource
      (.ofBytes (Utf8.encode (" ".intercalate (ts.map Token.literal))))).toList.Yields (ts, last)
    ∧ last.Ended none
  := by
  have hentries : ∀ entry ∈ ts.map fun token => (token, Token.space), entry.1.Scannable := by
    simpa using h
  have hfst : (ts.map fun token => (token, Token.space)).map Prod.fst = ts := by
    rw [List.map_map]
    apply List.map_id
  have hyields := yields_print hentries
  rwa [Token.print_space, hfst] at hyields

/-- Scannable tokens are read back from what is printed of them, whatever white space is between
them. So the tokens of any source, unless an illegal one is among them, are read back from their
literals with single spaces between them. -/
theorem toList_print :
  (∀ entries : List (Token × Break), (∀ entry ∈ entries, entry.1.Scannable) →
    ∃ last, (TokenStream.ofSource (.ofBytes (Utf8.encode (Token.print entries)))).toList.Yields
        (entries.map Prod.fst, last)
      ∧ last.Ended none)
    ∧ ∀ source : Source, ∃ ts last, (TokenStream.ofSource source).toList.Yields (ts, last)
        ∧ ((∀ token ∈ ts, token.kind ≠ .illegal) →
          ∃ last', (TokenStream.ofSource
              (.ofBytes (Utf8.encode (" ".intercalate (ts.map Token.literal))))).toList.Yields
              (ts, last')
            ∧ last'.Ended none)
  := by
  constructor
  · intro entries hentries
    apply yields_print hentries
  · intro source
    obtain ⟨ts, last, fate, ⟨cs, tiles, -, htiles, rfl⟩, hlist⟩ :=
      (TokenStream.ofSource source).exists_yields_toList
    use tiles.map Tile.token, last, hlist
    intro hlegal
    apply yields_intercalate
    intro token hmem
    apply Token.scannable_of_splits htiles.splits hmem (hlegal token hmem)

/-- Each token stops at the white space after it where it could go on, and they are the same tokens
with other white space between them. -/
theorem toList_print_prefixes :
  ∃ last last',
    (TokenStream.ofSource (.ofBytes (Utf8.encode "let\nlettuce = \t== 5. 5.5"))).toList.Yields
        ([⟨.letWord, "let"⟩, ⟨.identifier, "lettuce"⟩, ⟨.assign, "="⟩, ⟨.equal, "=="⟩,
          ⟨.number, "5."⟩, ⟨.number, "5.5"⟩], last)
    ∧ (TokenStream.ofSource (.ofBytes (Utf8.encode "let lettuce = == 5. 5.5"))).toList.Yields
        ([⟨.letWord, "let"⟩, ⟨.identifier, "lettuce"⟩, ⟨.assign, "="⟩, ⟨.equal, "=="⟩,
          ⟨.number, "5."⟩, ⟨.number, "5.5"⟩], last')
  := by
  have hbreak : "\n".toList.all isBlank := by decide
  have hbreak' : " \t".toList.all isBlank := by decide
  have hword : "lettuce".toList.all isAlphabetic := by decide +kernel
  have hentries : ∀ entry ∈ ([(⟨.letWord, "let"⟩, ⟨"\n", by decide, List.all_eq_true.mp hbreak⟩),
      (⟨.identifier, "lettuce"⟩, Token.space),
      (⟨.assign, "="⟩, ⟨" \t", by decide, List.all_eq_true.mp hbreak'⟩),
      (⟨.equal, "=="⟩, Token.space), (⟨.number, "5."⟩, Token.space),
      (⟨.number, "5.5"⟩, Token.space)] : List (Token × Break)), entry.1.Scannable := by
    simp only [List.forall_mem_cons, List.not_mem_nil, false_implies, implies_true, and_true]
    refine ⟨.fixed rfl (by decide) (by decide), ?_, .fixed rfl (by decide) (by decide),
      .fixed rfl (by decide) (by decide), ?_, ?_⟩
    · exact .identifier (by decide) (List.all_eq_true.mp hword) (by simp [Kind.reservedWords])
    · exact @Token.Scannable.number ['5'] ['.'] (by simp) (List.all_eq_true.mp rfl)
        (.inr ⟨[], rfl, by simp⟩)
    · exact @Token.Scannable.number ['5'] ['.', '5'] (by simp) (List.all_eq_true.mp rfl)
        (.inr ⟨['5'], rfl, List.all_eq_true.mp rfl⟩)
  obtain ⟨last, hlast, -⟩ := toList_print.1 _ hentries
  obtain ⟨ts, _, hlist, hback⟩ :=
    toList_print.2 (.ofBytes (Utf8.encode "let\nlettuce = \t== 5. 5.5"))
  obtain ⟨rfl, -⟩ := Prod.mk.inj (hlast.unique hlist)
  obtain ⟨last', hlast', -⟩ := hback (by simp)
  exact ⟨last, last', hlast, hlast'⟩

end FrontEnd
