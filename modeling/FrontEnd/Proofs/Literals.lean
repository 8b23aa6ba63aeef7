import FrontEnd.Proofs.Listing.Rows
import FrontEnd.Proofs.Token.Printing
import FrontEnd.Proofs.Tree.Forming

/-!
# The tokens that are scanned

A source scans a token if the token is taken from it by some call, after whatever was taken before.
A token is scanned from some source if and only if its kind admits its literal and the literal is
spelled as tokens of the kind are (`Token.exists_scans_iff`), which matters for identifiers and
numbers only: there the kinds admit literals that are never scanned. The literal of a token that is
scanned tells its kind, but for the word that illegal tokens have for a literal
(`Source.kind_of_literal`).
-/

namespace FrontEnd

open Text

/-- The token is one of those that are taken from the source. -/
def Source.Scans (source : Source) (token : Token) : Prop :=
  ∃ drawn last, (TokenStream.ofSource source).Draws drawn last ∧ token ∈ drawn

/-- How the literals of tokens of a kind are spelled: with letters only for identifiers, and for
numbers with digits, and at most one point after the first of them. -/
def Kind.Spells (kind : Kind) (literal : String) : Prop :=
  match kind with
  | identifier => ∀ c ∈ literal.toList, isAlphabetic c
  | number => ∃ whole part, literal = String.ofList (whole ++ part) ∧ whole ≠ []
      ∧ (∀ c ∈ whole, c.isDigit) ∧ IsFraction part
  | _ => True

variable {source source' : Source} {token token' : Token} {ts : List Token}

/-! ### What is scanned is a lexeme or the end -/

theorem Source.Scans.end_or_lexeme (h : source.Scans token) :
  token = .endOfInput ∨ ∃ text, Lexeme text token
  := by
  obtain ⟨drawn, last, hdraws, hmem⟩ := h
  obtain ⟨ts, fate, hts⟩ := (TokenStream.ofSource source).exists_holds
  rw [hdraws.eq_map_range hts] at hmem
  obtain ⟨place, -, rfl⟩ := List.mem_map.mp hmem
  rw [List.getD_eq_getElem?_getD]
  cases htoken : ts[place]? with
  | none =>
    left
    rfl
  | some token =>
    right
    apply hts.exists_lexeme token (List.mem_of_getElem? htoken)

/-- A kind with a fixed literal demands nothing. -/
theorem Kind.spells_of_literal? {kind : Kind} {fixed : String} (h : kind.literal? = some fixed)
    (literal : String) :
  kind.Spells literal
  := by
  cases kind
  case number => simp [literal?] at h
  case identifier => simp [literal?] at h
  all_goals trivial

/-- A lexeme is spelled as its kind demands. -/
theorem Lexeme.spells {text : List Char} (h : Lexeme text token) :
  token.kind.Spells token.literal
  := by
  cases h with
  | reserved _ hmem =>
    have hfixed : ∀ entry ∈ Kind.reservedWords, entry.2.literal? = some entry.1 := by decide
    apply Kind.spells_of_literal? (hfixed _ hmem)
  | identifier _ hword => simpa [Kind.Spells] using hword
  | @number whole part hne hwhole hpart => use whole, part
  | symbol hmem =>
    have hfixed : ∀ entry ∈ Kind.symbols,
        entry.2.literal? = some (String.singleton entry.1) := by decide
    apply Kind.spells_of_literal? (hfixed _ hmem)
  | _ => trivial

/-- What is scanned is admitted by its kind and spelled as the kind demands. -/
theorem Source.Scans.admits_spells {kind : Kind} {literal : String}
    (h : source.Scans ⟨kind, literal⟩) :
  kind.admits literal ∧ kind.Spells literal
  := by
  rcases h.end_or_lexeme with hend | ⟨text, hlexeme⟩
  · obtain ⟨rfl, rfl⟩ := Token.mk.inj hend
    exact ⟨rfl, trivial⟩
  · use hlexeme.admitted
    apply hlexeme.spells

/-! ### What can be scanned -/

/-- The tokens of a list and the end after them were taken one by one. -/
theorem TokenStream.exists_draws {stream last : TokenStream} (h : stream.toList.Yields (ts, last)) :
  ∃ token, token.isEnd ∧ stream.Draws (ts ++ [token]) last
  := by
  induction ts generalizing stream with
  | nil =>
    obtain ⟨token, rest, hnext, ⟨hend, -, rfl⟩ | ⟨-, us, hus, -⟩⟩ := toList_cases h
    · use token, hend
      apply Draws.next hnext (.refl last)
    · simp at hus
  | cons token ts ih =>
    obtain ⟨token', rest, hnext, ⟨-, hnil, -⟩ | ⟨-, us, hus, hrest⟩⟩ := toList_cases h
    · simp at hnil
    · obtain ⟨rfl, rfl⟩ := List.cons.inj hus
      obtain ⟨final, hend, hdraws⟩ := ih hrest
      use final, hend
      apply Draws.next hnext hdraws

theorem Source.scans_of_mem {last : TokenStream}
    (h : (TokenStream.ofSource source).toList.Yields (ts, last)) (hmem : token ∈ ts) :
  source.Scans token
  := by
  obtain ⟨final, -, hdraws⟩ := TokenStream.exists_draws h
  use ts ++ [final], last, hdraws
  apply List.mem_append_left _ hmem

/-- Every source comes to the end. -/
theorem Source.scans_endOfInput (source : Source) :
  source.Scans .endOfInput
  := by
  obtain ⟨ts, last, -, -, hlist⟩ := (TokenStream.ofSource source).exists_yields_toList
  obtain ⟨final, hend, hdraws⟩ := TokenStream.exists_draws hlist
  have hscans : source.Scans final := by
    use ts ++ [final], last, hdraws
    simp
  rcases hscans.end_or_lexeme with rfl | ⟨text, hlexeme⟩
  · apply hscans
  · simp [hlexeme.isEnd_eq] at hend

/-- The literal of illegal tokens is also scanned as an identifier. -/
theorem scans_illegalWord :
  (Source.ofBytes (Utf8.encode "ILLEGAL #")).Scans ⟨.identifier, "ILLEGAL"⟩
    ∧ (Source.ofBytes (Utf8.encode "ILLEGAL #")).Scans .illegal
  := by
  have hsplits : Splits "ILLEGAL #".toList _ := splits_illegalWord Token.space
  rw [← Utf8.decode_encode] at hsplits
  obtain ⟨last, hlist, -⟩ := yields_toList (delivers_ofBytes _) hsplits
  constructor
  · apply Source.scans_of_mem hlist (by simp)
  · apply Source.scans_of_mem hlist (by simp)

/-- A scannable token is scanned from its literal. -/
theorem Token.Scannable.scans (h : token.Scannable) :
  (Source.ofBytes (Utf8.encode token.literal)).Scans token
  := by
  obtain ⟨last, hlist, -⟩ := yields_intercalate (List.forall_mem_singleton.mpr h)
  rw [List.map_singleton, String.intercalate_singleton] at hlist
  apply Source.scans_of_mem hlist (List.mem_singleton_self token)

/-- An admitted token that is spelled as its kind demands is scannable, but for the end and the
illegal token. -/
theorem Token.scannable_of_admits {kind : Kind} {literal : String} (h : kind.admits literal)
    (hspells : kind.Spells literal) (hillegal : kind ≠ .illegal) (hend : kind ≠ .endOfInput) :
  Scannable ⟨kind, literal⟩
  := by
  have hadmitted : Token.Admitted ⟨kind, literal⟩ := h
  cases hliteral : kind.literal? with
  | some fixed =>
    obtain rfl := (Token.mk.inj (hadmitted.eq_of_literal? rfl hliteral)).2
    exact .fixed (by simp [fixed?, hliteral]) hillegal hend
  | none =>
    cases kind
    case identifier =>
      have hformed := hadmitted.wellFormed rfl
      exact .identifier hformed.ne_empty hspells hformed.unreserved
    case number =>
      obtain ⟨whole, part, rfl, hne, hwhole, hpart⟩ := hspells
      exact .number hne hwhole hpart
    all_goals simp [Kind.literal?] at hliteral

/-- A token is scanned from some source if and only if its kind admits its literal and the literal
is spelled as those of its kind are, and then it is scanned from a text. -/
theorem Token.exists_scans_iff (kind : Kind) (literal : String) :
  ((∃ source : Source, source.Scans ⟨kind, literal⟩)
      ↔ kind.admits literal ∧ kind.Spells literal)
    ∧ ((∃ text : String, (Source.ofBytes (Utf8.encode text)).Scans ⟨kind, literal⟩)
      ↔ kind.admits literal ∧ kind.Spells literal)
  := by
  have hscans : kind.admits literal ∧ kind.Spells literal →
      ∃ text : String, (Source.ofBytes (Utf8.encode text)).Scans ⟨kind, literal⟩ := by
    rintro ⟨hadmits, hspells⟩
    have hadmitted : Token.Admitted ⟨kind, literal⟩ := hadmits
    by_cases hillegal : kind = .illegal
    · rw [hadmitted.eq_of_literal? hillegal rfl]
      exact ⟨_, scans_illegalWord.2⟩
    by_cases hend : kind = .endOfInput
    · rw [hadmitted.eq_of_literal? hend rfl]
      exact ⟨"", Source.scans_endOfInput _⟩
    · exact ⟨literal, (scannable_of_admits hadmits hspells hillegal hend).scans⟩
  constructor
  · constructor
    · rintro ⟨source, h⟩
      apply h.admits_spells
    · intro h
      obtain ⟨text, htext⟩ := hscans h
      use Source.ofBytes (Utf8.encode text)
  · constructor
    · rintro ⟨text, h⟩
      apply h.admits_spells
    · apply hscans

/-- A text of two words is admitted for an identifier, and it is never scanned as one. -/
theorem Kind.admits_not_scans :
  Kind.identifier.admits "a b" ∧ ¬ ∃ source : Source, source.Scans ⟨.identifier, "a b"⟩
  := by
  constructor
  · decide
  · rintro ⟨source, h⟩
    have hspace : isAlphabetic ' ' := h.admits_spells.2 ' ' (by decide)
    rw [isAlphabetic_of_lt (by decide)] at hspace
    simp at hspace

/-! ### Literals tell kinds -/

theorem Lexeme.literal_ne_empty {text : List Char} (h : Lexeme text token) :
  token.literal ≠ ""
  := by
  by_cases hkind : token.kind = .illegal
  · rw [(h.illegal_eq hkind).1]
    decide
  · rw [h.literal_eq hkind]
    simpa using h.ne_nil

/-- A lexeme with the literal of illegal tokens is an illegal token or an identifier. -/
theorem Lexeme.kind_of_illegalWord {text : List Char} (h : Lexeme text token)
    (hliteral : token.literal = "ILLEGAL") :
  token.kind = .illegal ∨ token.kind = .identifier
  := by
  by_cases hkind : token.kind = .illegal
  · left
    apply hkind
  · right
    have hword : "ILLEGAL".toList.all isAlphabetic := by decide +kernel
    have htext : text = "ILLEGAL".toList := by
      rw [← hliteral, h.literal_eq hkind, String.toList_ofList]
    subst htext
    rw [h.unique (.word (by decide) (List.all_eq_true.mp hword))]
    decide

/-- The literals of two lexemes tell whether they are of one kind, but for the literal of illegal
tokens. -/
theorem Lexeme.kind_eq {text text' : List Char} (h : Lexeme text token) (h' : Lexeme text' token')
    (hliteral : token.literal = token'.literal) (hword : token.literal ≠ "ILLEGAL") :
  token.kind = token'.kind
  := by
  have hkind : token.kind ≠ .illegal := fun hkind => hword (h.illegal_eq hkind).1
  have hkind' : token'.kind ≠ .illegal := fun hkind =>
    hword (hliteral.trans (h'.illegal_eq hkind).1)
  rw [h.literal_eq hkind, h'.literal_eq hkind'] at hliteral
  obtain rfl := String.ofList_injective hliteral
  rw [h.unique h']

/-- Tokens with the same literal are of the same kind, whatever the sources are that they are
scanned from, unless one is illegal and the other is the identifier with the literal of illegal
tokens. -/
theorem Source.kind_of_literal (h : source.Scans token) (h' : source'.Scans token')
    (hliteral : token.literal = token'.literal) :
  token.kind = token'.kind
    ∨ token.literal = "ILLEGAL"
      ∧ (token.kind = .illegal ∧ token'.kind = .identifier
        ∨ token.kind = .identifier ∧ token'.kind = .illegal)
  := by
  rcases h.end_or_lexeme with rfl | ⟨text, hlexeme⟩
  · rcases h'.end_or_lexeme with rfl | ⟨text', hlexeme'⟩
    · left
      rfl
    · exact absurd hliteral.symm hlexeme'.literal_ne_empty
  · rcases h'.end_or_lexeme with rfl | ⟨text', hlexeme'⟩
    · exact absurd hliteral hlexeme.literal_ne_empty
    · by_cases hword : token.literal = "ILLEGAL"
      · have hkind := hlexeme.kind_of_illegalWord hword
        have hkind' := hlexeme'.kind_of_illegalWord (hliteral ▸ hword)
        grind
      · left
        apply hlexeme.kind_eq hlexeme' hliteral hword

/-- The two tokens of a text that have this literal. -/
theorem Source.kind_of_literal_illegalWord :
  ∃ token token' : Token, (Source.ofBytes (Utf8.encode "ILLEGAL #")).Scans token
    ∧ (Source.ofBytes (Utf8.encode "ILLEGAL #")).Scans token'
    ∧ token.literal = token'.literal ∧ token.kind ≠ token'.kind
    ∧ (token.kind = token'.kind
      ∨ token.literal = "ILLEGAL"
        ∧ (token.kind = .illegal ∧ token'.kind = .identifier
          ∨ token.kind = .identifier ∧ token'.kind = .illegal))
  := by
  obtain ⟨hword, hillegal⟩ := scans_illegalWord
  have hne : Kind.identifier ≠ .illegal := by decide
  exact ⟨_, _, hword, hillegal, rfl, hne, Source.kind_of_literal hword hillegal rfl⟩

/-- So a literal does not always tell the kind. -/
theorem Source.not_kind_of_literal :
  ¬ ∀ (source source' : Source) (token token' : Token), source.Scans token →
      source'.Scans token' → token.literal = token'.literal → token.kind = token'.kind
  := by
  intro h
  have hkind : Kind.identifier = .illegal :=
    h _ _ _ _ scans_illegalWord.1 scans_illegalWord.2 rfl
  simp at hkind

end FrontEnd
