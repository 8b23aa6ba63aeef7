import FrontEnd.Proofs.Token.Spacing

/-!
# Sentences

A sentence is the text of one statement: `let`, a name, `=` and a value, or `return` and a value,
up to a semicolon. The value is any text without a semicolon. Sentences with white space between
them are parsed as their statements, one for each, and leave no diagnostic (`parse_spell`).
-/

namespace FrontEnd

open Text

/-- A word that is not reserved. -/
structure Name where
  text : String
  ne_empty : text ≠ ""
  alphabetic : ∀ c ∈ text.toList, isAlphabetic c
  unreserved : ∀ kind, (text, kind) ∉ Kind.reservedWords

/-- A text without semicolons. -/
abbrev Value : Type := { text : String // ';' ∉ text.toList }

/-- White space, or nothing. -/
abbrev Gap : Type := { text : String // ∀ c ∈ text.toList, isBlank c }

/-- The text of a statement, up to the semicolon. -/
inductive Sentence where
  | binding (name : Name) (value : Value)
  | result (value : Value)

namespace Sentence

/-- What comes before the semicolon. -/
def front : Sentence → String
  | binding name value => "let " ++ name.text ++ " = " ++ value.val
  | result value => "return " ++ value.val

/-- The statement that a sentence is. -/
def statement : Sentence → Statement
  | binding name _ =>
    .binding ⟨.letWord, "let"⟩ ⟨⟨.identifier, name.text⟩, name.text⟩ none
  | result _ => .result ⟨.returnWord, "return"⟩ none

/-- Sentences, each after a gap, and a gap after them. -/
def spell : List (Gap × Sentence) → Gap → String
  | [], last => last.val
  | (gap, sentence) :: rest, last => gap.val ++ sentence.front ++ ";" ++ spell rest last

/-! ### One sentence -/

/-- The tokens of a value, with a semicolon after them, end there and nowhere before. -/
theorem exists_body (value : Value) :
  ∃ body, Splits value.val.toList body
    ∧ ∀ rest, Terminated (body ++ [Token.semicolon]) rest
  := by
  obtain ⟨body, hbody⟩ := exists_splits value.val
  use body, hbody
  intro rest
  left
  use body, Token.semicolon, rfl, rfl
  apply hbody.ne_semicolon value.property

theorem splits_name (name : Name) :
  Splits name.text.toList [⟨.identifier, name.text⟩]
  := by
  have hword := splits_word (by simpa using name.ne_empty) name.alphabetic
  rwa [String.ofList_toList, Kind.ofWord_of_not_mem name.unreserved] at hword

/-- A reserved word stands for its kind. -/
theorem splits_reserved {word : String} {kind : Kind} (h : (word, kind) ∈ Kind.reservedWords) :
  Splits word.toList [⟨kind, word⟩]
  := by
  apply (Lexeme.of_mem_reservedWords h).splits (Kind.kind_of_mem_reservedWords _ h).1

theorem splits_assign :
  Splits ['='] [⟨.assign, "="⟩]
  := by
  have hlexeme : Lexeme ['='] ⟨.assign, "="⟩ := .symbol (by decide)
  apply hlexeme.splits (by simp)

/-- The tokens of a sentence up to the semicolon are one segment, whatever comes after it: that of
its statement. -/
theorem exists_segment (sentence : Sentence) :
  ∃ (ts : List Token) (segment : Segment), Splits sentence.front.toList ts
    ∧ segment.tokens = ts ++ [Token.semicolon] ∧ (∀ rest, segment.Fits rest)
    ∧ segment.statement? = some sentence.statement ∧ segment.diagnostic? = none
  := by
  cases sentence with
  | binding name value =>
    obtain ⟨body, hbody, hterminated⟩ := exists_body value
    have hlet : Splits "let".toList [⟨.letWord, "let"⟩] := splits_reserved (by decide)
    have hfront := hlet.append_space
      ((splits_name name).append_space (splits_assign.append_space hbody))
    use [⟨.letWord, "let"⟩, ⟨.identifier, name.text⟩, ⟨.assign, "="⟩] ++ body
    use .binding ⟨.letWord, "let"⟩ ⟨.identifier, name.text⟩ ⟨.assign, "="⟩
      (body ++ [Token.semicolon])
    refine ⟨?_, rfl, ?_, rfl, rfl⟩
    · simpa [front] using hfront
    · intro rest
      exact ⟨rfl, rfl, rfl, hterminated rest⟩
  | result value =>
    obtain ⟨body, hbody, hterminated⟩ := exists_body value
    have hreturn : Splits "return".toList [⟨.returnWord, "return"⟩] :=
      splits_reserved (by decide)
    use [⟨.returnWord, "return"⟩] ++ body
    use .result ⟨.returnWord, "return"⟩ (body ++ [Token.semicolon])
    refine ⟨?_, rfl, ?_, rfl, rfl⟩
    · simpa [front] using hreturn.append_space hbody
    · intro rest
      exact ⟨rfl, hterminated rest⟩

/-! ### Any sentences -/

/-- Sentences split into the segments of their statements. -/
theorem exists_segments_spell (sentences : List (Gap × Sentence)) (last : Gap) :
  ∃ ts segments, Splits (spell sentences last).toList ts ∧ Segments ts segments
    ∧ segments.filterMap Segment.statement? = sentences.map (fun entry => entry.2.statement)
    ∧ segments.filterMap Segment.diagnostic? = []
  := by
  induction sentences with
  | nil =>
    use [], []
    exact ⟨Tiles.splits (.blank last.property), .nil, rfl, rfl⟩
  | cons entry sentences ih =>
    obtain ⟨gap, sentence⟩ := entry
    obtain ⟨us, segments, hrest, hsegments, hstatements, hdiagnostics⟩ := ih
    obtain ⟨ts, segment, hfront, htokens, hfits, hstatement, hdiagnostic⟩ :=
      sentence.exists_segment
    have hsplits := (hfront.append_semicolon hrest).blank_append gap.property
    have hcons := Segments.cons (hfits us) hsegments
    rw [htokens, List.append_assoc, List.singleton_append] at hcons
    use ts ++ Token.semicolon :: us, segment :: segments
    refine ⟨?_, hcons, ?_, ?_⟩
    · simpa [spell] using hsplits
    · simp [hstatement, hstatements]
    · simp [hdiagnostic, hdiagnostics]

/-- Sentences with gaps before, between and after them are parsed as their statements, one for each
and in order, whatever the values are, and leave no diagnostic. -/
theorem parse_spell (sentences : List (Gap × Sentence)) (last : Gap) :
  ∃ window, (Program.parse (spell sentences last)).Yields
      (⟨sentences.map fun entry => entry.2.statement⟩, window)
    ∧ window.diagnostics = #[]
  := by
  obtain ⟨ts, segments, hsplits, hsegments, hstatements, hdiagnostics⟩ :=
    exists_segments_spell sentences last
  rw [← Utf8.decode_encode] at hsplits
  obtain ⟨window, hparse, hwindow⟩ := yields_parse (delivers_ofBytes _) hsplits hsegments
  rw [hstatements] at hparse
  use window, hparse
  apply Array.toList_inj.mp
  rw [hwindow.diagnostics_eq, hdiagnostics]

-- A value may look like a statement, and it may be empty.
example :
  spell
      [(⟨"", by simp⟩,
          .binding ⟨"x", by decide, by simpa using (by decide : isAlphabetic 'x'),
            by simp [Kind.reservedWords]⟩ ⟨"let y = 1", by decide⟩),
        (⟨"\n", by simpa using (by decide : isBlank '\n')⟩, .result ⟨"", by decide⟩)]
      ⟨"", by simp⟩
    = "let x = let y = 1;\nreturn ;"
  := by decide

end Sentence

end FrontEnd
