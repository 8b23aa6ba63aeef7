import FrontEnd.Proofs.Chunking
import FrontEnd.Proofs.Delivered
import FrontEnd.Proofs.Text.Joining
import FrontEnd.Proofs.Tree.Joining

/-!
# Sources that fail

A source that fails after its bytes is read as one that ends there, unless the bytes end within a
sequence (`failed_or_ended`). Where they do, the end leaves one character for that sequence, which
is an illegal token, and the failure leaves none. The program is the same nevertheless; a
diagnostic that finds the end before the failure finds the illegal token before the end.
-/

namespace FrontEnd

open Text

variable {source source' : Source} {bytes : List UInt8} {failure : Failure} {ts : List Token}
  {segments : List Segment}

/-! ### The last character -/

theorem lexeme_replacement :
  Lexeme [Utf8.replacement] Token.illegal
  := by
  have hword : isAlphabetic Utf8.replacement = false := by decide +kernel
  have hne : ∀ entry ∈ Kind.symbols, entry.1 ≠ Utf8.replacement := by decide
  apply Lexeme.stray hword (by decide)
  intro kind hmem
  apply hne _ hmem rfl

theorem isBoundary_replacement :
  IsBoundary Utf8.replacement
  := by
  have hword : isAlphabetic Utf8.replacement = false := by decide +kernel
  apply isBoundary_of_class hword
  all_goals decide

/-- A sequence that the end of the bytes cuts short is one more token, an illegal one. -/
theorem Splits.append_illegal (h : Splits (Utf8.finished bytes) ts)
    (hcut : Utf8.EndsCut bytes) :
  Splits (Utf8.decode bytes) (ts ++ [Token.illegal])
  := by
  have hnil : Splits [] [] := Tiles.splits (.blank (by simp))
  rw [hcut.decode_eq]
  apply h.append isBoundary_replacement
  apply Splits.cons isBoundary_replacement (by decide +kernel) lexeme_replacement hnil

theorem isIdle_illegal :
  Token.illegal.IsIdle
  := by
  constructor
  all_goals decide

/-! ### Failing and ending -/

/-- The tokens and the diagnostics where the bytes end come from those where a failure ends them:
they are the same unless the bytes end within a sequence, and the statements are always. -/
theorem exists_segments_ended (h : Splits (Utf8.finished bytes) ts)
    (hsegments : Segments ts segments) (hend : ∀ token ∈ ts, token.isEnd = false) :
  ∃ us segments', Splits (Utf8.decode bytes) us ∧ Segments us segments'
    ∧ segments'.filterMap Segment.statement? = segments.filterMap Segment.statement?
    ∧ (¬ Utf8.EndsCut bytes → us = ts ∧ segments' = segments)
    ∧ (Utf8.EndsCut bytes → us = ts ++ [Token.illegal]
        ∧ segments'.filterMap Segment.diagnostic?
          = (segments.filterMap Segment.diagnostic?).map (Diagnostic.endingAt Token.illegal))
  := by
  by_cases hcut : Utf8.EndsCut bytes
  · obtain ⟨segments', hsegments', hstatements, hdiagnostics⟩ :=
      hsegments.append_last hend isIdle_illegal
    use ts ++ [Token.illegal], segments', h.append_illegal hcut, hsegments', hstatements,
      absurd hcut
    intro _
    use rfl
  · rw [Utf8.finished_eq_decode hcut] at h
    use ts, segments, h, hsegments, rfl, fun _ => ⟨rfl, rfl⟩
    intro hcut'
    exact absurd hcut' hcut

/-- A source that fails and one that ends after the same bytes have the same tokens, programs and
diagnostics, unless the bytes end within a sequence. If they do, there is an illegal token more
where the source ends, and diagnostics find it instead of the end. The failure is kept. -/
theorem failed_or_ended (h : Delivers source.events bytes (some failure))
    (h' : Delivers source'.events bytes none) :
  ∃ tokens tokens' last last' program window window',
    (TokenStream.ofSource source).toList.Yields (tokens, last)
    ∧ (TokenStream.ofSource source').toList.Yields (tokens', last')
    ∧ source.parse.Yields (program, window) ∧ source'.parse.Yields (program, window')
    ∧ last.takeFailure.1 = some failure ∧ last'.takeFailure.1 = none
    ∧ window.takeFailure.1 = some failure ∧ window'.takeFailure.1 = none
    ∧ (¬ Utf8.EndsCut bytes → tokens' = tokens ∧ window'.diagnostics = window.diagnostics)
    ∧ (Utf8.EndsCut bytes → tokens' = tokens ++ [Token.illegal]
        ∧ window'.diagnostics = window.diagnostics.map (Diagnostic.endingAt Token.illegal))
  := by
  obtain ⟨ts, segments, hts, hsegments, hend⟩ := exists_segments h
  obtain ⟨us, segments', hus, hsegments', hstatements, hsame, hmore⟩ :=
    exists_segments_ended hts hsegments hend
  obtain ⟨last, hlist, hlast⟩ := yields_toList h hts
  obtain ⟨last', hlist', hlast'⟩ := yields_toList h' hus
  obtain ⟨window, hparse, hwindow⟩ := yields_parse h hts hsegments
  obtain ⟨window', hparse', hwindow'⟩ := yields_parse h' hus hsegments'
  rw [hstatements] at hparse'
  use ts, us, last, last', ⟨segments.filterMap Segment.statement?⟩, window, window'
  use hlist, hlist', hparse, hparse', hlast.takeFailure_eq, hlast'.takeFailure_eq
  use hwindow.takeFailure_eq, hwindow'.takeFailure_eq
  constructor
  · intro hcut
    obtain ⟨htokens, rfl⟩ := hsame hcut
    use htokens
    apply Array.toList_inj.mp
    rw [hwindow'.diagnostics_eq, hwindow.diagnostics_eq]
  · intro hcut
    obtain ⟨htokens, hdiagnostics⟩ := hmore hcut
    use htokens
    apply Array.toList_inj.mp
    rw [hwindow'.diagnostics_eq, Array.toList_map, hwindow.diagnostics_eq, hdiagnostics]

/-- Pieces that a failure ends within a sequence, and the same bytes at their end. -/
theorem parse_brokenPieces_ended :
  Delivers brokenPieces [0x72, 0x65, 0x74, 0xC3] (some (.plain .brokenPipe))
    ∧ Delivers (Source.ofBytes [0x72, 0x65, 0x74, 0xC3]).events [0x72, 0x65, 0x74, 0xC3] none
    ∧ ∃ tokens last last' program window window',
      (TokenStream.ofSource (.ofEvents brokenPieces)).toList.Yields (tokens, last)
      ∧ (TokenStream.ofSource (.ofBytes [0x72, 0x65, 0x74, 0xC3])).toList.Yields
          (tokens ++ [Token.illegal], last')
      ∧ (Source.ofEvents brokenPieces).parse.Yields (program, window)
      ∧ (Source.ofBytes [0x72, 0x65, 0x74, 0xC3]).parse.Yields (program, window')
      ∧ last.takeFailure.1 = some (.plain .brokenPipe) ∧ last'.takeFailure.1 = none
      ∧ window'.diagnostics = window.diagnostics.map (Diagnostic.endingAt Token.illegal)
  := by
  have hdelivers : Delivers (Source.ofEvents brokenPieces).events [0x72, 0x65, 0x74, 0xC3]
      (some (.plain .brokenPipe)) := delivers_brokenPieces
  have hdelivers' := delivers_ofBytes [0x72, 0x65, 0x74, 0xC3]
  have hcut : Utf8.Cut 0xC3 [] [] := ⟨⟨1, by decide, by decide⟩, by simp, by simp⟩
  have hends : Utf8.EndsCut [0x72, 0x65, 0x74, 0xC3] := ⟨[0x72, 0x65, 0x74], 0xC3, [], rfl, hcut⟩
  obtain ⟨tokens, tokens', last, last', program, window, window', hlist, hlist', hparse, hparse',
    hlast, hlast', -, -, -, hmore⟩ := failed_or_ended hdelivers hdelivers'
  obtain ⟨rfl, hdiagnostics⟩ := hmore hends
  use hdelivers, hdelivers', tokens, last, last', program, window, window'

/-- A failure within a sequence is not read as the end: the end leaves an illegal token. -/
theorem tokens_ne_of_cut :
  ∃ last last',
    (TokenStream.ofSource (.ofEvents [.data [0xC3], .failure (.plain .brokenPipe)])).toList.Yields
        ([], last)
    ∧ (TokenStream.ofSource (.ofBytes [0xC3])).toList.Yields ([Token.illegal], last')
  := by
  have hcut : Utf8.Cut 0xC3 [] [] := ⟨⟨1, by decide, by decide⟩, by simp, by simp⟩
  have hdelivers : Delivers [.data [0xC3], .failure (.plain .brokenPipe)] [0xC3]
      (some (.plain .brokenPipe)) := .handed (List.cons_ne_nil _ _) (.failed rfl)
  have hnone : Splits (Utf8.finished [0xC3]) [] := by
    rw [Utf8.finished_of_cut_at_end hcut]
    apply Tiles.splits (.blank (by simp))
  have hillegal := hnone.append_illegal ⟨[], 0xC3, [], rfl, hcut⟩
  obtain ⟨last, hlist, -⟩ := yields_toList
    (show Delivers (Source.ofEvents _).events _ _ from hdelivers) hnone
  obtain ⟨last', hlist', -⟩ := yields_toList (delivers_ofBytes [0xC3]) hillegal
  use last, last', hlist
  apply hlist'

end FrontEnd
