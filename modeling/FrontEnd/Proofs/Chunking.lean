import FrontEnd.Proofs.Tree.Viewing

/-!
# Independence of the pieces

In which pieces a source hands its bytes out, where it is disturbed and how much room it is
offered makes no difference: characters, tokens, programs, diagnostics and the failure at the
end are the same as if all bytes were handed out at once (`delivered_eq_atOnce`).
-/

namespace FrontEnd

open Text

variable {source source' : Source} {bytes : List UInt8} {ending fate : Option Failure}

/-! ### Streams of the same characters -/

/-- Two token streams over the same characters have the same tokens. -/
theorem TokenStream.Gives.toList_eq {stream stream' : TokenStream} {cs : List Char}
    (h : stream.Gives cs fate) (h' : stream'.Gives cs fate) :
  ∃ ts last last', stream.toList.Yields (ts, last) ∧ stream'.toList.Yields (ts, last')
    ∧ last.Ended fate ∧ last'.Ended fate
  := by
  obtain ⟨tiles, last, htiles, htokens, hended⟩ := h.toList
  obtain ⟨tiles', last', htiles', htokens', hended'⟩ := h'.toList
  obtain rfl := htiles.unique htiles'
  use tiles.map Tile.token, last, last', htokens, htokens', hended

/-- Two sources over the same tokens have the same program and diagnostics. -/
theorem parse_eq {ts : List Token} (h : (TokenStream.ofSource source).Holds ts fate)
    (h' : (TokenStream.ofSource source').Holds ts fate) :
  ∃ program last last', source.parse.Yields (program, last)
    ∧ source'.parse.Yields (program, last') ∧ last.diagnostics = last'.diagnostics
    ∧ last.takeFailure.1 = fate ∧ last'.takeFailure.1 = fate
  := by
  obtain ⟨segments, last, hsegments, hprogram, hlast⟩ := h.parse
  obtain ⟨segments', last', hsegments', hprogram', hlast'⟩ := h'.parse
  obtain rfl := hsegments.unique hsegments'
  use ⟨segments.filterMap Segment.statement?⟩, last, last', hprogram, hprogram'
  refine ⟨?_, hlast.takeFailure_eq, hlast'.takeFailure_eq⟩
  apply Array.toList_inj.mp
  rw [hlast.diagnostics_eq, hlast'.diagnostics_eq]

/-! ### The same bytes -/

/-- The bytes of `ret`, disturbed, and one byte of a character that a failure cuts short. -/
def brokenPieces : List Event :=
  [.data [0x72, 0x65], .failure (.plain .interrupted), .data [0x74, 0xC3],
    .failure (.plain .brokenPipe)]

theorem delivers_brokenPieces :
  Delivers brokenPieces [0x72, 0x65, 0x74, 0xC3] (some (.plain .brokenPipe))
  := .handed (List.cons_ne_nil _ _) (.disturbed rfl
    (.handed (List.cons_ne_nil _ _) (.failed rfl)))

/-- A source that delivers bytes, in any pieces and disturbed at any time, is read as if it
handed them out at once: as the same characters, whatever room it is offered, as the same
tokens, and as the same program with the same diagnostics. The failure that ends the bytes is
kept each time. -/
theorem delivered_eq_atOnce (h : Delivers source.events bytes ending) :
  (∀ capacity capacity', 0 < capacity → 0 < capacity' → ∃ cs last last',
      (CharStream.ofSource source capacity).readAll.Yields (cs, last)
      ∧ (CharStream.ofSource (.atOnce bytes ending) capacity').readAll.Yields (cs, last')
      ∧ last.takeFailure.1 = ending ∧ last'.takeFailure.1 = ending)
    ∧ (∃ tokens last last', (TokenStream.ofSource source).toList.Yields (tokens, last)
      ∧ (TokenStream.ofSource (.atOnce bytes ending)).toList.Yields (tokens, last')
      ∧ last.takeFailure.1 = ending ∧ last'.takeFailure.1 = ending)
    ∧ ∃ program last last', source.parse.Yields (program, last)
      ∧ (Source.atOnce bytes ending).parse.Yields (program, last')
      ∧ last.diagnostics = last'.diagnostics
      ∧ last.takeFailure.1 = ending ∧ last'.takeFailure.1 = ending
  := by
  have hatOnce := delivers_atOnce bytes h.isInterruption_eq
  have htokens := TokenStream.gives_delivered h
  have htokens' := TokenStream.gives_delivered hatOnce
  refine ⟨?_, ?_, ?_⟩
  · intro capacity capacity' hroom hroom'
    obtain ⟨last, hread, hlast, hended⟩ := (CharStream.gives_delivered h hroom).readAll
    obtain ⟨last', hread', hlast', hended'⟩ := (CharStream.gives_delivered hatOnce hroom').readAll
    use ByteStream.spelled bytes ending, last, last', hread, hread'
    use hended.failure_eq hlast
    apply hended'.failure_eq hlast'
  · obtain ⟨tokens, last, last', hread, hread', hended, hended'⟩ := htokens.toList_eq htokens'
    use tokens, last, last', hread, hread', hended.takeFailure_eq
    apply hended'.takeFailure_eq
  · obtain ⟨tiles, -, htiles, -⟩ := htokens.toList
    apply parse_eq (htokens.holds htiles) (htokens'.holds htiles)

/-- Pieces that a failure ends, and the same bytes at once. -/
theorem parse_brokenPieces :
  Delivers brokenPieces [0x72, 0x65, 0x74, 0xC3] (some (.plain .brokenPipe))
    ∧ ∃ program last last', (Source.ofEvents brokenPieces).parse.Yields (program, last)
      ∧ (Source.atOnce [0x72, 0x65, 0x74, 0xC3] (some (.plain .brokenPipe))).parse.Yields
          (program, last')
      ∧ last.diagnostics = last'.diagnostics
      ∧ last.takeFailure.1 = some (.plain .brokenPipe)
  := by
  have hdelivers : Delivers (Source.ofEvents brokenPieces).events [0x72, 0x65, 0x74, 0xC3]
      (some (.plain .brokenPipe)) := delivers_brokenPieces
  obtain ⟨-, -, program, last, last', hparse, hparse', hsame, hfailure, -⟩ :=
    delivered_eq_atOnce hdelivers
  use hdelivers, program, last, last', hparse, hparse', hsame

end FrontEnd
