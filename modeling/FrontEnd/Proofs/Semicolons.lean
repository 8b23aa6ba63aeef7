import FrontEnd.Proofs.Delivered
import FrontEnd.Proofs.Text.Joining
import FrontEnd.Proofs.Tree.Joining

/-!
# Parsing up to a semicolon

What comes before a semicolon has no influence on how the bytes after it are parsed, whatever it
is: the program and the diagnostics of both are those of each, one after the other
(`parse_append_semicolon`). A semicolon at the end changes nothing but what is found there: the end
of the bytes ends a statement as a semicolon does (`parse_terminated`).
-/

namespace FrontEnd

open Text

variable {ts : List Token}

/-- Bytes up to a semicolon and bytes after it split into tokens apart. -/
theorem splits_append_semicolon {front back : List UInt8} {us : List Token}
    (h : Splits (Utf8.decode front) ts) (hback : Splits (Utf8.decode back) us) :
  Splits (Utf8.decode (front ++ Utf8.encode ";" ++ back)) (ts ++ Token.semicolon :: us)
  := by
  rw [Utf8.decode_append_encode (by decide)]
  apply h.append_semicolon hback

theorem splits_closed {front : List UInt8} (h : Splits (Utf8.decode front) ts) :
  Splits (Utf8.decode (front ++ Utf8.encode ";")) (ts ++ [Token.semicolon])
  := by
  have hsplits := splits_append_semicolon h splits_decode_nil
  rwa [List.append_nil] at hsplits

/-- The program of bytes up to a semicolon and bytes after it is the program of the first
followed by that of the second, and so are the diagnostics. -/
theorem parse_append_semicolon (front back : List UInt8) :
  ∃ program program' last last' joined,
    (Source.ofBytes (front ++ Utf8.encode ";")).parse.Yields (program, last)
    ∧ (Source.ofBytes back).parse.Yields (program', last')
    ∧ (Source.ofBytes (front ++ Utf8.encode ";" ++ back)).parse.Yields
        (program ++ program', joined)
    ∧ joined.diagnostics = last.diagnostics ++ last'.diagnostics
  := by
  obtain ⟨ts, hfront⟩ := exists_splits_decode front
  obtain ⟨_, segments, hclosed, hsegments, -⟩ :=
    exists_segments (delivers_ofBytes (front ++ Utf8.encode ";"))
  obtain ⟨us, segments', hback, hsegments', -⟩ := exists_segments (delivers_ofBytes back)
  obtain rfl := hclosed.unique (splits_closed hfront)
  have hjoined := splits_append_semicolon hfront hback
  have hends : Closed (ts ++ [Token.semicolon]) := by
    intro token hlast
    rw [List.getLast?_concat, Option.some.injEq] at hlast
    rw [← hlast, Token.semicolon]
  have hsegments'' := hsegments.append hends hsegments'
  rw [List.append_assoc, List.singleton_append] at hsegments''
  obtain ⟨last, hparse, hlast⟩ := yields_parse (delivers_ofBytes _) hclosed hsegments
  obtain ⟨last', hparse', hlast'⟩ := yields_parse (delivers_ofBytes back) hback hsegments'
  obtain ⟨joined, hparse'', hlast''⟩ := yields_parse (delivers_ofBytes _) hjoined hsegments''
  rw [List.filterMap_append] at hparse''
  use ⟨segments.filterMap Segment.statement?⟩, ⟨segments'.filterMap Segment.statement?⟩
  use last, last', joined, hparse, hparse', hparse''
  apply Array.toList_inj.mp
  rw [hlast''.diagnostics_eq, List.filterMap_append, Array.toList_append, hlast.diagnostics_eq,
    hlast'.diagnostics_eq]

theorem isIdle_semicolon :
  Token.semicolon.IsIdle
  := by
  constructor
  all_goals decide

/-- Bytes are parsed as the same program with a semicolon after them, and with the same diagnostics,
but that those which found the end find the semicolon. -/
theorem parse_terminated (bytes : List UInt8) :
  ∃ program last last',
    (Source.ofBytes bytes).parse.Yields (program, last)
    ∧ (Source.ofBytes (bytes ++ Utf8.encode ";")).parse.Yields (program, last')
    ∧ last'.diagnostics = last.diagnostics.map (Diagnostic.endingAt Token.semicolon)
  := by
  obtain ⟨ts, segments, hts, hsegments, hend⟩ := exists_segments (delivers_ofBytes bytes)
  obtain ⟨segments', hsegments', hstatements, hdiagnostics⟩ :=
    hsegments.append_last hend isIdle_semicolon
  obtain ⟨last, hparse, hlast⟩ := yields_parse (delivers_ofBytes bytes) hts hsegments
  obtain ⟨last', hparse', hlast'⟩ :=
    yields_parse (delivers_ofBytes (bytes ++ Utf8.encode ";")) (splits_closed hts) hsegments'
  rw [hstatements] at hparse'
  use ⟨segments.filterMap Segment.statement?⟩, last, last', hparse, hparse'
  apply Array.toList_inj.mp
  rw [hlast'.diagnostics_eq, hdiagnostics, Array.toList_map, hlast.diagnostics_eq]

end FrontEnd
