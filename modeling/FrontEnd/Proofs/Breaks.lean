import FrontEnd.Proofs.Text.Joining
import FrontEnd.Proofs.Token.Spacing

/-!
# White space between bytes

White space ends every token, and it is no part of one. The tokens of bytes with white space between
them are those of the first bytes and then those of the others, whatever bytes these are; so other
white space in its place changes nothing, and white space at either end is as good as none
(`toList_append_blank`).
-/

namespace FrontEnd

open Text

variable {front back bytes bytes' : List UInt8} {ts us : List Token}

/-- The bytes have the same tokens, and they are parsed as the same program with the same
diagnostics. -/
def ReadAlike (bytes bytes' : List UInt8) : Prop :=
  ∃ ts program last last' window window',
    (TokenStream.ofSource (.ofBytes bytes)).toList.Yields (ts, last)
    ∧ (TokenStream.ofSource (.ofBytes bytes')).toList.Yields (ts, last')
    ∧ (Source.ofBytes bytes).parse.Yields (program, window)
    ∧ (Source.ofBytes bytes').parse.Yields (program, window')
    ∧ window.diagnostics = window'.diagnostics

/-- Bytes that split into the same tokens are read alike. -/
theorem Splits.readAlike (h : Splits (Utf8.decode bytes) ts) (h' : Splits (Utf8.decode bytes') ts) :
  ReadAlike bytes bytes'
  := by
  obtain ⟨us, segments, hus, hsegments, -⟩ := exists_segments (delivers_ofBytes bytes)
  obtain rfl := hus.unique h
  obtain ⟨last, hlast, -⟩ := yields_toList (delivers_ofBytes bytes) h
  obtain ⟨last', hlast', -⟩ := yields_toList (delivers_ofBytes bytes') h'
  obtain ⟨window, hparse, hwindow⟩ := yields_parse (delivers_ofBytes bytes) h hsegments
  obtain ⟨window', hparse', hwindow'⟩ := yields_parse (delivers_ofBytes bytes') h' hsegments
  refine ⟨us, _, last, last', window, window', hlast, hlast', hparse, hparse', ?_⟩
  apply Array.toList_inj.mp
  rw [hwindow.diagnostics_eq, hwindow'.diagnostics_eq]

/-- Bytes with white space between them split into tokens apart. -/
theorem Splits.append_break (h : Splits (Utf8.decode front) ts) (gap : Break)
    (hback : Splits (Utf8.decode back) us) :
  Splits (Utf8.decode (front ++ Utf8.encode gap.val ++ back)) (ts ++ us)
  := by
  obtain ⟨text, hne, hblank⟩ := gap
  rw [Utf8.decode_append_encode hne]
  apply h.append_blank (by simpa using hne) hblank hback

/-- The tokens of bytes with white space between them are those of the bytes before it and those of
the bytes after it. Other white space in its place changes nothing, neither does white space before
all bytes or after them. -/
theorem toList_append_blank (front back : List UInt8) (gap : Break) :
  (∃ ts us last last' joined,
    (TokenStream.ofSource (.ofBytes front)).toList.Yields (ts, last)
    ∧ (TokenStream.ofSource (.ofBytes back)).toList.Yields (us, last')
    ∧ (TokenStream.ofSource (.ofBytes (front ++ Utf8.encode gap.val ++ back))).toList.Yields
        (ts ++ us, joined))
    ∧ (∀ gap' : Break, ReadAlike (front ++ Utf8.encode gap.val ++ back)
        (front ++ Utf8.encode gap'.val ++ back))
    ∧ ReadAlike (Utf8.encode gap.val ++ back) back
    ∧ ReadAlike (front ++ Utf8.encode gap.val) front
  := by
  obtain ⟨ts, hfront⟩ := exists_splits_decode front
  obtain ⟨us, hback⟩ := exists_splits_decode back
  have hjoined := hfront.append_break gap hback
  refine ⟨?_, ?_, ?_, ?_⟩
  · obtain ⟨last, hlast, -⟩ := yields_toList (delivers_ofBytes front) hfront
    obtain ⟨last', hlast', -⟩ := yields_toList (delivers_ofBytes back) hback
    obtain ⟨joined, hyields, -⟩ := yields_toList (delivers_ofBytes _) hjoined
    use ts, us, last, last', joined
  · intro gap'
    apply hjoined.readAlike (hfront.append_break gap' hback)
  · have hleading := splits_decode_nil.append_break gap hback
    apply hleading.readAlike hback
  · have htrailing := hfront.append_break gap splits_decode_nil
    rw [List.append_nil, List.append_nil] at htrailing
    apply htrailing.readAlike hfront

end FrontEnd
