import FrontEnd.Proofs.Token.Joining
import FrontEnd.Proofs.Tree.Viewing

/-!
# Tokens and programs of delivered bytes

The characters that delivered bytes spell split into tokens, and these into segments. They decide
what the token stream of the source gives (`yields_toList`) and what the source is parsed as
(`yields_parse`), with the failure that ends the bytes, if there is one.
-/

namespace FrontEnd

variable {source : Source} {bytes : List UInt8} {ts : List Token} {segments : List Segment}
  {ending : Option Failure}

/-- What delivered bytes spell splits into tokens and these into segments. -/
theorem exists_segments (h : Delivers source.events bytes ending) :
  ∃ ts segments, Splits (ByteStream.spelled bytes ending) ts ∧ Segments ts segments
    ∧ ∀ token ∈ ts, token.isEnd = false
  := by
  have hgives := TokenStream.gives_delivered h
  obtain ⟨tiles, -, htiles, -⟩ := hgives.toList
  have hholds := hgives.holds htiles
  obtain ⟨segments, -, hsegments, -⟩ := hholds.parse
  use tiles.map Tile.token, segments, htiles.splits, hsegments, hholds.isEnd_eq

/-- Bytes split into tokens, whatever they are. -/
theorem exists_splits_decode (bytes : List UInt8) :
  ∃ ts, Splits (Text.Utf8.decode bytes) ts
  := by
  obtain ⟨ts, -, hts, -⟩ := exists_segments (delivers_ofBytes bytes)
  exact ⟨ts, hts⟩

theorem splits_decode_nil :
  Splits (Text.Utf8.decode []) []
  := by
  apply Tiles.splits (.blank _)
  simp [Text.Utf8.decode]

/-- A source has the tokens that its bytes spell. -/
theorem yields_toList (h : Delivers source.events bytes ending)
    (hts : Splits (ByteStream.spelled bytes ending) ts) :
  ∃ last, (TokenStream.ofSource source).toList.Yields (ts, last) ∧ last.Ended ending
  := by
  obtain ⟨tiles, last, htiles, htokens, hended⟩ := (TokenStream.gives_delivered h).toList
  obtain rfl := hts.unique htiles.splits
  use last

/-- A source is parsed as the segments of the tokens that its bytes spell. -/
theorem yields_parse (h : Delivers source.events bytes ending)
    (hts : Splits (ByteStream.spelled bytes ending) ts) (hsegments : Segments ts segments) :
  ∃ last, source.parse.Yields (⟨segments.filterMap Segment.statement?⟩, last)
    ∧ last.Shows [] (segments.filterMap Segment.diagnostic?) ending
  := by
  obtain ⟨tiles, htiles, rfl⟩ := hts
  obtain ⟨segments', last, hsegments', hparse, hlast⟩ :=
    ((TokenStream.gives_delivered h).holds htiles).parse
  obtain rfl := hsegments.unique hsegments'
  use last

end FrontEnd
