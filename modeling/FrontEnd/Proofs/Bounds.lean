import FrontEnd.Proofs.Chars.Decoding
import FrontEnd.Proofs.Tree.Advancing
import FrontEnd.Proofs.Tree.Places

/-!
# Bounds on reading

Whatever a source does, taking a token, taking all of them and reading a program come to an end, and
the source is called a bounded number of times meanwhile. There are no more tokens than characters,
and no more characters than bytes that were handed out; and a program is read in as many moves as
there are tokens left, or in one more (`reading_bounded`).
-/

namespace FrontEnd

/-- The run comes to a value, and the source of the stream that it reads on from is called within
the bound. -/
def CharStream.Finishes {α : Type} (stream : CharStream) (run : Run α) (view : α → CharStream) :
    Prop :=
  ∃ a, run.Yields a ∧ (view a).callsAtMost ≤ stream.callsAtMost

theorem CharStream.finishes_of_reachesBy {α : Type} {stream : CharStream} {run : Run α} {a : α}
    {view : α → CharStream} (h : stream.ReachesBy run view) (ha : run.Yields a) :
  stream.Finishes run view
  := ⟨a, ha, (h.goes ha).callsAtMost_le⟩

namespace TokenStream

theorem finishes_next (stream : TokenStream) :
  stream.chars.Finishes stream.next fun answer => answer.2.chars
  := by
  obtain ⟨ts, fate, hts⟩ := stream.exists_holds
  obtain ⟨next, hnext, -, -⟩ := hts.next
  apply CharStream.finishes_of_reachesBy stream.reachesBy_next hnext

theorem finishes_toList (stream : TokenStream) :
  stream.chars.Finishes stream.toList fun answer => answer.2.chars
  := by
  obtain ⟨ts, last, -, -, hlist⟩ := stream.exists_yields_toList
  apply CharStream.finishes_of_reachesBy stream.reachesBy_toList hlist

/-- All characters are decoded for the tokens, and each token takes one of them at least. -/
theorem exists_decodes_toList (source : Source) :
  ∃ ts last cs, (ofSource source).toList.Yields (ts, last)
    ∧ (ByteStream.ofSource source CharStream.defaultCapacity).Decodes cs last.chars.bytes
    ∧ ts.length ≤ cs.length
  := by
  have hgives : (ofSource source).Gives _ _ := (ofSource source).chars.gives_text
  obtain ⟨tiles, last, htiles, hlist, hended⟩ := hgives.toList
  obtain ⟨cs, hdecodes, hchars⟩ := ((ofSource source).reachesBy_toList.goes hlist).decodes
  have hlast : last.chars.deck.chars = [] := if_pos hended.ended.exhausted
  rw [hlast, List.append_nil] at hchars
  use tiles.map Tile.token, last, cs, hlist, hdecodes
  rw [List.length_map, ← hchars]
  apply htiles.length_le

end TokenStream

/-- Reading is bounded. Whatever the source does, taking a token and taking all of them come to an
end. From a source that was not called yet, there are no more tokens than characters are decoded,
and no more characters than bytes are handed out. After any steps a program is read in as many
moves, each of which takes one token from the stream, as there are tokens from the one under view
on, and in one more exactly if its last statement ran to the end without a semicolon. The source is
called within its bound by all of these. -/
theorem reading_bounded (events : List Event) (stream : TokenStream) (steps : List Window.Step) :
  stream.chars.Finishes stream.next (fun answer => answer.2.chars)
    ∧ stream.chars.Finishes stream.toList (fun answer => answer.2.chars)
    ∧ (∃ ts last cs, (TokenStream.ofSource (.ofEvents events)).toList.Yields (ts, last)
        ∧ (ByteStream.ofSource (.ofEvents events) CharStream.defaultCapacity).Decodes cs
            last.chars.bytes
        ∧ ts.length ≤ cs.length ∧ cs.length ≤ last.chars.bytes.source.handed
        ∧ last.chars.bytes.source.calls
            ≤ 2 * (Source.ofEvents events).remaining + (Source.ofEvents events).troubles + 1)
    ∧ ∃ window ts segments, (Window.after stream steps).Yields window
        ∧ window.remaining.Yields ts ∧ Segments ts segments
        ∧ window.tokens.chars.Finishes window.program (fun answer => answer.2.tokens.chars)
        ∧ (scannedTokens window.program.log).length = ts.length + (runsOut segments).toNat
  := by
  refine ⟨stream.finishes_next, stream.finishes_toList, ?_, ?_⟩
  · obtain ⟨ts, last, cs, hlist, hdecodes, hlength⟩ :=
      TokenStream.exists_decodes_toList (.ofEvents events)
    have hreaches := (TokenStream.ofSource (.ofEvents events)).reachesBy_toList.goes hlist
    have hbound : last.chars.callsAtMost ≤ _ := hreaches.callsAtMost_le
    have hmade := last.chars.calls_le_callsAtMost
    have hfresh : (Source.ofEvents events).calls = 0 := rfl
    rw [TokenStream.ofSource, CharStream.callsAtMost_ofSource, hfresh] at hbound
    use ts, last, cs, hlist, hdecodes, hlength, hdecodes.length_le_handed rfl
    omega
  · obtain ⟨ts, fate, hholds⟩ := stream.exists_holds
    obtain ⟨first, hfirst, hshows⟩ := Window.shows_ofTokens hholds
    obtain ⟨window, ts, diagnostics, fate, hwindow, hshows⟩ := hshows.performAll steps
    obtain ⟨segments, last, hsegments, hprogram, -⟩ := hshows.program
    use window, ts, segments, hfirst.bind hwindow, hshows.remaining, hsegments
    constructor
    · apply CharStream.finishes_of_reachesBy window.reachesBy_program_chars hprogram
    · apply hshows.length_program hsegments

end FrontEnd
