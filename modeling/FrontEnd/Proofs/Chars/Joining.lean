import FrontEnd.Proofs.Chars.Reading
import FrontEnd.Proofs.Text.Joining

/-!
# Reading joined bytes

Reading comes back into step at every byte that continues nothing: bytes are read as characters by
themselves where the bytes after them begin anew, whatever sequence they break off in. So a text is
read as itself wherever it stands (`readAs_append`).
-/

namespace FrontEnd

open Text

namespace CharStream

/-- Every source that delivers the bytes and ends is read as these characters, in whatever pieces
it hands the bytes out and however much room is offered to it. -/
def ReadAs (bytes : List UInt8) (cs : List Char) : Prop :=
  ∀ (source : Source) (capacity : Nat), Delivers source.events bytes none → 0 < capacity →
    ∃ last, (ofSource source capacity).readAll.Yields (cs, last) ∧ last.Ended

theorem readAs_decode (bytes : List UInt8) :
  ReadAs bytes (Utf8.decode bytes)
  := by
  intro source capacity hdelivers hroom
  obtain ⟨last, hread, -, hended⟩ := (gives_delivered hdelivers hroom).readAll
  use last, hread

/-- Bytes are read as one list of characters. -/
theorem ReadAs.unique {bytes : List UInt8} {cs cs' : List Char} (h : ReadAs bytes cs)
    (h' : ReadAs bytes cs') :
  cs = cs'
  := by
  obtain ⟨last, hread, -⟩ := h (.ofBytes bytes) 1 (delivers_ofBytes bytes) Nat.one_pos
  obtain ⟨last', hread', -⟩ := h' (.ofBytes bytes) 1 (delivers_ofBytes bytes) Nat.one_pos
  exact (Prod.mk.inj (hread.unique hread')).1

/-- Bytes after which others begin anew are read as if they stood alone, and so are the others.
Whatever comes before a text and after it, the text is read as itself. -/
theorem readAs_append (front back : List UInt8) :
  ∃ cs cs', ReadAs front cs ∧ ReadAs back cs'
    ∧ (Utf8.BeginsAnew back → ReadAs (front ++ back) (cs ++ cs'))
    ∧ ∀ text, text ≠ "" → ReadAs (front ++ Utf8.encode text ++ back) (cs ++ (text.toList ++ cs'))
  := by
  use Utf8.decode front, Utf8.decode back, readAs_decode front, readAs_decode back
  constructor
  · intro hback
    rw [← Utf8.decode_append front hback]
    apply readAs_decode
  · intro text hne
    rw [← Utf8.decode_append_encode hne]
    apply readAs_decode

/-- A sequence of four bytes that breaks off after two of them, and then `é`. -/
theorem readAs_append_brokenOff :
  Utf8.BeginsAnew [0xC3, 0xA9] ∧ "é" ≠ ""
    ∧ ReadAs [0xF0, 0x9F, 0xC3, 0xA9] [Utf8.replacement, 'é']
    ∧ ReadAs [0xF0, 0x9F, 0xC3, 0xA9, 0xC3, 0xA9] [Utf8.replacement, 'é', 'é']
  := by
  have hlead : Utf8.announced 0xC3 = some 1 := by decide
  have hanew := Utf8.beginsAnew_of_announced hlead [0xA9]
  have hencode : Utf8.encode "é" = [0xC3, 0xA9] := by decide
  have hcut : Utf8.Cut 0xF0 [0x9F] [] :=
    ⟨⟨3, by decide, by decide⟩, List.forall_mem_singleton.mpr (by decide), by simp⟩
  have hfront : ReadAs [0xF0, 0x9F] [Utf8.replacement] := by
    have hread := readAs_decode ([0xF0, 0x9F] ++ [])
    rwa [List.cons_append, Utf8.decode_of_cut hcut, Utf8.decode, List.cons_append, List.append_nil]
      at hread
  have hback : ReadAs [0xC3, 0xA9] ['é'] := by
    rw [← hencode]
    have hread := readAs_decode (Utf8.encode "é")
    rwa [Utf8.decode_encode] at hread
  obtain ⟨cs, cs', hcs, hcs', happend, htext⟩ := readAs_append [0xF0, 0x9F] [0xC3, 0xA9]
  obtain rfl := hcs.unique hfront
  obtain rfl := hcs'.unique hback
  use hanew, by decide, happend hanew
  have hread := htext "é" (by decide)
  rwa [hencode] at hread

end CharStream

end FrontEnd
