import FrontEnd.Proofs.Text.Encoding

/-!
# Joined bytes

Decoding comes back into step at every byte that continues nothing: bytes before such a byte and
bytes from it on are decoded by themselves (`decode_append`), whatever the first ones end in. What
can be read before a failure differs from what the bytes spell exactly where they end within a
sequence, by the one character that stands for it (`EndsCut`).
-/

namespace FrontEnd.Text.Utf8

/-- The first byte, if there is one, continues no sequence. -/
def BeginsAnew (bytes : List UInt8) : Prop :=
  ∀ b, bytes.head? = some b → ¬ continues b

/-- The bytes end within a sequence: their last lead byte announces more continuation bytes than
come after it. -/
def EndsCut (bytes : List UInt8) : Prop :=
  ∃ front lead tail, bytes = front ++ lead :: tail ∧ Cut lead tail []

variable {lead : UInt8} {tail rest back bytes : List UInt8}

/-- A lead byte continues no sequence. -/
theorem beginsAnew_of_announced {count : Nat} (h : announced lead = some count)
    (tail : List UInt8) :
  BeginsAnew (lead :: tail)
  := by
  intro b hb hcontinues
  obtain rfl : lead = b := by simpa using hb
  have hrange := continues_iff.mp hcontinues
  have hnone : announced lead = none := by
    apply announced_eq_none_iff.mpr
    omega
  simp [hnone] at h

/-! ### Decoding apart -/

/-- A cut sequence stays cut where more bytes come, unless the first of them continues it. -/
theorem Cut.append (h : Cut lead tail rest) (hback : BeginsAnew back) :
  Cut lead tail (rest ++ back)
  := by
  refine ⟨h.announced, h.continues, ?_⟩
  cases rest with
  | nil => apply hback
  | cons b rest => apply h.next

/-- Bytes are decoded apart where the second ones begin anew. -/
theorem decode_append (front : List UInt8) (hback : BeginsAnew back) :
  decode (front ++ back) = decode front ++ decode back
  := by
  induction front using sequenceInduction with
  | nil => simp [decode]
  | stray lead rest hlead ih =>
    rw [List.cons_append, decode_of_stray hlead, decode_of_stray hlead, ih, List.cons_append]
  | complete lead tail rest hlead ih =>
    rw [List.cons_append, List.append_assoc, decode_of_complete hlead, decode_of_complete hlead,
      ih, List.cons_append]
  | cut lead tail rest hlead ih =>
    rw [List.cons_append, List.append_assoc, decode_of_cut (hlead.append hback),
      decode_of_cut hlead, ih, List.cons_append]

/-- Only the second bytes can be cut short by the end of both. -/
theorem finished_append (front : List UInt8) (hback : BeginsAnew back) (hne : back ≠ []) :
  finished (front ++ back) = decode front ++ finished back
  := by
  induction front using sequenceInduction with
  | nil => simp [decode]
  | stray lead rest hlead ih =>
    rw [List.cons_append, finished_of_stray hlead, decode_of_stray hlead, ih, List.cons_append]
  | complete lead tail rest hlead ih =>
    rw [List.cons_append, List.append_assoc, finished_of_complete hlead,
      decode_of_complete hlead, ih, List.cons_append]
  | cut lead tail rest hlead ih =>
    have hrest : rest ++ back ≠ [] := List.append_ne_nil_of_right_ne_nil rest hne
    rw [List.cons_append, List.append_assoc, finished_of_cut (hlead.append hback) hrest,
      decode_of_cut hlead, ih, List.cons_append]

/-- The encoding of a text begins anew. -/
theorem beginsAnew_encode {text : String} (hne : text ≠ "") (back : List UInt8) :
  BeginsAnew (encode text ++ back)
  := by
  have hchars : text.toList ≠ [] := by simpa using hne
  obtain ⟨c, cs, hcs⟩ := List.exists_cons_of_ne_nil hchars
  obtain ⟨lead, tail, hencode, hcomplete, -⟩ := exists_complete_encodeChar c
  rw [encode, hcs, List.flatMap_cons, hencode]
  apply beginsAnew_of_announced hcomplete.announced

/-- A text is decoded as itself, whatever comes before and after it. -/
theorem decode_append_encode {text : String} (hne : text ≠ "") (front back : List UInt8) :
  decode (front ++ encode text ++ back) = decode front ++ (text.toList ++ decode back)
  := by
  rw [List.append_assoc, decode_append front (beginsAnew_encode hne back), decode_encode_append]

/-! ### Ending within a sequence -/

theorem EndsCut.append_left (h : EndsCut bytes) (front : List UInt8) :
  EndsCut (front ++ bytes)
  := by
  obtain ⟨middle, lead, tail, rfl, hcut⟩ := h
  exact ⟨front ++ middle, lead, tail, (List.append_assoc _ _ _).symm, hcut⟩

/-- A sequence that the end of the bytes cuts short stands for one character, the last one. -/
theorem EndsCut.decode_eq (h : EndsCut bytes) :
  decode bytes = finished bytes ++ [replacement]
  := by
  obtain ⟨front, lead, tail, rfl, hcut⟩ := h
  obtain ⟨count, hcount, -⟩ := hcut.announced
  have hlead := beginsAnew_of_announced hcount tail
  have hdecode := decode_of_cut hcut
  rw [List.append_nil, show decode [] = [] by simp [decode]] at hdecode
  rw [decode_append front hlead, finished_append front hlead (List.cons_ne_nil lead tail),
    hdecode, finished_of_cut_at_end hcut, List.append_nil]

/-- Bytes that do not end within a sequence can all be read before a failure. -/
theorem finished_eq_decode (h : ¬ EndsCut bytes) :
  finished bytes = decode bytes
  := by
  induction bytes using sequenceInduction with
  | nil => simp [finished, decode]
  | stray lead rest hlead ih =>
    have hrest : ¬ EndsCut rest := fun hcut => h (hcut.append_left [lead])
    rw [finished_of_stray hlead, decode_of_stray hlead, ih hrest]
  | complete lead tail rest hlead ih =>
    have hrest : ¬ EndsCut rest := fun hcut => h (hcut.append_left (lead :: tail))
    rw [finished_of_complete hlead, decode_of_complete hlead, ih hrest]
  | cut lead tail rest hlead ih =>
    have hrest : ¬ EndsCut rest := fun hcut => h (hcut.append_left (lead :: tail))
    have hne : rest ≠ [] := by
      rintro rfl
      apply h
      exact ⟨[], lead, tail, by simp, hlead⟩
    rw [finished_of_cut hlead hne, decode_of_cut hlead, ih hrest]

end FrontEnd.Text.Utf8
