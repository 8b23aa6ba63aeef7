import FrontEnd.Proofs.Text.Encoding
import Mathlib.Data.List.Basic

/-!
# Sequences of bytes

Any bytes split from the left into sequences that stand for one character each: encodings of
characters, which stand for what they encode, and broken sequences, which stand for the
replacement character. A sequence is broken if it is a single byte that begins none, is cut
short by the next byte or the end, or is complete and not well formed.
-/

namespace FrontEnd.Text.Utf8

/-- Bytes that stand for one character. -/
structure Sequence where
  bytes : List UInt8
  char : Char

/-- The bytes are a broken sequence where `rest` comes after them. -/
inductive Broken (rest : List UInt8) : List UInt8 → Prop where
  /-- A byte that begins no sequence. -/
  | stray {b : UInt8} (hb : 0x80 ≤ b.toNat ∧ b.toNat ≤ 0xC1 ∨ 0xF5 ≤ b.toNat) : Broken rest [b]
  /-- A lead byte with fewer continuation bytes than it announces. -/
  | cut {lead : UInt8} {tail : List UInt8} (h : Cut lead tail rest) : Broken rest (lead :: tail)
  /-- A complete sequence for a number that needs fewer bytes, is a surrogate or is too
  great. -/
  | malformed {lead : UInt8} {tail : List UInt8}
      (hlead : 0xC2 ≤ lead.toNat ∧ lead.toNat ≤ 0xF4) (h : Complete lead tail)
      (hvalue : value lead tail < leastValue tail.length
        ∨ 0xD800 ≤ value lead tail ∧ value lead tail ≤ 0xDFFF
        ∨ 0x10FFFF < value lead tail) :
      Broken rest (lead :: tail)

/-- The bytes are these sequences one after the other. -/
inductive Spells : List UInt8 → List Sequence → Prop where
  | nil : Spells [] []
  | encoded {rest : List UInt8} {sequences : List Sequence} (c : Char)
      (hrest : Spells rest sequences) :
      Spells (String.utf8EncodeChar c ++ rest) (⟨String.utf8EncodeChar c, c⟩ :: sequences)
  | broken {bytes rest : List UInt8} {sequences : List Sequence} (h : Broken rest bytes)
      (hrest : Spells rest sequences) :
      Spells (bytes ++ rest) (⟨bytes, replacement⟩ :: sequences)

/-! ### Splitting -/

/-- A complete sequence that is not well formed is broken. -/
theorem broken_of_not_wellFormed {lead : UInt8} {tail : List UInt8} (h : Complete lead tail)
    (hwell : ¬ WellFormed lead tail) (rest : List UInt8) :
  Broken rest (lead :: tail)
  := by
  have hvalue : value lead tail < leastValue tail.length
      ∨ 0xD800 ≤ value lead tail ∧ value lead tail ≤ 0xDFFF ∨ 0x10FFFF < value lead tail := by
    rw [WellFormed, Nat.isValidChar] at hwell
    omega
  apply Broken.malformed (lead_of_announced h.announced ?_) h hvalue
  -- A lead byte that announces nothing is well formed by itself.
  cases tail with
  | nil =>
    have hlead := announced_eq_zero_iff.mp h.announced
    simp only [value_nil, List.length_nil, leastValue] at hvalue
    omega
  | cons => simp

/-- No encoding is a broken sequence. -/
theorem Broken.ne_encodeChar {rest bytes : List UInt8} (h : Broken rest bytes) (c : Char) :
  bytes ≠ String.utf8EncodeChar c
  := by
  intro hencode
  cases h with
  | stray hb =>
    have hcomplete := (wellFormed_of_encodeChar hencode.symm).1
    have hlead := announced_eq_zero_iff.mp hcomplete.announced
    omega
  | cut h =>
    obtain ⟨count, hcount, hlt⟩ := h.announced
    have hcomplete := (wellFormed_of_encodeChar hencode.symm).1
    rw [hcomplete.announced, Option.some.injEq] at hcount
    omega
  | malformed _ _ hvalue =>
    obtain ⟨-, ⟨hleast, hvalid⟩, -⟩ := wellFormed_of_encodeChar hencode.symm
    rw [Nat.isValidChar] at hvalid
    omega

theorem Broken.ne_nil {rest bytes : List UInt8} (h : Broken rest bytes) :
  bytes ≠ []
  := by
  cases h with
  | stray => simp
  | cut => simp
  | malformed => simp

/-- Any bytes split into sequences that stand for the characters that the bytes spell. -/
theorem exists_spells (bytes : List UInt8) :
  ∃ sequences, Spells bytes sequences ∧ sequences.map Sequence.char = decode bytes
  := by
  induction bytes using sequenceInduction with
  | nil => exact ⟨[], .nil, by simp [decode]⟩
  | stray lead rest hlead ih =>
    obtain ⟨sequences, hspells, hchars⟩ := ih
    use ⟨[lead], replacement⟩ :: sequences
    constructor
    · exact .broken (.stray (announced_eq_none_iff.mp hlead)) hspells
    · rw [List.map_cons, hchars, decode_of_stray hlead]
  | complete lead tail rest h ih =>
    obtain ⟨sequences, hspells, hchars⟩ := ih
    use ⟨lead :: tail, scalar lead tail⟩ :: sequences
    rw [List.map_cons, hchars, decode_of_complete h, scalar]
    split
    · next hwell =>
      have hencode := (wellFormed_iff_encodeChar h).mp hwell
      rw [← List.cons_append, ← hencode]
      exact ⟨.encoded _ hspells, rfl⟩
    · next hwell => exact ⟨.broken (broken_of_not_wellFormed h hwell rest) hspells, rfl⟩
  | cut lead tail rest h ih =>
    obtain ⟨sequences, hspells, hchars⟩ := ih
    use ⟨lead :: tail, replacement⟩ :: sequences
    rw [List.map_cons, hchars, decode_of_cut h]
    exact ⟨.broken (.cut h) hspells, rfl⟩

/-! ### What the sequences are -/

theorem Spells.flatMap_bytes {bytes : List UInt8} {sequences : List Sequence}
    (h : Spells bytes sequences) :
  sequences.flatMap Sequence.bytes = bytes
  := by
  induction h with
  | nil => rfl
  | encoded c _ ih => rw [List.flatMap_cons, ih]
  | broken _ _ ih => rw [List.flatMap_cons, ih]

/-- A sequence stands for the character that it encodes, and for the replacement character if
it is no encoding. -/
theorem Spells.char_eq {bytes : List UInt8} {sequences : List Sequence}
    (h : Spells bytes sequences) :
  ∀ sequence ∈ sequences, sequence.bytes ≠ []
    ∧ (∀ c, sequence.bytes = String.utf8EncodeChar c → sequence.char = c)
    ∧ ((∀ c, sequence.bytes ≠ String.utf8EncodeChar c) → sequence.char = replacement)
  := by
  induction h with
  | nil => simp
  | encoded c _ ih =>
    intro sequence hmem
    rcases List.mem_cons.mp hmem with rfl | hmem
    case inr => apply ih sequence hmem
    refine ⟨String.utf8EncodeChar_ne_nil, fun c' hc => ?_, fun hc => absurd rfl (hc c)⟩
    have hdecode := decode_encodeChar_append c []
    rw [show String.utf8EncodeChar c = String.utf8EncodeChar c' from hc,
      decode_encodeChar_append] at hdecode
    apply (List.cons.inj hdecode).1.symm
  | broken hbroken _ ih =>
    intro sequence hmem
    rcases List.mem_cons.mp hmem with rfl | hmem
    case inr => apply ih sequence hmem
    exact ⟨hbroken.ne_nil, fun c hc => absurd hc (hbroken.ne_encodeChar c), fun _ => rfl⟩

end FrontEnd.Text.Utf8
