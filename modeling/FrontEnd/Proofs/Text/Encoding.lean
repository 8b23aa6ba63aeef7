import FrontEnd.Proofs.Text.Decoding

/-!
# Encodings of characters

The complete sequences that are well formed are exactly the encodings of characters
(`wellFormed_iff_encodeChar`), so decoding what was encoded gives the text back
(`decode_encode`).
-/

namespace FrontEnd.Text.Utf8

/-! ### Numbers -/

theorem value_nil (lead : UInt8) :
  value lead [] = lead.toNat
  := rfl

theorem value_one (lead b : UInt8) :
  value lead [b] = lead.toNat % 32 * 64 + b.toNat % 64
  := rfl

theorem value_two (lead b₁ b₂ : UInt8) :
  value lead [b₁, b₂] = (lead.toNat % 16 * 64 + b₁.toNat % 64) * 64 + b₂.toNat % 64
  := rfl

theorem value_three (lead b₁ b₂ b₃ : UInt8) :
  value lead [b₁, b₂, b₃]
    = ((lead.toNat % 8 * 64 + b₁.toNat % 64) * 64 + b₂.toNat % 64) * 64 + b₃.toNat % 64
  := rfl

theorem toNat_lt (c : Char) :
  c.toNat < 0x110000
  := by
  rcases c.valid with h | ⟨-, h⟩
  · apply Nat.lt_trans h (by decide)
  · apply h

theorem toNat_ofNat {n : Nat} (h : n.isValidChar) :
  (Char.ofNat n).toNat = n
  := by
  rw [Char.ofNat, dif_pos h]
  rfl

/-- The encoding of a character is a complete sequence that stands for its number, in as few
bytes as possible. -/
theorem exists_complete_encodeChar (c : Char) :
  ∃ lead tail, String.utf8EncodeChar c = lead :: tail ∧ Complete lead tail
    ∧ value lead tail = c.toNat ∧ leastValue tail.length ≤ c.toNat
  := by
  have hlt := toNat_lt c
  simp only [String.utf8EncodeChar, Char.toNat_val]
  split
  · refine ⟨_, _, rfl, ⟨announced_eq_zero_iff.mpr ?_, by simp⟩, ?_, Nat.zero_le _⟩
    · rw [UInt8.toNat_ofNat']
      omega
    · rw [value_nil, UInt8.toNat_ofNat']
      omega
  split
  · refine ⟨_, _, rfl, ⟨announced_eq_one_iff.mpr ?_, ?_⟩, ?_, ?_⟩
    · rw [UInt8.toNat_ofNat']
      omega
    · simp only [List.mem_singleton, forall_eq, continues_iff, UInt8.toNat_ofNat']
      omega
    · rw [value_one, UInt8.toNat_ofNat', UInt8.toNat_ofNat']
      omega
    · simp only [List.length_singleton, leastValue]
      omega
  split
  · refine ⟨_, _, rfl, ⟨announced_eq_two_iff.mpr ?_, ?_⟩, ?_, ?_⟩
    · rw [UInt8.toNat_ofNat']
      omega
    · simp only [List.mem_cons, List.not_mem_nil, or_false, forall_eq_or_imp, forall_eq,
        continues_iff, UInt8.toNat_ofNat']
      omega
    · rw [value_two, UInt8.toNat_ofNat', UInt8.toNat_ofNat', UInt8.toNat_ofNat']
      omega
    · simp only [List.length_cons, List.length_nil, leastValue]
      omega
  · refine ⟨_, _, rfl, ⟨announced_eq_three_iff.mpr ?_, ?_⟩, ?_, ?_⟩
    · rw [UInt8.toNat_ofNat']
      omega
    · simp only [List.mem_cons, List.not_mem_nil, or_false, forall_eq_or_imp, forall_eq,
        continues_iff, UInt8.toNat_ofNat']
      omega
    · rw [value_three, UInt8.toNat_ofNat', UInt8.toNat_ofNat', UInt8.toNat_ofNat',
        UInt8.toNat_ofNat']
      omega
    · simp only [List.length_cons, List.length_nil, leastValue]
      omega

theorem wellFormed_of_encodeChar {c : Char} {lead : UInt8} {tail : List UInt8}
    (h : String.utf8EncodeChar c = lead :: tail) :
  Complete lead tail ∧ WellFormed lead tail ∧ value lead tail = c.toNat
  := by
  obtain ⟨lead', tail', h', hcomplete, hvalue, hleast⟩ := exists_complete_encodeChar c
  obtain ⟨rfl, rfl⟩ := List.cons.inj (h'.symm.trans h)
  exact ⟨hcomplete, ⟨hvalue ▸ hleast, hvalue ▸ c.valid⟩, hvalue⟩

/-- A complete sequence is determined by its length and its number. -/
theorem Complete.unique {lead lead' : UInt8} {tail tail' : List UInt8}
    (h : Complete lead tail) (h' : Complete lead' tail') (hlength : tail.length = tail'.length)
    (hvalue : value lead tail = value lead' tail') :
  lead = lead' ∧ tail = tail'
  := by
  have hle := announced_le_three h.announced
  obtain ⟨ha, hc⟩ := h
  obtain ⟨ha', hc'⟩ := h'
  match tail, tail', hlength with
  | [], [], _ =>
    rw [value_nil, value_nil] at hvalue
    exact ⟨UInt8.toNat_inj.mp hvalue, rfl⟩
  | [b], [b'], _ =>
    have hlead := announced_eq_one_iff.mp ha
    have hlead' := announced_eq_one_iff.mp ha'
    simp only [List.mem_singleton, forall_eq, continues_iff] at hc hc'
    rw [value_one, value_one] at hvalue
    simp only [List.cons.injEq, ← UInt8.toNat_inj, and_true]
    omega
  | [b₁, b₂], [b₁', b₂'], _ =>
    have hlead := announced_eq_two_iff.mp ha
    have hlead' := announced_eq_two_iff.mp ha'
    simp only [List.mem_cons, List.not_mem_nil, or_false, forall_eq_or_imp, forall_eq,
      continues_iff] at hc hc'
    rw [value_two, value_two] at hvalue
    simp only [List.cons.injEq, ← UInt8.toNat_inj, and_true]
    omega
  | [b₁, b₂, b₃], [b₁', b₂', b₃'], _ =>
    have hlead := announced_eq_three_iff.mp ha
    have hlead' := announced_eq_three_iff.mp ha'
    simp only [List.mem_cons, List.not_mem_nil, or_false, forall_eq_or_imp, forall_eq,
      continues_iff] at hc hc'
    rw [value_three, value_three] at hvalue
    simp only [List.cons.injEq, ← UInt8.toNat_inj, and_true]
    omega

/-- A number that needs more continuation bytes is greater than those of shorter sequences. -/
theorem Complete.value_lt_leastValue {lead : UInt8} {tail : List UInt8} {count : Nat}
    (h : Complete lead tail) (hlt : tail.length < count) (hle : count ≤ 3) :
  value lead tail < leastValue count
  := by
  have ha := h.announced
  match tail with
  | [] =>
    have hlead := announced_eq_zero_iff.mp ha
    obtain rfl | rfl | rfl : count = 1 ∨ count = 2 ∨ count = 3 := by
      simp only [List.length_nil] at hlt
      omega
    all_goals
      simp only [value_nil, leastValue]
      omega
  | [b] =>
    obtain rfl | rfl : count = 2 ∨ count = 3 := by
      simp only [List.length_singleton] at hlt
      omega
    all_goals
      simp only [value_one, leastValue]
      omega
  | [b₁, b₂] =>
    obtain rfl : count = 3 := by
      simp only [List.length_cons, List.length_nil] at hlt
      omega
    simp only [value_two, leastValue]
    omega
  | _ :: _ :: _ :: _ =>
    simp only [List.length_cons] at hlt
    omega

/-- The complete sequences that are well formed are the encodings of characters. -/
theorem wellFormed_iff_encodeChar {lead : UInt8} {tail : List UInt8} (h : Complete lead tail) :
  WellFormed lead tail
    ↔ String.utf8EncodeChar (Char.ofNat (value lead tail)) = lead :: tail
  := by
  constructor
  · rintro ⟨hleast, hvalid⟩
    obtain ⟨lead', tail', hencode, h', hvalue, hleast'⟩ :=
      exists_complete_encodeChar (Char.ofNat (value lead tail))
    have hnumber := toNat_ofNat hvalid
    rw [hnumber] at hvalue hleast'
    have hlength : tail'.length = tail.length := by
      have hle := announced_le_three h.announced
      have hle' := announced_le_three h'.announced
      rcases Nat.lt_trichotomy tail'.length tail.length with hlt | heq | hlt
      · have hlt := h'.value_lt_leastValue hlt hle
        omega
      · apply heq
      · have hlt := h.value_lt_leastValue hlt hle'
        omega
    obtain ⟨rfl, rfl⟩ := h'.unique h hlength hvalue
    apply hencode
  · intro hencode
    apply (wellFormed_of_encodeChar hencode).2.1

/-! ### Texts -/

/-- The encoding of a character, whatever follows it, stands for the character. -/
theorem decode_encodeChar_append (c : Char) (rest : List UInt8) :
  decode (String.utf8EncodeChar c ++ rest) = c :: decode rest
  := by
  obtain ⟨lead, tail, hencode, hcomplete, -, -⟩ := exists_complete_encodeChar c
  obtain ⟨-, hwell, hvalue⟩ := wellFormed_of_encodeChar hencode
  rw [hencode, List.cons_append, decode_of_complete hcomplete, scalar, if_pos hwell, hvalue,
    Char.ofNat_toNat]

theorem encode_append (s t : String) :
  encode (s ++ t) = encode s ++ encode t
  := by
  rw [encode, String.toList_append, List.flatMap_append]
  rfl

/-- The encoding of a text, whatever follows it, stands for the text. -/
theorem decode_encode_append (text : String) (rest : List UInt8) :
  decode (encode text ++ rest) = text.toList ++ decode rest
  := by
  rw [encode]
  induction text.toList with
  | nil => rfl
  | cons c cs ih =>
    rw [List.flatMap_cons, List.append_assoc, decode_encodeChar_append, ih, List.cons_append]

/-- Decoding the encoding of a text gives the text. -/
theorem decode_encode (text : String) :
  decode (encode text) = text.toList
  := by
  have hdecode := decode_encode_append text []
  rwa [show decode [] = [] by simp [decode], List.append_nil, List.append_nil] at hdecode

theorem encode_injective {s t : String} (h : encode s = encode t) :
  s = t
  := by
  have hdecode := decode_encode s
  rw [h, decode_encode] at hdecode
  apply String.toList_inj.mp hdecode.symm

/-! ### ASCII -/

/-- A byte of ASCII stands in the encoding of no character but its own. -/
theorem toNat_of_mem_encodeChar {c : Char} {b : UInt8} (h : b ∈ String.utf8EncodeChar c)
    (hb : b.toNat < 0x80) :
  c.toNat = b.toNat
  := by
  obtain ⟨lead, tail, hencode, hcomplete, hvalue, -⟩ := exists_complete_encodeChar c
  rw [hencode] at h
  rcases List.mem_cons.mp h with rfl | htail
  · have htail : tail = [] := by
      apply List.eq_nil_of_length_eq_zero
      have hannounced := announced_eq_zero_iff.mpr (Nat.le_of_lt_succ hb)
      rwa [hcomplete.announced, Option.some.injEq] at hannounced
    rw [← hvalue, htail, value_nil]
  · have hcontinues := continues_iff.mp (hcomplete.continues b htail)
    omega

/-- So it stands in the encoding of a text only if its character stands in the text. -/
theorem mem_of_mem_encode {text : String} {b : UInt8} (h : b ∈ encode text) (hb : b.toNat < 0x80) :
  Char.ofNat b.toNat ∈ text.toList
  := by
  obtain ⟨c, hc, hmem⟩ := List.mem_flatMap.mp h
  rwa [← toNat_of_mem_encodeChar hmem hb, Char.ofNat_toNat]

end FrontEnd.Text.Utf8
