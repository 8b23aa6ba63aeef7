import FrontEnd.Text.Utf8

/-!
# Decoding bytes

Decoding looks at one sequence at a time: a byte that announces nothing, a lead byte with all
the continuation bytes that it announces (`Complete`), or a lead byte with fewer of them
(`Cut`). `sequenceInduction` is the induction over bytes that goes with it, and `decode` has
one equation for each case. So has `finished`, which leaves out a sequence that the end of the
bytes cuts short: it is what can be read before a failure.
-/

namespace FrontEnd.Text.Utf8

/-- A lead byte with as many continuation bytes as it announces. -/
structure Complete (lead : UInt8) (tail : List UInt8) : Prop where
  announced : announced lead = some tail.length
  continues : ∀ b ∈ tail, continues b

/-- A lead byte with fewer continuation bytes than it announces, where `rest` comes after
them. -/
structure Cut (lead : UInt8) (tail rest : List UInt8) : Prop where
  announced : ∃ count, announced lead = some count ∧ tail.length < count
  continues : ∀ b ∈ tail, continues b
  next : ∀ b, rest.head? = some b → ¬ Utf8.continues b

/-- The characters that bytes spell, but for a sequence that their end cuts short. -/
def finished : List UInt8 → List Char
  | [] => []
  | lead :: rest =>
    match announced lead with
    | none => replacement :: finished rest
    | some count =>
      let c := if (takeTail count rest).1.length = count then scalar lead (takeTail count rest).1
        else replacement
      if (takeTail count rest).1.length < count ∧ (takeTail count rest).2 = [] then []
      else c :: finished (takeTail count rest).2
termination_by bytes => bytes.length
decreasing_by
  · simp
  · have h := length_takeTail_le count rest
    simp only [List.length_cons]
    omega

/-! ### Lead bytes -/

theorem announced_eq_zero_iff {lead : UInt8} :
  announced lead = some 0 ↔ lead.toNat ≤ 0x7F
  := by
  unfold announced
  repeat' split
  all_goals simp_all

theorem announced_eq_one_iff {lead : UInt8} :
  announced lead = some 1 ↔ 0xC2 ≤ lead.toNat ∧ lead.toNat ≤ 0xDF
  := by
  unfold announced
  repeat' split
  all_goals simp_all
  omega

theorem announced_eq_two_iff {lead : UInt8} :
  announced lead = some 2 ↔ 0xE0 ≤ lead.toNat ∧ lead.toNat ≤ 0xEF
  := by
  unfold announced
  repeat' split
  all_goals simp_all
  all_goals omega

theorem announced_eq_three_iff {lead : UInt8} :
  announced lead = some 3 ↔ 0xF0 ≤ lead.toNat ∧ lead.toNat ≤ 0xF4
  := by
  unfold announced
  repeat' split
  all_goals simp_all
  all_goals omega

theorem announced_le_three {lead : UInt8} {count : Nat} (h : announced lead = some count) :
  count ≤ 3
  := by
  unfold announced at h
  repeat' split at h
  all_goals simp at h
  all_goals omega

theorem continues_iff {b : UInt8} :
  continues b ↔ 0x80 ≤ b.toNat ∧ b.toNat ≤ 0xBF
  := by simp [continues]

theorem announced_eq_none_iff {lead : UInt8} :
  announced lead = none ↔ 0x80 ≤ lead.toNat ∧ lead.toNat ≤ 0xC1 ∨ 0xF5 ≤ lead.toNat
  := by
  unfold announced
  repeat' split
  all_goals simp_all
  all_goals omega

theorem lead_of_announced {lead : UInt8} {count : Nat} (h : announced lead = some count)
    (hpos : 0 < count) :
  0xC2 ≤ lead.toNat ∧ lead.toNat ≤ 0xF4
  := by
  unfold announced at h
  repeat' split at h
  all_goals simp at h
  all_goals omega

/-! ### Taking continuation bytes -/

/-- The bytes that were taken are continuation bytes. -/
theorem continues_of_mem_takeTail {count : Nat} {bytes : List UInt8} {b : UInt8}
    (h : b ∈ (takeTail count bytes).1) :
  continues b
  := by
  fun_induction takeTail count bytes with
  | case1 => simp at h
  | case2 => simp at h
  | case3 count b' rest hb tail rest' htake ih =>
    rcases List.mem_cons.mp h with rfl | h
    · apply hb
    · apply ih (by rw [htake]; exact h)
  | case4 => simp at h

theorem length_takeTail_fst_le (count : Nat) (bytes : List UInt8) :
  (takeTail count bytes).1.length ≤ count
  := by
  fun_induction takeTail count bytes with
  | case1 => simp
  | case2 => simp
  | case3 count b rest hb tail rest' htake ih =>
    rw [htake] at ih
    simpa using ih
  | case4 => simp

/-- After fewer bytes than were looked for, the next one is no continuation byte. -/
theorem not_continues_of_takeTail {count : Nat} {bytes : List UInt8}
    (h : (takeTail count bytes).1.length < count) :
  ∀ b, (takeTail count bytes).2.head? = some b → ¬ continues b
  := by
  fun_induction takeTail count bytes with
  | case1 => simp at h
  | case2 => simp
  | case3 count b rest hb tail rest' htake ih =>
    rw [htake] at ih
    apply ih (by simpa using h)
  | case4 count b rest hb =>
    simpa using hb

/-- Continuation bytes are taken if as many are looked for, and also if more are and no other
one comes next. -/
theorem takeTail_append {count : Nat} {tail rest : List UInt8} (h : ∀ b ∈ tail, continues b)
    (hcount : tail.length = count
      ∨ tail.length < count ∧ ∀ b, rest.head? = some b → ¬ continues b) :
  takeTail count (tail ++ rest) = (tail, rest)
  := by
  induction tail generalizing count with
  | nil =>
    rcases hcount with rfl | ⟨hlt, hnext⟩
    · rfl
    obtain ⟨count, rfl⟩ := Nat.exists_eq_succ_of_ne_zero (Nat.ne_of_gt hlt)
    cases rest with
    | nil => rfl
    | cons b rest => simp [takeTail, hnext b rfl]
  | cons b tail ih =>
    have hb := h b List.mem_cons_self
    have hne : count ≠ 0 := by
      simp only [List.length_cons] at hcount
      omega
    obtain ⟨count, rfl⟩ := Nat.exists_eq_succ_of_ne_zero hne
    simp only [List.length_cons, Nat.succ_eq_add_one, Nat.add_right_cancel_iff,
      Nat.add_lt_add_iff_right] at hcount
    have htail := ih (fun b' hb' => h b' (List.mem_cons_of_mem b hb')) hcount
    simp only [List.cons_append, takeTail, hb, if_true, htail]

/-! ### One sequence at a time -/

theorem decode_of_stray {lead : UInt8} (h : announced lead = none) (rest : List UInt8) :
  decode (lead :: rest) = replacement :: decode rest
  := by
  rw [decode]
  simp only [h]

theorem decode_of_complete {lead : UInt8} {tail : List UInt8} (h : Complete lead tail)
    (rest : List UInt8) :
  decode (lead :: (tail ++ rest)) = scalar lead tail :: decode rest
  := by
  rw [decode]
  simp only [h.announced, takeTail_append h.continues (.inl rfl), if_true]

theorem decode_of_cut {lead : UInt8} {tail rest : List UInt8} (h : Cut lead tail rest) :
  decode (lead :: (tail ++ rest)) = replacement :: decode rest
  := by
  obtain ⟨count, hcount, hlt⟩ := h.announced
  rw [decode]
  simp only [hcount, takeTail_append h.continues (.inr ⟨hlt, h.next⟩), if_neg (Nat.ne_of_lt hlt)]

theorem finished_of_stray {lead : UInt8} (h : announced lead = none) (rest : List UInt8) :
  finished (lead :: rest) = replacement :: finished rest
  := by
  rw [finished]
  simp only [h]

theorem finished_of_complete {lead : UInt8} {tail : List UInt8} (h : Complete lead tail)
    (rest : List UInt8) :
  finished (lead :: (tail ++ rest)) = scalar lead tail :: finished rest
  := by
  rw [finished]
  simp only [h.announced, takeTail_append h.continues (.inl rfl), if_true, Nat.lt_irrefl,
    false_and, if_false]

theorem finished_of_cut {lead : UInt8} {tail rest : List UInt8} (h : Cut lead tail rest)
    (hrest : rest ≠ []) :
  finished (lead :: (tail ++ rest)) = replacement :: finished rest
  := by
  obtain ⟨count, hcount, hlt⟩ := h.announced
  rw [finished]
  simp only [hcount, takeTail_append h.continues (.inr ⟨hlt, h.next⟩), if_neg (Nat.ne_of_lt hlt),
    hrest, and_false, if_false]

theorem finished_of_cut_at_end {lead : UInt8} {tail : List UInt8} (h : Cut lead tail []) :
  finished (lead :: tail) = []
  := by
  obtain ⟨count, hcount, hlt⟩ := h.announced
  have htake := takeTail_append h.continues (.inr ⟨hlt, h.next⟩)
  rw [List.append_nil] at htake
  rw [finished]
  simp only [hcount, htake, hlt, and_self, if_true]

/-- Bytes that begin with a lead byte begin with a complete or a cut sequence. -/
theorem exists_complete_or_cut {lead : UInt8} {count : Nat} (h : announced lead = some count)
    (bytes : List UInt8) :
  ∃ tail rest, bytes = tail ++ rest ∧ (Complete lead tail ∨ Cut lead tail rest)
  := by
  refine ⟨_, _, (append_takeTail count bytes).symm, ?_⟩
  have hcontinues : ∀ b ∈ (takeTail count bytes).1, continues b :=
    fun _ => continues_of_mem_takeTail
  rcases Nat.lt_or_eq_of_le (length_takeTail_fst_le count bytes) with hlt | heq
  · exact .inr ⟨⟨count, h, hlt⟩, hcontinues, not_continues_of_takeTail hlt⟩
  · exact .inl ⟨by rw [h, heq], hcontinues⟩

/-- Induction over the sequences that bytes split into. -/
@[elab_as_elim]
theorem sequenceInduction {motive : List UInt8 → Prop}
    (nil : motive [])
    (stray : ∀ lead rest, announced lead = none → motive rest → motive (lead :: rest))
    (complete : ∀ lead tail rest, Complete lead tail → motive rest →
      motive (lead :: (tail ++ rest)))
    (cut : ∀ lead tail rest, Cut lead tail rest → motive rest →
      motive (lead :: (tail ++ rest)))
    (bytes : List UInt8) :
  motive bytes
  := by
  match bytes with
  | [] => apply nil
  | lead :: bytes =>
    match hlead : announced lead with
    | none => apply stray lead bytes hlead (sequenceInduction nil stray complete cut bytes)
    | some count =>
      obtain ⟨tail, rest, hsplit, h⟩ := exists_complete_or_cut hlead bytes
      have hlength := congrArg List.length hsplit
      have ih := sequenceInduction nil stray complete cut rest
      rw [hsplit]
      apply h.elim (fun h => complete lead tail rest h ih) (fun h => cut lead tail rest h ih)
termination_by bytes.length
decreasing_by
  · simp
  · simp only [List.length_append] at hlength
    simp only [List.length_cons]
    omega

end FrontEnd.Text.Utf8
