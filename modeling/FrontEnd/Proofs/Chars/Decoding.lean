import FrontEnd.Proofs.Chars.Decks
import FrontEnd.Proofs.Chars.Reaching
import FrontEnd.Proofs.Source.Spending

/-!
# What reading decodes

However a character stream is read and pushed back, the calls that were made and those that are left
do not become more (`Reaches.callsAtMost_le`), and the characters that are decoded on the way are
those that come off its deck (`Reaches.decodes`).
-/

namespace FrontEnd

namespace CharStream

open ByteStream

variable {stream next last : CharStream} {log : List Record} {c? : Option Char}

/-- A bound on the calls that reading on makes of the source, however it is done. -/
def callsLeft (stream : CharStream) : Nat :=
  if stream.exhausted then 0 else stream.bytes.callsLeft + 1

/-- The calls that were made, and those that are left. -/
def callsAtMost (stream : CharStream) : Nat :=
  stream.bytes.source.calls + stream.callsLeft

theorem calls_le_callsAtMost (stream : CharStream) :
  stream.bytes.source.calls ≤ stream.callsAtMost
  := Nat.le_add_right _ _

theorem callsAtMost_ofSource (source : Source) (capacity : Nat) :
  (ofSource source capacity).callsAtMost
    = source.calls + (2 * source.remaining + source.troubles + 1)
  := by simp [callsAtMost, callsLeft, ByteStream.callsLeft, ofSource, ByteStream.ofSource]

theorem callsAtMost_read (h : stream.read.Yields (c?, next)) :
  next.callsAtMost ≤ stream.callsAtMost
  := by
  obtain ⟨c?', next', log, hread, hcase⟩ := stream.read_cases
  rw [hread] at h
  obtain ⟨rfl, rfl⟩ := Prod.mk.inj (Except.ok.inj h)
  cases hcase with
  | waiting => exact Nat.le_refl _
  | ended => exact Nat.le_refl _
  | char _ hexhausted hnext =>
    have hle := calls_le_of_char hnext
    simp only [callsAtMost, callsLeft, hexhausted, Bool.false_eq_true, if_false]
    omega
  | silence _ hexhausted hnext | failed _ hexhausted hnext =>
    have hle := calls_le_of_nextChar hnext
    simp only [callsAtMost, callsLeft, hexhausted, Bool.false_eq_true, if_false, if_true]
    omega

/-- However a stream is read, the calls stay within the bound. -/
theorem Reaches.callsAtMost_le (h : stream.Reaches log last) :
  last.callsAtMost ≤ stream.callsAtMost
  := by
  induction h with
  | refl => exact Nat.le_refl _
  | read hread _ ih => exact Nat.le_trans ih (callsAtMost_read hread)
  | unread hunread _ ih =>
    obtain rfl := eq_of_unread hunread
    apply ih
  | record _ _ ih => apply ih

/-! ### The characters that are decoded -/

/-- A read decodes what it takes off the deck. -/
theorem decodes_read (h : stream.read.Yields (c?, next)) :
  ∃ cs, stream.bytes.Decodes cs next.bytes ∧ stream.deck.chars = cs ++ next.deck.chars
  := by
  obtain ⟨c?', next', log, hread, hcase⟩ := stream.read_cases
  rw [hread] at h
  obtain ⟨rfl, rfl⟩ := Prod.mk.inj (Except.ok.inj h)
  cases hcase with
  | waiting => exact ⟨[], .refl _, rfl⟩
  | ended => exact ⟨[], .refl _, rfl⟩
  | @char c _ _ hexhausted hnext =>
    use [c], decodes_of_nextChar hnext
    simp [deck, hexhausted, content_of_char hnext]
  | silence _ hexhausted hnext =>
    use [], decodes_of_nextChar hnext
    simp [deck, hexhausted, content_of_end hnext]
  | failed _ hexhausted hnext =>
    use [], decodes_of_nextChar hnext
    simp [deck, hexhausted, content_of_failure hnext]

/-- However a stream is read, what is decoded was on the deck before what is there then. -/
theorem Reaches.decodes (h : stream.Reaches log last) :
  ∃ cs, stream.bytes.Decodes cs last.bytes ∧ stream.deck.chars = cs ++ last.deck.chars
  := by
  induction h with
  | refl stream => exact ⟨[], .refl _, rfl⟩
  | read hread _ ih =>
    obtain ⟨cs, hdecodes, hchars⟩ := decodes_read hread
    obtain ⟨cs', hdecodes', hchars'⟩ := ih
    use cs ++ cs', hdecodes.trans hdecodes'
    rw [hchars, hchars', List.append_assoc]
  | unread hunread _ ih =>
    obtain rfl := eq_of_unread hunread
    apply ih
  | record _ _ ih => apply ih

end CharStream

end FrontEnd
