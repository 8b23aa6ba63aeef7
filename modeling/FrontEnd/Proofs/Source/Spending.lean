import FrontEnd.Proofs.Source.Calling

/-!
# What calls use up

A call of a source hands out a byte, or uses up a disturbance or a failure, or hands out nothing and
so ends a character or the stream. A character takes a byte at least. So the characters that are
decoded are no more than the bytes that are handed out (`ByteStream.Decodes.length_le_handed`), and
the calls that are made for them are bounded by what the source holds
(`ByteStream.calls_le_of_char`).
-/

namespace FrontEnd

open Text

/-- Whether an event is a failure or a disturbance. -/
def Event.isTrouble : Event → Bool
  | data _ => false
  | failure _ => true

/-! ### What calls use up -/

namespace Source

/-- The number of failures and disturbances to come. -/
def troubles (source : Source) : Nat :=
  source.events.countP Event.isTrouble

variable {source middle last : Source} {room : Nat} {bytes : List UInt8} {failure : Failure}
  {answer : Answer} {answers : List Answer}

theorem troubles_of_call_ok (h : source.call room = (.ok bytes, middle)) :
  middle.troubles = source.troubles
  := by
  unfold call at h
  split at h
  · next hevents =>
    obtain ⟨-, rfl⟩ := Prod.mk.inj h
    rw [troubles, troubles, hevents]
  · simp at h
  · next all rest hevents =>
    obtain ⟨-, rfl⟩ := Prod.mk.inj h
    rw [troubles, troubles, hevents, keep]
    split
    · rfl
    · rfl

theorem troubles_of_call_error (h : source.call room = (.error failure, middle)) :
  middle.troubles + 1 = source.troubles
  := by
  unfold call at h
  split at h
  · simp at h
  · next hevents =>
    obtain ⟨-, rfl⟩ := Prod.mk.inj h
    rw [troubles, troubles, hevents, List.countP_cons_of_pos rfl]
  · simp at h

/-- What a call hands out no longer remains. -/
theorem remaining_of_call (h : source.call room = (answer, middle)) :
  middle.remaining + answer.bytes.length = source.remaining
  := by
  cases answer with
  | error failure => apply remaining_of_call_error h
  | ok bytes => apply remaining_of_call_ok h

/-- What a call hands out is counted. -/
theorem handed_of_call (h : source.call room = (answer, middle)) :
  middle.handed = source.handed + answer.bytes.length
  := by
  unfold call at h
  split at h
  all_goals
    obtain ⟨rfl, rfl⟩ := Prod.mk.inj h
    rfl

theorem handedOut_cons (answer : Answer) (answers : List Answer) :
  handedOut (answer :: answers) = answer.bytes ++ handedOut answers
  := List.flatMap_cons

theorem Answers.remaining_eq (h : source.Answers room answers last) :
  last.remaining + (handedOut answers).length = source.remaining
  := by
  induction h with
  | refl => rfl
  | call hcall _ ih =>
    have hone := remaining_of_call hcall
    rw [handedOut_cons, List.length_append]
    omega

theorem Answers.handed_eq (h : source.Answers room answers last) :
  last.handed = source.handed + (handedOut answers).length
  := by
  induction h with
  | refl => rfl
  | call hcall _ ih =>
    have hone := handed_of_call hcall
    rw [handedOut_cons, List.length_append]
    omega

/-- Whether an answer hands out nothing, and is no failure. -/
def Answer.isSilence : Answer → Bool
  | .ok [] => true
  | _ => false

/-- The number of answers that hand out nothing. -/
def silences (answers : List Answer) : Nat :=
  answers.countP Answer.isSilence

theorem silences_append (answers answers' : List Answer) :
  silences (answers ++ answers') = silences answers + silences answers'
  := List.countP_append

/-- A call uses up a byte, or a failure or a disturbance, unless it hands out nothing. -/
theorem spent_of_call (h : source.call room = (answer, middle)) :
  1 + middle.remaining + middle.troubles
    ≤ source.remaining + source.troubles + silences [answer]
  := by
  have hremaining := remaining_of_call h
  cases answer with
  | error failure =>
    have htroubles := troubles_of_call_error h
    omega
  | ok bytes =>
    have htroubles := troubles_of_call_ok h
    cases bytes with
    | nil =>
      have hsilence : silences [.ok []] = 1 := rfl
      omega
    | cons b bytes =>
      rw [Answer.bytes, List.length_cons] at hremaining
      omega

theorem Answers.spent (h : source.Answers room answers last) :
  answers.length + last.remaining + last.troubles
    ≤ source.remaining + source.troubles + silences answers
  := by
  induction h with
  | refl => simp
  | @call _ _ _ answer answers hcall _ ih =>
    have hone := spent_of_call hcall
    rw [← List.singleton_append, silences_append, List.length_append, List.length_singleton]
    omega

theorem Plain.silences_eq (h : Plain answers) :
  silences answers = 0
  := by
  apply List.countP_eq_zero.mpr
  rintro (_ | _ | ⟨b, bytes⟩) hmem
  · simp [Answer.isSilence]
  · exact absurd hmem h.not_mem
  · simp [Answer.isSilence]

theorem PlainUntil.silences_of_silence (h : PlainUntil (some (.ok [])) answers) :
  silences answers = 1
  := by
  obtain ⟨front, hfront, rfl⟩ := h
  rw [silences_append, hfront.silences_eq]
  rfl

theorem PlainUntil.silences_of_failure (h : PlainUntil (some (.error failure)) answers) :
  silences answers = 0
  := by
  obtain ⟨front, hfront, rfl⟩ := h
  rw [silences_append, hfront.silences_eq]
  rfl

end Source

/-! ### Decoding -/

namespace ByteStream

open Source

variable {stream middle next last : ByteStream} {cs cs' : List Char} {answers : List Answer}
  {taken : List UInt8} {c? : Except Failure (Option Char)}

/-- The character that was decoded, if the bytes came to one. -/
def decoded : Except Failure (Option Char) → List Char
  | .ok (some c) => [c]
  | _ => []

/-- Looking for characters again and again leads from one stream to the other, and these are decoded
on the way. -/
inductive Decodes : ByteStream → List Char → ByteStream → Prop where
  | refl (stream : ByteStream) : Decodes stream [] stream
  | next {stream middle last : ByteStream} {c? : Except Failure (Option Char)} {cs : List Char}
      (h : stream.nextChar = (c?, middle)) (hrest : Decodes middle cs last) :
      Decodes stream (decoded c? ++ cs) last

theorem decodes_of_nextChar (h : stream.nextChar = (c?, next)) :
  stream.Decodes (decoded c?) next
  := by
  rw [← List.append_nil (decoded c?)]
  apply Decodes.next h (.refl next)

theorem Decodes.trans (h : stream.Decodes cs middle) (h' : middle.Decodes cs' last) :
  stream.Decodes (cs ++ cs') last
  := by
  induction h with
  | refl => apply h'
  | next hnext _ ih =>
    rw [List.append_assoc]
    apply Decodes.next hnext (ih h')

/-- Every character takes a byte. -/
theorem Decodes.length_add_remaining (h : stream.Decodes cs last) :
  cs.length + last.remaining ≤ stream.remaining
  := by
  induction h with
  | refl => simp
  | @next _ _ _ c? cs hnext _ ih =>
    rw [List.length_append]
    match c? with
    | .ok (some c) =>
      have hlt := remaining_of_nextChar hnext
      simp only [decoded, List.length_singleton]
      omega
    | .ok none | .error _ =>
      have hle := remaining_of_nextChar_le hnext
      simp only [decoded, List.length_nil]
      omega

/-- On the way from a stream to itself no byte is taken, so nothing is decoded. -/
theorem Decodes.eq_nil (h : stream.Decodes cs stream) :
  cs = []
  := by
  have hle := h.length_add_remaining
  apply List.length_eq_zero_iff.mp
  omega

/-- What is decoded on the way from one stream to another is one list of characters. -/
theorem Decodes.unique (h : stream.Decodes cs last) (h' : stream.Decodes cs' last) :
  cs = cs'
  := by
  induction h generalizing cs' with
  | refl => rw [h'.eq_nil]
  | next hnext hrest ih =>
    cases h' with
    | refl => rw [(Decodes.next hnext hrest).eq_nil]
    | next hnext' hrest' =>
      obtain ⟨rfl, rfl⟩ := Prod.mk.inj (hnext.symm.trans hnext')
      rw [ih hrest']

theorem Decodes.handed_eq (h : stream.Decodes cs last) :
  last.source.handed + last.source.remaining = stream.source.handed + stream.source.remaining
  := by
  induction h with
  | refl => rfl
  | next hnext _ ih =>
    obtain ⟨answers, taken, htakes, -⟩ := calling_of_nextChar hnext
    have hhanded := htakes.calls.handed_eq
    have hremaining := htakes.calls.remaining_eq
    omega

/-- Where the source was not called yet, no more characters are decoded than bytes are handed
out. -/
theorem Decodes.length_le_handed {source : Source} {capacity : Nat}
    (h : (ofSource source capacity).Decodes cs last) (hsource : source.handed = 0) :
  cs.length ≤ last.source.handed
  := by
  have hlength := h.length_add_remaining
  have hhanded := h.handed_eq
  simp only [remaining, ofSource, List.length_nil, hsource] at hlength hhanded
  omega

/-! ### The calls that are left -/

/-- A bound on the calls that looking for characters makes, one by which the stream ends apart. -/
def callsLeft (stream : ByteStream) : Nat :=
  stream.buffer.length + 2 * stream.source.remaining + stream.source.troubles

/-- The bytes taken pay for the call that handed out nothing. -/
theorem Takes.calls_le (h : stream.Takes answers taken next) :
  next.source.calls + next.callsLeft + taken.length
    ≤ stream.source.calls + stream.callsLeft + silences answers
  := by
  have hcalls := h.calls.calls_eq
  have hspent := h.calls.spent
  have hremaining := h.calls.remaining_eq
  have hbytes := congrArg List.length h.bytes_eq
  rw [List.length_append, List.length_append] at hbytes
  rw [callsLeft, callsLeft]
  omega

/-- A character is decoded within the calls left. -/
theorem calls_le_of_char {c : Char} (h : stream.nextChar = (.ok (some c), next)) :
  next.source.calls + next.callsLeft ≤ stream.source.calls + stream.callsLeft
  := by
  obtain ⟨answers, taken, htakes, hcalling⟩ := calling_of_nextChar h
  have hle := htakes.calls_le
  cases hcalling with
  | char hplain =>
    rw [hplain.silences_eq] at hle
    omega
  | within huntil =>
    rw [huntil.silences_of_silence, List.length_cons] at hle
    omega

/-- With the end there may be one call more. -/
theorem calls_le_of_nextChar (h : stream.nextChar = (c?, next)) :
  next.source.calls ≤ stream.source.calls + stream.callsLeft + 1
  := by
  obtain ⟨answers, taken, htakes, hcalling⟩ := calling_of_nextChar h
  have hle := htakes.calls_le
  cases hcalling with
  | char hplain =>
    rw [hplain.silences_eq] at hle
    omega
  | border huntil =>
    rw [huntil.silences_of_silence] at hle
    omega
  | within huntil =>
    rw [huntil.silences_of_silence] at hle
    omega
  | failed huntil =>
    rw [huntil.silences_of_failure] at hle
    omega

end ByteStream

end FrontEnd
