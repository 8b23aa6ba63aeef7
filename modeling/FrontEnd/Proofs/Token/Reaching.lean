import FrontEnd.Proofs.Chars.Reaching
import FrontEnd.Token.Stream

/-!
# Reading tokens reaches on

All that a token stream does with the characters behind it is to read them and to push them back,
so tokens are taken along every passage that allows this (`Passage.AllowsReading.next`): a token is
taken from a stream on the way to the one after it (`reachesBy_next`), and nothing is logged then
but what tells of reading (`isReading_of_next`).
-/

namespace FrontEnd

open Text

/-! ### Operations -/

namespace Passage

variable {passage : Passage CharStream}

/-- Making a token leaves the stream. -/
theorem leads_make (stream : CharStream) (kind : Kind) (literal : String) :
  passage.Leads stream (do return (← Token.make kind literal, stream)) Prod.snd
  := by
  apply Leads.lift_bind
  intro _
  exact leads_done rfl

namespace AllowsReading

variable (h : passage.AllowsReading)

include h

theorem wordAfter (first : Char) (stream : CharStream) :
  passage.Leads stream (stream.wordAfter first) Prod.snd
  := by
  apply (h.takeWhile _ stream).bind
  rintro ⟨rest, next⟩
  apply leads_make

theorem fraction (stream : CharStream) :
  passage.Leads stream stream.fraction Prod.snd
  := by
  apply (h.read stream).bind
  rintro ⟨c | c, next⟩
  · exact leads_done rfl
  · dsimp only
    split
    · apply (h.takeWhile _ next).bind
      rintro ⟨digits, last⟩
      exact leads_done rfl
    · apply h.unread_bind next c
      intro _
      rfl

theorem numberAfter (first : Char) (stream : CharStream) :
  passage.Leads stream (stream.numberAfter first) Prod.snd
  := by
  apply (h.takeWhile _ stream).bind
  rintro ⟨whole, middle⟩
  apply (h.fraction middle).bind
  rintro ⟨part, next⟩
  apply leads_make

theorem equalsAfter (one two : Kind) (stream : CharStream) :
  passage.Leads stream (stream.equalsAfter one two) Prod.snd
  := by
  apply (h.peek stream).bind
  rintro ⟨c?, next⟩
  split
  · next heq =>
    obtain ⟨-, rfl⟩ := Prod.mk.inj heq
    apply (h.read _).bind
    rintro ⟨_, last⟩
    exact leads_done rfl
  · next heq =>
    obtain ⟨-, rfl⟩ := Prod.mk.inj heq
    exact leads_done rfl

theorem tokenAfter (first : Char) (stream : CharStream) :
  passage.Leads stream (stream.tokenAfter first) Prod.snd
  := by
  unfold CharStream.tokenAfter
  split
  · apply h.equalsAfter
  split
  · apply h.equalsAfter
  split
  · apply h.wordAfter
  split
  · apply h.numberAfter
  split
  · apply leads_make
  · apply Leads.tell_bind (h.record stream _ rfl)
    exact leads_done rfl

theorem nextToken (stream : CharStream) :
  passage.Leads stream stream.nextToken Prod.snd
  := by
  apply (h.read stream).bind
  rintro ⟨c | c, next⟩
  · exact leads_done rfl
  · apply h.tokenAfter

theorem next (stream : TokenStream) :
  passage.Leads stream.chars stream.next fun answer => answer.2.chars
  := by
  apply (h.takeWhile _ stream.chars).bind
  rintro ⟨_, chars⟩
  apply (h.nextToken chars).bind
  rintro ⟨token, last⟩
  apply Leads.tell_bind (h.record last _ rfl)
  exact leads_done rfl

theorem toList (stream : TokenStream) :
  passage.Leads stream.chars stream.toList fun answer => answer.2.chars
  := by
  fun_induction TokenStream.toList stream with
  | case1 stream ih =>
    apply (h.next stream).attach_bind
    rintro ⟨token, rest⟩ hnext
    dsimp only
    split
    · exact leads_done rfl
    · next hend =>
      apply Leads.map
      apply ih token rest hnext hend

end AllowsReading

end Passage

/-! ### Where the stream is then -/

namespace TokenStream

theorem reachesBy_next (stream : TokenStream) :
  stream.chars.ReachesBy stream.next fun answer => answer.2.chars
  := CharStream.reaching_allowsReading.next stream

theorem reachesBy_next? (stream : TokenStream) :
  stream.chars.ReachesBy stream.next? fun answer => answer.2.chars
  := by
  apply stream.reachesBy_next.bind
  rintro ⟨token, last⟩
  exact Passage.leads_done rfl

theorem reachesBy_toList (stream : TokenStream) :
  stream.chars.ReachesBy stream.toList fun answer => answer.2.chars
  := CharStream.reaching_allowsReading.toList stream

end TokenStream

/-! ### What is logged then -/

namespace Record

/-- Whether a record tells of reading: of a token, or of a failure of the source. -/
def isReading : Record → Bool
  | sourceFailed _ => true
  | record => record.isScanning

theorem isReading_of_isScanning {record : Record} (h : record.isScanning) :
  record.isReading
  := by
  cases record with
  | sourceFailed => rfl
  | _ => apply h

end Record

/-- Logging nothing but what tells of reading, as a passage. -/
def CharStream.loggingReads : Passage CharStream where
  Goes _ log _ := ∀ record ∈ log, record.isReading
  refl _ := List.forall_mem_nil _
  trans h h' := List.forall_mem_append.mpr ⟨h, h'⟩

theorem CharStream.loggingReads_allowsReading :
  loggingReads.AllowsReading
  := by
  constructor
  · intro stream
    constructor
    constructor
    rintro ⟨_, _⟩ -
    obtain ⟨c?, next, log, hread, hcase⟩ := stream.read_cases
    rw [hread]
    cases hcase with
    | failed => exact List.forall_mem_singleton.mpr rfl
    | _ => exact List.forall_mem_nil _
  · intro stream c
    apply Passage.leads_lift
    intro next _
    exact List.forall_mem_nil _
  · intro stream record hrecord
    exact List.forall_mem_singleton.mpr (Record.isReading_of_isScanning hrecord)

/-- Taking a token logs nothing but what tells of reading. -/
theorem TokenStream.isReading_of_next {stream rest : TokenStream} {token : Token}
    (h : stream.next.Yields (token, rest)) :
  ∀ record ∈ stream.next.log, record.isReading
  := (CharStream.loggingReads_allowsReading.next stream).goes h

end FrontEnd
