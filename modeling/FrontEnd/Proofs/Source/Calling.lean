import FrontEnd.Proofs.Source.Delivery
import FrontEnd.Proofs.Text.Decoding
import FrontEnd.Source.Bytes
import Mathlib.Tactic.Use

/-!
# The calls of a source

`source.Answers room answers last` says that calls one after the other get these answers and lead
from one source to the other; there is one such list at most (`Answers.unique`). A byte stream goes
on calling only as long as the answers are plain: `Calling` says how the calls that are made for
one character end. A call that hands out nothing ends the stream where a character would begin, and
within a sequence it ends the sequence.
-/

namespace FrontEnd

open Text

namespace Source

/-- What a source answers to a call. -/
abbrev Answer : Type := Except Failure (List UInt8)

/-- The failure that an answer is, unless the source was only disturbed. -/
def Answer.failure? : Answer → Option Failure
  | .ok _ => none
  | .error failure => if failure.isInterruption then none else some failure

/-- The bytes that an answer hands out. -/
def Answer.bytes : Answer → List UInt8
  | .ok bytes => bytes
  | .error _ => []

/-- The failures among answers, without disturbances. -/
def failures (answers : List Answer) : List Failure :=
  answers.filterMap Answer.failure?

/-- The bytes that answers hand out, one after the other. -/
def handedOut (answers : List Answer) : List UInt8 :=
  answers.flatMap Answer.bytes

/-- Calls one after the other, with this room each, get these answers and lead from one source to
the other. -/
inductive Answers (room : Nat) : Source → List Answer → Source → Prop where
  | refl (source : Source) : Answers room source [] source
  | call {source middle last : Source} {answer : Answer} {answers : List Answer}
      (h : source.call room = (answer, middle)) (hrest : Answers room middle answers last) :
      Answers room source (answer :: answers) last

variable {source middle last : Source} {room : Nat} {answer : Answer}
  {answers answers' front : List Answer} {last? : Option Answer} {failure : Failure}

theorem Answers.trans (h : source.Answers room answers middle)
    (h' : middle.Answers room answers' last) :
  source.Answers room (answers ++ answers') last
  := by
  induction h with
  | refl => apply h'
  | call hcall _ ih => apply Answers.call hcall (ih h')

/-- Every call is counted. -/
theorem calls_of_call (h : source.call room = (answer, last)) :
  last.calls = source.calls + 1
  := by
  unfold call at h
  split at h
  all_goals
    obtain ⟨-, rfl⟩ := Prod.mk.inj h
    rfl

theorem Answers.calls_eq (h : source.Answers room answers last) :
  last.calls = source.calls + answers.length
  := by
  induction h with
  | refl => rfl
  | call hcall _ ih =>
    have hone := calls_of_call hcall
    rw [List.length_cons]
    omega

/-- The two sources decide which answers the calls between them got. -/
theorem Answers.unique (h : source.Answers room answers last)
    (h' : source.Answers room answers' last) :
  answers = answers'
  := by
  induction h generalizing answers' with
  | refl source =>
    have hcalls := h'.calls_eq
    exact (List.length_eq_zero_iff.mp (by omega)).symm
  | @call source _ last _ answers hcall hrest ih =>
    cases h' with
    | refl =>
      have hone := calls_of_call hcall
      have hcalls := hrest.calls_eq
      omega
    | call hcall' hrest' =>
      obtain ⟨rfl, rfl⟩ := Prod.mk.inj (hcall.symm.trans hcall')
      rw [ih hrest']

/-! ### Answers that go on -/

/-- Every call handed something out or was disturbed. -/
def Plain (answers : List Answer) : Prop :=
  ∀ answer ∈ answers, answer ≠ .ok [] ∧ answer.failure? = none

/-- Plain answers, and then the last one, if there is one. -/
def PlainUntil (last? : Option Answer) (answers : List Answer) : Prop :=
  ∃ front, Plain front ∧ answers = front ++ last?.toList

theorem plain_nil :
  Plain []
  := by simp [Plain]

theorem Plain.append (h : Plain answers) (h' : Plain answers') :
  Plain (answers ++ answers')
  := by
  intro answer hmem
  rcases List.mem_append.mp hmem with hmem | hmem
  · apply h answer hmem
  · apply h' answer hmem

theorem Plain.failures_eq (h : Plain answers) :
  failures answers = []
  := by
  apply List.filterMap_eq_nil_iff.mpr
  intro answer hmem
  apply (h answer hmem).2

theorem Plain.not_mem (h : Plain answers) :
  .ok [] ∉ answers
  := fun hmem => (h _ hmem).1 rfl

theorem PlainUntil.append (h : Plain answers) (h' : PlainUntil last? answers') :
  PlainUntil last? (answers ++ answers')
  := by
  obtain ⟨front, hfront, rfl⟩ := h'
  use answers ++ front, h.append hfront
  rw [List.append_assoc]

theorem failures_append (answers answers' : List Answer) :
  failures (answers ++ answers') = failures answers ++ failures answers'
  := List.filterMap_append

theorem handedOut_append (answers answers' : List Answer) :
  handedOut (answers ++ answers') = handedOut answers ++ handedOut answers'
  := List.flatMap_append

/-! ### Fetching -/

theorem plain_of_disturbed (h : failure.isInterruption) :
  Plain [.error failure]
  := by
  intro answer hmem
  obtain rfl := List.mem_singleton.mp hmem
  simp [Answer.failure?, h]

/-- A fetch calls until it is not disturbed, and hands on the last answer. -/
theorem answers_of_fetch (h : source.fetch room = (answer, last)) :
  ∃ answers, source.Answers room answers last ∧ PlainUntil (some answer) answers
    ∧ handedOut answers = answer.bytes
    ∧ ∀ failure, answer = .error failure → failure.isInterruption = false
  := by
  fun_induction fetch source room with
  | case1 source bytes next hcall =>
    obtain ⟨rfl, rfl⟩ := Prod.mk.inj h
    use [.ok bytes], .call hcall (.refl next), ⟨[], plain_nil, rfl⟩
    simp [handedOut, Answer.bytes]
  | case2 source failure next hcall _ hdisturbed ih =>
    obtain ⟨answers, hanswers, huntil, hbytes, hlast⟩ := ih h
    use .error failure :: answers, .call hcall hanswers
    use PlainUntil.append (plain_of_disturbed hdisturbed) huntil
    constructor
    · rw [← hbytes]
      rfl
    · apply hlast
  | case3 source failure next hcall _ hfailed =>
    obtain ⟨rfl, rfl⟩ := Prod.mk.inj h
    use [.error failure], .call hcall (.refl next), ⟨[], plain_nil, rfl⟩
    constructor
    · rfl
    · rintro _ ⟨⟩
      simpa using hfailed

end Source

/-! ### Taking bytes -/

namespace ByteStream

open Source

variable {stream middle next : ByteStream} {answers answers' : List Answer}
  {taken taken' : List UInt8} {b lead : UInt8} {failure : Failure}

/-- Calls with these answers lead from one stream to the other, and these bytes were taken. -/
structure Takes (stream : ByteStream) (answers : List Answer) (taken : List UInt8)
    (next : ByteStream) : Prop where
  capacity_eq : next.capacity = stream.capacity
  calls : stream.source.Answers stream.capacity answers next.source
  bytes_eq : stream.buffer ++ handedOut answers = taken ++ next.buffer

theorem Takes.refl (stream : ByteStream) :
  stream.Takes [] [] stream
  := by
  constructor
  · rfl
  · apply Answers.refl
  · simp [handedOut]

theorem Takes.trans (h : stream.Takes answers taken middle)
    (h' : middle.Takes answers' taken' next) :
  stream.Takes (answers ++ answers') (taken ++ taken') next
  := by
  constructor
  · rw [h'.capacity_eq, h.capacity_eq]
  · apply h.calls.trans
    rw [← h.capacity_eq]
    apply h'.calls
  · rw [handedOut_append, ← List.append_assoc, h.bytes_eq, List.append_assoc, h'.bytes_eq,
      List.append_assoc]

theorem takes_of_fetch {source : Source} {answer : Answer} (hbuffer : stream.buffer = [])
    (h : stream.source.fetch stream.capacity = (answer, source)) :
  ∃ answers, stream.Takes answers [] ⟨source, stream.capacity, answer.bytes⟩
    ∧ PlainUntil (some answer) answers
    ∧ ∀ failure, answer = .error failure → failure.isInterruption = false
  := by
  obtain ⟨answers, hanswers, huntil, hbytes, hlast⟩ := answers_of_fetch h
  use answers
  constructor
  · exact ⟨rfl, hanswers, by rw [hbuffer, hbytes]⟩
  · use huntil

/-- A byte is seen after plain answers. -/
theorem takes_of_peek_some (h : stream.peek = (.ok (some b), next)) :
  ∃ answers, stream.Takes answers [] next ∧ Plain answers
  := by
  unfold peek at h
  split at h
  · obtain ⟨-, rfl⟩ := Prod.mk.inj h
    use [], .refl stream, plain_nil
  · next hbuffer =>
    split at h
    · next bytes source hfetch =>
      obtain ⟨hhead, rfl⟩ := Prod.mk.inj h
      obtain ⟨answers, htakes, ⟨front, hfront, rfl⟩, -⟩ := takes_of_fetch hbuffer hfetch
      use front ++ [.ok bytes], htakes
      apply hfront.append
      intro answer hmem
      obtain rfl := List.mem_singleton.mp hmem
      use by
        rintro ⟨⟩
        simp at hhead
      rfl
    · simp at h

/-- No byte is seen after a call that handed out nothing. -/
theorem takes_of_peek_none (h : stream.peek = (.ok none, next)) :
  ∃ answers, stream.Takes answers [] next ∧ PlainUntil (some (.ok [])) answers
    ∧ next.buffer = []
  := by
  unfold peek at h
  split at h
  · simp at h
  · next hbuffer =>
    split at h
    · next bytes source hfetch =>
      obtain ⟨hhead, rfl⟩ := Prod.mk.inj h
      obtain rfl : bytes = [] := by simpa using hhead
      obtain ⟨answers, htakes, huntil, -⟩ := takes_of_fetch hbuffer hfetch
      use answers, htakes, huntil
    · simp at h

theorem takes_of_peek_error (h : stream.peek = (.error failure, next)) :
  ∃ answers, stream.Takes answers [] next ∧ PlainUntil (some (.error failure)) answers
    ∧ failure.isInterruption = false
  := by
  unfold peek at h
  split at h
  · simp at h
  · next hbuffer =>
    split at h
    · simp at h
    · next failure' source hfetch =>
      obtain ⟨hfailure, rfl⟩ := Prod.mk.inj h
      obtain rfl := Except.error.inj hfailure
      obtain ⟨answers, htakes, huntil, hlast⟩ := takes_of_fetch hbuffer hfetch
      use answers, htakes, huntil
      apply hlast failure' rfl

/-- A byte that was seen is taken by skipping it. -/
theorem takes_skip (h : stream.peek = (.ok (some b), next)) :
  next.Takes [] [b] next.skip
  := by
  obtain ⟨rest, hrest⟩ := List.head?_eq_some_iff.mp (buffer_of_peek h)
  constructor
  · rfl
  · apply Answers.refl
  · simp [handedOut, skip, hrest]

/-! ### Taking characters -/

/-- How the calls that are made for the next character end, what it is and which bytes are taken
for it. -/
inductive Calling : Except Failure (Option Char) → List Answer → List UInt8 → ByteStream → Prop
    where
  | char {c : Char} {answers : List Answer} {taken : List UInt8} {next : ByteStream}
      (h : Plain answers) : Calling (.ok (some c)) answers taken next
  /-- A call handed out nothing where the character would begin. -/
  | border {answers : List Answer} {next : ByteStream} (h : PlainUntil (some (.ok [])) answers)
      (hbuffer : next.buffer = []) : Calling (.ok none) answers [] next
  /-- A call handed out nothing within a sequence. -/
  | within {answers : List Answer} {lead : UInt8} {tail : List UInt8} {next : ByteStream}
      (h : PlainUntil (some (.ok [])) answers) (hbuffer : next.buffer = [])
      (hcut : Utf8.Cut lead tail []) :
      Calling (.ok (some Utf8.replacement)) answers (lead :: tail) next
  | failed {failure : Failure} {answers : List Answer} {taken : List UInt8} {next : ByteStream}
      (h : PlainUntil (some (.error failure)) answers) (hfailure : failure.isInterruption = false) :
      Calling (.error failure) answers taken next

/-- Plain answers before make no difference to how the calls end. -/
theorem Calling.append {c? : Except Failure (Option Char)} (h : Calling c? answers' taken next)
    (hanswers : Plain answers) :
  Calling c? (answers ++ answers') taken next
  := by
  cases h with
  | char h => apply Calling.char (hanswers.append h)
  | border h hbuffer => apply Calling.border (.append hanswers h) hbuffer
  | within h hbuffer hcut => apply Calling.within (.append hanswers h) hbuffer hcut
  | failed h hfailure => apply Calling.failed (.append hanswers h) hfailure

theorem calling_of_completeChar {count : Nat} {tail : List UInt8} {c? : Except Failure Char}
    (hlead : Utf8.announced lead = some (tail.length + count))
    (htail : ∀ b ∈ tail, Utf8.continues b)
    (h : completeChar lead count tail stream = (c?, next)) :
  ∃ answers taken, stream.Takes answers taken next
    ∧ Calling (c?.map some) answers (lead :: (tail ++ taken)) next
  := by
  fun_induction completeChar lead count tail stream with
  | case1 =>
    obtain ⟨rfl, rfl⟩ := Prod.mk.inj h
    use [], [], .refl _
    apply Calling.char plain_nil
  | case2 count tail stream failure middle hpeek =>
    obtain ⟨rfl, rfl⟩ := Prod.mk.inj h
    obtain ⟨answers, htakes, huntil, hfailure⟩ := takes_of_peek_error hpeek
    use answers, [], htakes
    apply Calling.failed huntil hfailure
  | case3 count tail stream middle hpeek =>
    obtain ⟨rfl, rfl⟩ := Prod.mk.inj h
    obtain ⟨answers, htakes, huntil, hbuffer⟩ := takes_of_peek_none hpeek
    use answers, [], htakes
    rw [List.append_nil]
    have hcut : Utf8.Cut lead tail [] := ⟨⟨_, hlead, by omega⟩, htail, by simp⟩
    apply Calling.within huntil hbuffer hcut
  | case4 count tail stream b middle hpeek hb ih =>
    obtain ⟨answers, htakes, hplain⟩ := takes_of_peek_some hpeek
    have hlead' : Utf8.announced lead = some ((tail ++ [b]).length + count) := by
      rw [hlead, List.length_append, List.length_singleton, Nat.add_right_comm, Nat.add_assoc]
    have htail' : ∀ b' ∈ tail ++ [b], Utf8.continues b' := by
      intro b' hmem
      rcases List.mem_append.mp hmem with hmem | hmem
      · apply htail b' hmem
      · rwa [List.mem_singleton.mp hmem]
    obtain ⟨answers', taken, htakes', hcalling⟩ := ih hlead' htail' h
    have hskipped := (htakes.trans (takes_skip hpeek)).trans htakes'
    rw [List.append_nil, List.nil_append] at hskipped
    use answers ++ answers', [b] ++ taken, hskipped
    rw [← List.append_assoc]
    apply hcalling.append hplain
  | case5 count tail stream b middle hpeek =>
    obtain ⟨rfl, rfl⟩ := Prod.mk.inj h
    obtain ⟨answers, htakes, hplain⟩ := takes_of_peek_some hpeek
    use answers, [], htakes
    apply Calling.char hplain

/-- The calls that are made for the next character, and how they end. -/
theorem calling_of_nextChar {c? : Except Failure (Option Char)}
    (h : stream.nextChar = (c?, next)) :
  ∃ answers taken, stream.Takes answers taken next ∧ Calling c? answers taken next
  := by
  unfold nextChar at h
  split at h
  · next hpeek =>
    obtain ⟨rfl, rfl⟩ := Prod.mk.inj h
    obtain ⟨answers, htakes, huntil, hfailure⟩ := takes_of_peek_error hpeek
    use answers, [], htakes
    apply Calling.failed huntil hfailure
  · next hpeek =>
    obtain ⟨rfl, rfl⟩ := Prod.mk.inj h
    obtain ⟨answers, htakes, huntil, hbuffer⟩ := takes_of_peek_none hpeek
    use answers, [], htakes
    apply Calling.border huntil hbuffer
  · next lead middle hpeek =>
    obtain ⟨answers, htakes, hplain⟩ := takes_of_peek_some hpeek
    have hskipped := htakes.trans (takes_skip hpeek)
    rw [List.append_nil, List.nil_append] at hskipped
    split at h
    · obtain ⟨rfl, rfl⟩ := Prod.mk.inj h
      use answers, [lead], hskipped
      apply Calling.char hplain
    · next count hcount =>
      have hlead : Utf8.announced lead = some (([] : List UInt8).length + count) := by simp [hcount]
      split at h
      · next hcomplete =>
        obtain ⟨rfl, rfl⟩ := Prod.mk.inj h
        obtain ⟨answers', taken, htakes', hcalling⟩ :=
          calling_of_completeChar hlead (by simp) hcomplete
        use answers ++ answers', [lead] ++ taken, hskipped.trans htakes'
        apply hcalling.append hplain
      · next hcomplete =>
        obtain ⟨rfl, rfl⟩ := Prod.mk.inj h
        obtain ⟨answers', taken, htakes', hcalling⟩ :=
          calling_of_completeChar hlead (by simp) hcomplete
        use answers ++ answers', [lead] ++ taken, hskipped.trans htakes'
        apply hcalling.append hplain

end ByteStream

end FrontEnd
