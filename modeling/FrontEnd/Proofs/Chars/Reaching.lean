import FrontEnd.Proofs.Chars.Reading
import FrontEnd.Proofs.Log.Leading
import FrontEnd.Proofs.Source.Calling

/-!
# Reaching streams by reading

`stream.Reaches log last` says that one character stream comes of another by reading and by pushing
characters back, whatever is done with them. That is all that happens to the stream behind a token
stream or a window, so what holds of each read holds of everything that is done with these:
`Reaches.calls` says how the source was called meanwhile. A failure is the last answer of the
source; it is kept, and logged once.
-/

namespace FrontEnd

open Text

/-! ### Grave records -/

namespace Threshold

theorem filter_append (threshold : Threshold) (log log' : List Record) :
  filter threshold (log ++ log') = filter threshold log ++ filter threshold log'
  := List.filter_append ..

/-- Only what is as grave as an error passes the strictest threshold. -/
theorem filter_error_of_ne {record : Record} (h : record.severity ≠ .error) :
  filter (some .error) [record] = []
  := by
  cases record with
  | sourceFailed => exact absurd rfl h
  | _ => rfl

end Threshold

/-! ### How answers end a stream -/

open Source

/-- A stream that is at its end stays there and asks nothing. Another one goes on while no answer
is a failure; if it comes to its end, then by an answer that hands out nothing, or by a failure. -/
inductive Ending : Bool → List Answer → Bool → Prop where
  | still : Ending true [] true
  | on {answers : List Answer} (h : failures answers = []) : Ending false answers false
  | ended {front : List Answer} (h : failures front = []) : Ending false (front ++ [.ok []]) true
  | failed {front : List Answer} {failure : Failure} (h : failures front = [])
      (hfailure : failure.isInterruption = false) :
      Ending false (front ++ [.error failure]) true

namespace Ending

variable {before middle after : Bool} {answers answers' : List Answer} {failure : Failure}

theorem trans (h : Ending before answers middle) (h' : Ending middle answers' after) :
  Ending before (answers ++ answers') after
  := by
  cases h with
  | still => apply h'
  | on h =>
    cases h' with
    | on h' => apply Ending.on (by rw [failures_append, h, h']; rfl)
    | ended h' =>
      rw [← List.append_assoc]
      apply Ending.ended (by rw [failures_append, h, h']; rfl)
    | failed h' hfailure =>
      rw [← List.append_assoc]
      apply Ending.failed (by rw [failures_append, h, h']; rfl) hfailure
  | ended h =>
    cases h' with
    | still =>
      rw [List.append_nil]
      apply Ending.ended h
  | failed h hfailure =>
    cases h' with
    | still =>
      rw [List.append_nil]
      apply Ending.failed h hfailure

theorem failures_of_error {front : List Answer} (h : failures front = [])
    (hfailure : failure.isInterruption = false) :
  failures (front ++ [.error failure]) = [failure]
  := by
  rw [failures_append, h]
  simp [failures, Answer.failure?, hfailure]

theorem failures_of_silence {front : List Answer} (h : failures front = []) :
  failures (front ++ [.ok []]) = []
  := by
  rw [failures_append, h]
  rfl

/-- A failure is the last answer, and the only failure. -/
theorem eq_of_mem (h : Ending before answers after) (hmem : failure ∈ failures answers) :
  failures answers = [failure] ∧ after = true ∧ failure.isInterruption = false
    ∧ ∃ front, answers = front ++ [.error failure] ∧ failures front = []
  := by
  cases h with
  | still => simp [failures] at hmem
  | on h => simp [h] at hmem
  | ended h => simp [failures_of_silence h] at hmem
  | @failed front failure' h hfailure =>
    rw [failures_of_error h hfailure] at hmem ⊢
    obtain rfl := List.mem_singleton.mp hmem
    use rfl, rfl, hfailure, front

/-- No failure comes before another one. -/
theorem failures_eq_nil (h : Ending before answers middle) (h' : Ending middle answers' after)
    (hmem : failure ∈ failures answers') :
  failures answers = []
  := by
  cases h' with
  | still => simp [failures] at hmem
  | _ =>
    cases h with
    | on h => apply h

/-- A stream comes to its end by an answer that hands out nothing, or by a failure. -/
theorem last_cases (h : Ending false answers true) :
  answers.getLast? = some (.ok []) ∨ ∃ failure, failures answers = [failure]
  := by
  cases h with
  | ended => simp
  | @failed front failure h hfailure =>
    right
    use failure, failures_of_error h hfailure

/-- Where no failure was kept before, the one that is kept is the only one among the answers. -/
theorem failure_iff {kept : Option Failure} (h : Ending before answers after)
    (hkept : kept = (failures answers).getLast?.or none) :
  kept = some failure ↔ failures answers = [failure]
  := by
  rw [hkept, Option.or_none]
  constructor
  · intro hlast
    apply (h.eq_of_mem (List.mem_of_getLast? hlast)).1
  · intro hfailures
    rw [hfailures]
    rfl

end Ending

/-! ### Reading and pushing back -/

namespace CharStream

/-- One stream comes of the other by reading and pushing back, where these records are left. -/
inductive Reaches : CharStream → List Record → CharStream → Prop where
  | refl (stream : CharStream) : Reaches stream [] stream
  | read {stream middle last : CharStream} {c? : Option Char} {log : List Record}
      (h : stream.read.Yields (c?, middle)) (hrest : Reaches middle log last) :
      Reaches stream (stream.read.log ++ log) last
  | unread {stream middle last : CharStream} {c : Char} {log : List Record}
      (h : stream.unread c = .ok middle) (hrest : Reaches middle log last) :
      Reaches stream log last
  /-- Something else than a failure is logged. -/
  | record {stream last : CharStream} {record : Record} {log : List Record}
      (h : record.severity ≠ .error) (hrest : Reaches stream log last) :
      Reaches stream (record :: log) last

variable {stream middle last next : CharStream} {log log' : List Record}
  {answers answers' : List Answer}

theorem Reaches.trans (h : stream.Reaches log middle) (h' : middle.Reaches log' last) :
  stream.Reaches (log ++ log') last
  := by
  induction h with
  | refl => apply h'
  | read hread _ ih =>
    rw [List.append_assoc]
    apply Reaches.read hread (ih h')
  | unread hunread _ ih => apply Reaches.unread hunread (ih h')
  | record hrecord _ ih => apply Reaches.record hrecord (ih h')

/-- Reading and pushing back as a passage. -/
def reaching : Passage CharStream where
  Goes := Reaches
  refl := .refl
  trans := .trans

/-- The run reaches the stream that is found in its value. -/
abbrev ReachesBy {α : Type} (stream : CharStream) (run : Run α) (view : α → CharStream) : Prop :=
  reaching.Leads stream run view

/-! ### The calls on the way -/

/-- On the way from one stream to the other the source was called with these answers: they decide
whether the stream is at its end then, a failure among them is logged and kept, and nothing else is
logged as an error. -/
structure Calls (stream : CharStream) (answers : List Answer) (log : List Record)
    (next : CharStream) : Prop where
  capacity_eq : next.bytes.capacity = stream.bytes.capacity
  calls : stream.bytes.source.Answers stream.bytes.capacity answers next.bytes.source
  ending : Ending stream.exhausted answers next.exhausted
  logged : Threshold.filter (some .error) log = (failures answers).map .sourceFailed
  failure_eq : next.failure = (failures answers).getLast?.or stream.failure

theorem calls_refl (stream : CharStream) :
  stream.Calls [] [] stream
  := by
  have hending : Ending stream.exhausted [] stream.exhausted := by
    cases stream.exhausted with
    | true => apply Ending.still
    | false => apply Ending.on rfl
  exact ⟨rfl, .refl _, hending, rfl, rfl⟩

theorem Calls.trans (h : stream.Calls answers log middle) (h' : middle.Calls answers' log' last) :
  stream.Calls (answers ++ answers') (log ++ log') last
  := by
  constructor
  · rw [h'.capacity_eq, h.capacity_eq]
  · apply h.calls.trans
    rw [← h.capacity_eq]
    apply h'.calls
  · apply h.ending.trans h'.ending
  · rw [Threshold.filter_append, h.logged, h'.logged, failures_append, List.map_append]
  · rw [h'.failure_eq, h.failure_eq, failures_append, List.getLast?_append, Option.or_assoc]

/-- A stream that is at its end does not call its source. -/
theorem Calls.eq_of_exhausted (h : stream.Calls answers log next) (hended : stream.exhausted) :
  answers = [] ∧ next.bytes.source = stream.bytes.source ∧ next.exhausted
  := by
  have hending := h.ending
  have hcalls := h.calls
  rw [hended] at hending
  generalize next.exhausted = after at hending ⊢
  cases hending with
  | still =>
    generalize next.bytes.source = source at hcalls ⊢
    cases hcalls with
    | refl => simp

/-- Each read calls the source until a character is there or the stream comes to its end. -/
theorem calls_read {c? : Option Char} (h : stream.read.Yields (c?, next)) :
  ∃ answers, stream.Calls answers stream.read.log next
  := by
  obtain ⟨c?', next', log, hread, hcase⟩ := stream.read_cases
  rw [hread] at h ⊢
  obtain ⟨rfl, rfl⟩ := Prod.mk.inj (Except.ok.inj h)
  cases hcase with
  | waiting =>
    use []
    exact { calls_refl stream with }
  | ended => exact ⟨[], calls_refl stream⟩
  | char _ hexhausted hnext =>
    obtain ⟨answers, taken, htakes, hcalling⟩ := ByteStream.calling_of_nextChar hnext
    have hfailures : failures answers = [] := by
      cases hcalling with
      | char hplain => apply hplain.failures_eq
      | within huntil =>
        obtain ⟨front, hfront, rfl⟩ := huntil
        apply Ending.failures_of_silence hfront.failures_eq
    have hending : Ending stream.exhausted answers stream.exhausted := by
      rw [hexhausted]
      apply Ending.on hfailures
    use answers
    exact ⟨htakes.capacity_eq, htakes.calls, hending, by rw [hfailures]; rfl, by rw [hfailures]; rfl⟩
  | silence _ hexhausted hnext =>
    obtain ⟨answers, taken, htakes, hcalling⟩ := ByteStream.calling_of_nextChar hnext
    cases hcalling with
    | border huntil =>
      obtain ⟨front, hfront, rfl⟩ := huntil
      have hfailures := Ending.failures_of_silence hfront.failures_eq
      have hending : Ending stream.exhausted (front ++ [.ok []]) true := by
        rw [hexhausted]
        apply Ending.ended hfront.failures_eq
      use front ++ [.ok []]
      exact ⟨htakes.capacity_eq, htakes.calls, hending, by rw [hfailures]; rfl,
        by rw [hfailures]; rfl⟩
  | @failed failure _ _ hexhausted hnext =>
    obtain ⟨answers, taken, htakes, hcalling⟩ := ByteStream.calling_of_nextChar hnext
    cases hcalling with
    | failed huntil hfailure =>
      obtain ⟨front, hfront, rfl⟩ := huntil
      have hfailures := Ending.failures_of_error hfront.failures_eq hfailure
      have hending : Ending stream.exhausted (front ++ [.error failure]) true := by
        rw [hexhausted]
        apply Ending.failed hfront.failures_eq hfailure
      use front ++ [.error failure]
      exact ⟨htakes.capacity_eq, htakes.calls, hending, by rw [hfailures]; rfl,
        by rw [hfailures]; rfl⟩

theorem calls_unread {c : Char} (h : stream.unread c = .ok next) :
  stream.Calls [] [] next
  := by
  obtain rfl := eq_of_unread h
  exact { calls_refl stream with }

/-- Whatever is read, the source is called one answer after the other. -/
theorem Reaches.calls (h : stream.Reaches log last) :
  ∃ answers, stream.Calls answers log last
  := by
  induction h with
  | refl stream => exact ⟨[], calls_refl stream⟩
  | read hread _ ih =>
    obtain ⟨answers, hanswers⟩ := calls_read hread
    obtain ⟨answers', hanswers'⟩ := ih
    use answers ++ answers'
    apply hanswers.trans hanswers'
  | unread hunread _ ih =>
    obtain ⟨answers, hanswers⟩ := ih
    use answers
    apply (calls_unread hunread).trans hanswers
  | @record stream _ record log hrecord _ ih =>
    obtain ⟨answers, hanswers⟩ := ih
    use answers
    have hlogged : Threshold.filter (some .error) (record :: log)
        = (failures answers).map .sourceFailed := by
      rw [← List.singleton_append, Threshold.filter_append, Threshold.filter_error_of_ne hrecord,
        hanswers.logged, List.nil_append]
    exact { hanswers with logged := hlogged }

/-- Where a stream was read from the beginning, it keeps the failure that its source answered, if
there was one. -/
theorem Reaches.exists_heard {source : Source} {capacity : Nat}
    (h : (ofSource source capacity).Reaches log last) :
  ∃ heard, source.Answers capacity heard last.bytes.source
    ∧ (failures heard = [] ∧ last.failure = none
      ∨ ∃ failure, failures heard = [failure] ∧ last.failure = some failure)
  := by
  obtain ⟨heard, hcalls⟩ := h.calls
  have hfailure : last.failure = (failures heard).getLast? := by
    rw [hcalls.failure_eq]
    apply Option.or_none
  use heard, hcalls.calls
  rw [hfailure]
  cases hfailures : failures heard with
  | nil =>
    left
    exact ⟨rfl, rfl⟩
  | cons failure rest =>
    right
    use failure
    rw [← hfailures, (hcalls.ending.eq_of_mem (hfailures ▸ List.mem_cons_self)).1]
    exact ⟨rfl, rfl⟩

end CharStream

/-! ### Operations -/

/-- Reading and pushing back go along the passage, and so do records of tokens. -/
structure Passage.AllowsReading (passage : Passage CharStream) : Prop where
  read : ∀ stream : CharStream, passage.Leads stream stream.read Prod.snd
  unread : ∀ (stream : CharStream) (c : Char), passage.Leads stream (liftM (stream.unread c)) id
  record : ∀ (stream : CharStream) (record : Record), record.isScanning →
    passage.Goes stream [record] stream

namespace Passage.AllowsReading

variable {passage : Passage CharStream}

/-- Pushing a character back and answering something then. -/
theorem unread_bind {α : Type} (h : passage.AllowsReading) (stream : CharStream) (c : Char)
    {answer : CharStream → α} {view : α → CharStream} (hview : ∀ next, view (answer next) = next) :
  passage.Leads stream (do return answer (← stream.unread c) : Run α) view
  := by
  apply (h.unread stream c).bind
  intro next
  apply leads_done (hview next)

theorem peek (h : passage.AllowsReading) (stream : CharStream) :
  passage.Leads stream stream.peek Prod.snd
  := by
  apply (h.read stream).bind
  rintro ⟨c | c, next⟩
  · apply leads_done rfl
  · apply h.unread_bind next c
    intro _
    rfl

theorem takeWhile (h : passage.AllowsReading) (p : Char → Bool) (stream : CharStream) :
  passage.Leads stream (stream.takeWhile p) Prod.snd
  := by
  fun_induction CharStream.takeWhile p stream with
  | case1 stream ih =>
    apply (h.read stream).attach_bind
    rintro ⟨c | c, next⟩ hread
    · exact leads_done rfl
    · dsimp only
      split
      · apply Leads.map
        apply ih c next hread
      · apply h.unread_bind next c
        intro _
        rfl

end Passage.AllowsReading

theorem CharStream.reaching_allowsReading :
  reaching.AllowsReading
  := by
  constructor
  · intro stream
    constructor
    constructor
    rintro ⟨c?, next⟩ hread
    have hreaches := Reaches.read hread (.refl next)
    rw [List.append_nil] at hreaches
    apply hreaches
  · intro stream c
    apply Passage.leads_lift
    intro next hunread
    exact .unread hunread (.refl next)
  · intro stream record hrecord
    apply Reaches.record _ (.refl stream)
    cases record with
    | sourceFailed => simp [Record.isScanning] at hrecord
    | _ => simp [Record.severity]

end FrontEnd
