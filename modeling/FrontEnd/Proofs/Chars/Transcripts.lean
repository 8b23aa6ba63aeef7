import FrontEnd.Proofs.Chars.Decks

/-!
# Transcripts of character streams

A character stream answers as a list of characters does, whatever is done with it
(`session_of_list`). The list begins as the characters that are read before the end. Reading takes
its head, peeking looks at its head, and pushing a character back puts it in front. That is refused
exactly where a character is waiting: where the last step that came to a character did not read it
away, but peeked or pushed it back.
-/

namespace FrontEnd

namespace CharStream

/-- A step and the answer to it. -/
abbrev Entry : Type := Step × Answer

/-- Whether a step came to a character: one was found, or was pushed back. -/
def succeeds : Entry → Bool
  | (.read, .char c?) => c?.isSome
  | (.peek, .char c?) => c?.isSome
  | (.unread _, .pushed) => true
  | _ => false

/-- Whether a step that succeeds leaves its character waiting. -/
def leavesWaiting : Entry → Bool
  | (.peek, _) => true
  | (.unread _, _) => true
  | _ => false

/-- Whether a character is waiting after a transcript: the last step that succeeded left it. -/
def isWaiting (transcript : List Entry) : Bool :=
  (transcript.filter succeeds).getLast?.any leavesWaiting

/-- What is left of a list of characters after a step that got this answer. -/
def left (cs : List Char) : Entry → List Char
  | (.read, _) => cs.tail
  | (.unread c, .pushed) => c :: cs
  | _ => cs

/-- The answer is that of the list: its head, or that a character is pushed back, which is refused
where one is waiting, and that is never so where the list is empty. The failure is not of the
list. -/
inductive Answered (cs : List Char) (waiting : Bool) : Entry → Prop where
  | read : Answered cs waiting (.read, .char cs.head?)
  | peek : Answered cs waiting (.peek, .char cs.head?)
  | pushed {c : Char} (h : waiting = false) : Answered cs waiting (.unread c, .pushed)
  | refused {c : Char} (h : waiting) (hne : cs ≠ []) : Answered cs waiting (.unread c, .refused)
  | failure {failure? : Option Failure} : Answered cs waiting (.takeFailure, .failure failure?)

theorem isWaiting_concat (transcript : List Entry) (entry : Entry) :
  isWaiting (transcript ++ [entry])
    = if succeeds entry then leavesWaiting entry else isWaiting transcript
  := by
  rw [isWaiting, List.filter_append]
  split
  · next h => simp [h]
  · next h => simp [h, isWaiting]

end CharStream

/-! ### Decks as lists -/

namespace Deck

open CharStream

variable {deck : Deck} {cs : List Char} {past : List Entry}

/-- The characters of a deck, the one that was put back first. -/
def text (deck : Deck) : List Char :=
  deck.waiting.toList ++ deck.chars

theorem draw_fst (deck : Deck) :
  deck.draw.1 = deck.text.head?
  := by
  obtain ⟨_ | c, _ | ⟨d, ds⟩, fate, failure⟩ := deck
  all_goals rfl

theorem draw_snd (deck : Deck) :
  deck.draw.2.waiting = none ∧ deck.draw.2.chars = deck.text.tail
  := by
  obtain ⟨_ | c, _ | ⟨d, ds⟩, fate, failure⟩ := deck
  all_goals exact ⟨rfl, rfl⟩

/-- The deck is what the steps of a transcript left of a list. -/
structure LeftBy (deck : Deck) (cs : List Char) (past : List Entry) : Prop where
  text_eq : deck.text = past.foldl left cs
  waiting_eq : deck.waiting.isSome = isWaiting past

/-- Nothing is waiting where no character is left. -/
theorem LeftBy.isWaiting_eq (h : deck.LeftBy cs past) (hnil : deck.text = []) :
  isWaiting past = false
  := by
  obtain ⟨hnone, -⟩ := List.append_eq_nil_iff.mp hnil
  rw [← h.waiting_eq, Option.toList_eq_nil_iff.mp hnone]
  rfl

/-- The deck answers to a step as the list does. -/
theorem LeftBy.answered (h : deck.LeftBy cs past) (step : Step) :
  Answered (past.foldl left cs) (isWaiting past) (step, (deck.respond step).1)
  := by
  rw [← h.text_eq, ← h.waiting_eq]
  cases step with
  | read =>
    rw [respond, draw_fst]
    exact .read
  | peek =>
    rw [respond, draw_fst]
    exact .peek
  | unread c =>
    obtain ⟨_ | c', chars, fate, failure⟩ := deck
    · exact .pushed rfl
    · exact .refused rfl (List.cons_ne_nil c' chars)
  | takeFailure => exact .failure

/-- The deck after a step is what the step leaves of the list. -/
theorem LeftBy.respond (h : deck.LeftBy cs past) (step : Step) :
  (deck.respond step).2.LeftBy cs (past ++ [(step, (deck.respond step).1)])
  := by
  obtain ⟨hnone, htail⟩ := deck.draw_snd
  have hend : deck.text.head? = none → isWaiting past = false := by
    intro hhead
    apply h.isWaiting_eq (List.head?_eq_none_iff.mp hhead)
  constructor
  · rw [List.foldl_concat, ← h.text_eq]
    cases step with
    | read => rw [Deck.respond, text, hnone, htail]; rfl
    | peek =>
      rw [Deck.respond, text, htail, draw_fst]
      cases deck.text with
      | nil => rfl
      | cons c cs => rfl
    | unread c =>
      obtain ⟨_ | c', chars, fate, failure⟩ := deck
      · rfl
      · rfl
    | takeFailure => rfl
  · rw [isWaiting_concat]
    cases step with
    | read =>
      rw [Deck.respond, draw_fst, hnone]
      cases hhead : deck.text.head? with
      | none => exact (hend hhead).symm
      | some c => rfl
    | peek =>
      rw [Deck.respond, draw_fst]
      cases hhead : deck.text.head? with
      | none => exact (hend hhead).symm
      | some c => rfl
    | unread c =>
      have hwaiting := h.waiting_eq
      obtain ⟨_ | c', chars, fate, failure⟩ := deck
      · rfl
      · exact hwaiting
    | takeFailure => exact h.waiting_eq

/-- In a transcript every answer is that of what is left of the list there. -/
theorem LeftBy.transcript (h : deck.LeftBy cs past) (steps : List Step) :
  ∀ before entry after, deck.transcript steps = before ++ entry :: after →
    Answered ((past ++ before).foldl left cs) (isWaiting (past ++ before)) entry
  := by
  induction steps generalizing deck past with
  | nil => simp [Deck.transcript]
  | cons step steps ih =>
    rintro (_ | ⟨first, before⟩) entry after hsplit
    · obtain ⟨rfl, -⟩ := List.cons.inj hsplit
      rw [List.append_nil]
      apply h.answered
    · obtain ⟨rfl, hrest⟩ := List.cons.inj hsplit
      have hanswered := ih (h.respond step) before entry after hrest
      rwa [List.append_assoc] at hanswered

end Deck

/-- A character stream refines a list of characters. The list begins as the characters that are read
before the end; whatever steps are done one after the other, every answer is that of what the
steps before it left of the list. -/
theorem CharStream.session_of_list (source : Source) (capacity : Nat) :
  ∃ cs last, (ofSource source capacity).readAll.Yields (cs, last)
    ∧ ∀ steps, ∃ transcript last,
      (Run.session respond steps (ofSource source capacity)).Yields (transcript, last)
      ∧ ∀ before entry after, transcript = before ++ entry :: after →
        Answered (before.foldl left cs) (isWaiting before) entry
  := by
  obtain ⟨last, hread, -⟩ := (ofSource source capacity).gives_text.readAll
  use (ofSource source capacity).text, last, hread
  intro steps
  obtain ⟨last, hsession⟩ := (ofSource source capacity).session_deck steps
  use (ofSource source capacity).deck.transcript steps, last, hsession
  have hstart : (ofSource source capacity).deck.LeftBy (ofSource source capacity).text [] :=
    ⟨rfl, rfl⟩
  apply hstart.transcript

end FrontEnd
