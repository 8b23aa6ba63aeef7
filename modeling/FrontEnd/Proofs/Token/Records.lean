import FrontEnd.Proofs.Log.Ensuring
import FrontEnd.Proofs.Token.Lexeme
import FrontEnd.Token.Stream

/-!
# Records of tokens

Taking a token from a stream leaves one record of the token, the end token too, and before it
the record of a stray character exactly if the token is illegal (`next_recorded`). So the log
tells how often a stream was asked for its next token, and which tokens these were.
-/

namespace FrontEnd

open Text

/-! ### What runs log about tokens -/

namespace Run

variable {α β : Type} {run : Run α} {P : α → List Record → Prop}

/-- The value that the run comes to and what it logs about tokens satisfy the condition. -/
structure Scanning (run : Run α) (P : α → List Record → Prop) : Prop where
  ensures : run.Ensures fun a log => P a (log.filter Record.isScanning)

/-- The run logs nothing about tokens. -/
abbrev Quiet (run : Run α) : Prop :=
  run.Scanning fun _ log => log = []

theorem scanning_pure {a : α} (h : P a []) :
  (pure a : Run α).Scanning P
  := ⟨ensures_pure h⟩

theorem quiet_pure (a : α) :
  (pure a : Run α).Quiet
  := scanning_pure rfl

theorem scanning_tell {record : Record} {P : Unit → List Record → Prop}
    (h : P () ([record].filter Record.isScanning)) :
  (tell record).Scanning P
  := ⟨ensures_tell h⟩

theorem scanning_lift {outcome : Except Fault α} (h : ∀ a, outcome = .ok a → P a []) :
  (liftM outcome : Run α).Scanning P
  := ⟨ensures_lift h⟩

theorem quiet_lift (outcome : Except Fault α) :
  (liftM outcome : Run α).Quiet
  := scanning_lift fun _ _ => rfl

theorem Scanning.bind {next : α → Run β} {Q : β → List Record → Prop} (h : run.Scanning P)
    (hnext : ∀ a log, P a log → (next a).Scanning fun b log' => Q b (log ++ log')) :
  (run >>= next).Scanning Q
  := by
  constructor
  apply h.ensures.bind
  intro a log ha
  apply (hnext a _ ha).ensures.mono
  intro b log' hb
  rwa [List.filter_append]

theorem Scanning.attach_bind {next : { a : α // run.Yields a } → Run β}
    {Q : β → List Record → Prop} (h : run.Scanning P)
    (hnext : ∀ a ha log, P a log → (next ⟨a, ha⟩).Scanning fun b log' => Q b (log ++ log')) :
  (run.attach >>= next).Scanning Q
  := by
  constructor
  apply h.ensures.attach_bind
  intro a ha log hlog
  apply (hnext a ha _ hlog).ensures.mono
  intro b log' hb
  rwa [List.filter_append]

theorem Scanning.map {f : α → β} {Q : β → List Record → Prop}
    (h : run.Scanning fun a log => Q (f a) log) :
  (f <$> run).Scanning Q
  := by
  constructor
  apply h.ensures.map

/-- After a run that logs nothing about tokens, the next one decides what is logged. -/
theorem Quiet.bind {next : α → Run β} {Q : β → List Record → Prop} (h : run.Quiet)
    (hnext : ∀ a, (next a).Scanning Q) :
  (run >>= next).Scanning Q
  := by
  apply Scanning.bind h
  rintro a _ rfl
  apply hnext

end Run

namespace CharStream

open Run

theorem quiet_read (stream : CharStream) :
  stream.read.Quiet
  := by
  unfold CharStream.read
  repeat' split
  all_goals exact ⟨⟨fun _ _ => rfl⟩⟩

/-- Pushing a character back and answering something then. -/
theorem quiet_unread {α : Type} (stream : CharStream) (c : Char) (answer : CharStream → α) :
  (do return answer (← stream.unread c) : Run α).Quiet
  := by
  apply (quiet_lift _).bind
  intro next
  apply quiet_pure

theorem quiet_peek (stream : CharStream) :
  stream.peek.Quiet
  := by
  apply stream.quiet_read.bind
  rintro ⟨c | c, next⟩
  · apply quiet_pure
  · apply next.quiet_unread

theorem quiet_takeWhile (p : Char → Bool) (stream : CharStream) :
  (stream.takeWhile p).Quiet
  := by
  fun_induction CharStream.takeWhile p stream with
  | case1 stream ih =>
    apply stream.quiet_read.attach_bind
    rintro ⟨c | c, next⟩ hread _ rfl
    · apply quiet_pure
    · dsimp only
      split
      · apply Scanning.map
        apply ih c next hread
      · apply next.quiet_unread

theorem quiet_fraction (stream : CharStream) :
  stream.fraction.Quiet
  := by
  apply stream.quiet_read.bind
  rintro ⟨c | c, next⟩
  · apply quiet_pure
  · dsimp only
    split
    · apply (next.quiet_takeWhile _).bind
      intro _
      apply quiet_pure
    · apply next.quiet_unread

end CharStream

/-! ### The record of a token -/

/-- The records say that this token was taken. An illegal token has its character before it. -/
inductive Recorded : Token → List Record → Prop where
  | legal {token : Token} (h : token.kind ≠ .illegal) : Recorded token [.scanned token]
  | stray {token : Token} (h : token.kind = .illegal) (c : Char) :
      Recorded token [.strayChar c, .scanned token]

namespace CharStream

/-- What the run logs about tokens is the record of its token, but for the last part. -/
abbrev Records (run : Run (Token × CharStream)) : Prop :=
  run.Scanning fun (token, _) log => Recorded token (log ++ [.scanned token])

variable {kind : Kind} {literal : String} {token : Token} {chars : CharStream}

theorem records_pure (h : token.kind ≠ .illegal) :
  Records (pure (token, chars))
  := Run.scanning_pure (.legal h)

theorem records_make (h : kind ≠ .illegal) :
  Records do return (← Token.make kind literal, chars)
  := by
  have hmake : (liftM (Token.make kind literal) : Run Token).Scanning
      fun token log => token.kind = kind ∧ log = [] := by
    apply Run.scanning_lift
    intro token hmake
    obtain ⟨-, rfl⟩ := Token.make_eq_ok_iff.mp hmake
    use rfl
  apply hmake.bind
  rintro token _ ⟨rfl, rfl⟩
  apply records_pure h

theorem records_wordAfter (first : Char) (chars : CharStream) :
  Records (chars.wordAfter first)
  := by
  apply (chars.quiet_takeWhile _).bind
  intro _
  apply records_make (Kind.ofWord_ne_illegal _)

theorem records_numberAfter (first : Char) (chars : CharStream) :
  Records (chars.numberAfter first)
  := by
  apply (chars.quiet_takeWhile _).bind
  rintro ⟨whole, middle⟩
  apply middle.quiet_fraction.bind
  intro _
  apply records_make (by decide)

/-- Where both tokens are there, one of them is taken. -/
theorem records_equalsAfter {one two : Kind} {alone both : Token} (chars : CharStream)
    (hone : Token.fixed? one = some alone) (htwo : Token.fixed? two = some both)
    (halone : alone.kind ≠ .illegal) (hboth : both.kind ≠ .illegal) :
  Records (chars.equalsAfter one two)
  := by
  apply chars.quiet_peek.bind
  rintro ⟨c?, middle⟩
  rw [hone, htwo]
  split
  · apply (CharStream.quiet_read _).bind
    intro _
    apply records_pure hboth
  · apply records_pure halone

theorem records_tokenAfter (first : Char) (chars : CharStream) :
  Records (chars.tokenAfter first)
  := by
  unfold CharStream.tokenAfter
  split
  · apply chars.records_equalsAfter rfl rfl (by decide) (by decide)
  split
  · apply chars.records_equalsAfter rfl rfl (by decide) (by decide)
  split
  · apply records_wordAfter
  split
  · apply records_numberAfter
  split
  · next kind hkind =>
    apply records_make (Kind.kind_of_mem_symbols _ (Kind.mem_symbols_of_ofSymbol? hkind)).1
  · apply Run.Scanning.bind (P := fun _ log => log = [.strayChar first]) (Run.scanning_tell rfl)
    rintro _ _ rfl
    apply Run.scanning_pure (.stray rfl first)

theorem records_nextToken (chars : CharStream) :
  Records chars.nextToken
  := by
  apply chars.quiet_read.bind
  rintro ⟨c | c, middle⟩
  · apply records_pure (by decide)
  · apply records_tokenAfter

end CharStream

namespace TokenStream

/-- Taking a token leaves the record of this token. -/
theorem next_recorded (stream : TokenStream) :
  stream.next.Scanning fun (token, _) log => Recorded token log
  := by
  apply (stream.chars.quiet_takeWhile _).bind
  rintro ⟨_, chars⟩
  apply chars.records_nextToken.bind
  rintro ⟨token, last⟩ log hlog
  apply Run.Scanning.bind (P := fun _ log => log = [.scanned token]) (Run.scanning_tell rfl)
  rintro _ _ rfl
  apply Run.scanning_pure
  rwa [List.append_nil]

end TokenStream

/-! ### The tokens in a log -/

/-- The token that a record says was taken. -/
def Record.scanned? : Record → Option Token
  | scanned token => some token
  | _ => none

/-- The tokens that were taken, in order. -/
def scannedTokens (log : List Record) : List Token :=
  log.filterMap Record.scanned?

theorem scannedTokens_append (log log' : List Record) :
  scannedTokens (log ++ log') = scannedTokens log ++ scannedTokens log'
  := List.filterMap_append

theorem scannedTokens_filter (log : List Record) :
  scannedTokens (log.filter Record.isScanning) = scannedTokens log
  := by
  rw [scannedTokens, List.filterMap_filter]
  congr 1
  funext record
  cases record <;> rfl

theorem Recorded.scannedTokens_eq {token : Token} {log : List Record} (h : Recorded token log) :
  scannedTokens log = [token]
  := by cases h <;> rfl

/-- Taking a token is logged as taking this one token. -/
theorem TokenStream.scannedTokens_next {stream rest : TokenStream} {token : Token}
    (h : stream.next.Yields (token, rest)) :
  scannedTokens stream.next.log = [token]
  := by
  rw [← scannedTokens_filter]
  apply (stream.next_recorded.ensures.of_yields _ h).scannedTokens_eq

end FrontEnd
