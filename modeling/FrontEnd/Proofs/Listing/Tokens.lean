import FrontEnd.Listing.Tokens
import FrontEnd.Proofs.Listing.Writing
import FrontEnd.Proofs.Token.Reaching
import FrontEnd.Proofs.Token.Scanning

/-!
# Token listings

A token is written as soon as it is read, and yet a listing comes to the same as if all tokens were
read first and their lines then written at once (`TokenStream.warns_listLines`): the sink is left
with as much of these lines as it takes. A sink that is full goes before a source that fails, and a
source that fails before the number of illegal tokens (`listTokens_outcome`).
-/

namespace FrontEnd

open Text

/-! ### Lines -/

namespace Token

/-- The lines of tokens, one after the other. -/
def lines (ts : List Token) : String :=
  String.join (ts.map line)

/-- A line is the name of the kind, a space and the literal, and ends in a newline. -/
theorem lines_eq (ts : List Token) :
  lines ts = String.join (ts.map fun token => token.kind.name ++ " " ++ token.literal ++ "\n")
  := rfl

/-- The number of illegal tokens. -/
def illegalCount (ts : List Token) : Nat :=
  ts.countP fun token => token.kind = .illegal

theorem illegalCount_cons (token : Token) (ts : List Token) :
  illegalCount (token :: ts) = illegalCount [token] + illegalCount ts
  := by rw [illegalCount, ← List.singleton_append, List.countP_append, illegalCount, illegalCount]

theorem illegalCount_singleton (token : Token) :
  illegalCount [token] = if token.kind = .illegal then 1 else 0
  := by simp [illegalCount, List.countP_singleton]

end Token

/-! ### Warnings -/

/-- The warnings in a log. -/
def warnings (log : List Record) : List Record :=
  log.filter fun record => record.severity = .warn

theorem warnings_append (log log' : List Record) :
  warnings (log ++ log') = warnings log ++ warnings log'
  := List.filter_append ..

/-- Reading warns of nothing. -/
theorem warnings_eq_nil {log : List Record} (h : ∀ record ∈ log, record.isReading) :
  warnings log = []
  := by
  apply List.filter_eq_nil_iff.mpr
  intro record hmem
  have hreading := h record hmem
  cases record
  all_goals simp_all [Record.isReading, Record.isScanning, Record.severity]

namespace Run

variable {α β : Type} {run : Run α} {name : String} {a : α} {b : β} {count count' : Nat}

/-- The run comes to this value, and it warns of so many illegal tokens and of nothing else. -/
structure Warns (run : Run α) (name : String) (count : Nat) (a : α) : Prop where
  yields : run.Yields a
  warnings_eq : warnings run.log = List.replicate count (.illegalToken name)

theorem warns_pure (a : α) :
  (pure a : Run α).Warns name 0 a
  := ⟨rfl, rfl⟩

theorem Warns.bind {next : α → Run β} (h : run.Warns name count a)
    (hnext : (next a).Warns name count' b) :
  (run >>= next).Warns name (count + count') b
  := by
  use h.yields.bind hnext.yields
  rw [log_bind h.yields, warnings_append, h.warnings_eq, hnext.warnings_eq,
    List.replicate_append_replicate]

/-- After a run that warns of nothing, the next one decides what is warned of. -/
theorem Warns.attach_bind {next : { a : α // run.Yields a } → Run β} (h : run.Warns name 0 a)
    (hnext : (next ⟨a, h.yields⟩).Warns name count b) :
  (run.attach >>= next).Warns name count b
  := by
  have hattach : run.attach.Warns name 0 ⟨a, h.yields⟩ := by
    rw [h.yields.attach_eq]
    exact ⟨rfl, h.warnings_eq⟩
  rw [← Nat.zero_add count]
  apply hattach.bind hnext

theorem Warns.bind_silent {next : α → Run β} (h : run.Warns name count a)
    (hnext : (next a).Warns name 0 b) :
  (run >>= next).Warns name count b
  := h.bind hnext

/-- An illegal token is warned of. -/
theorem warns_illegal {next : Unit → Run β} (token : Token) (h : (next ()).Warns name count b) :
  (if token.kind = .illegal then tell (.illegalToken name) >>= next else next ()).Warns name
    (Token.illegalCount [token] + count) b
  := by
  rw [Token.illegalCount_singleton]
  split
  · have htell : (tell (.illegalToken name)).Warns name 1 () := ⟨rfl, rfl⟩
    apply htell.bind h
  · rwa [Nat.zero_add]

end Run

namespace TokenStream

variable {stream rest last : TokenStream} {token : Token} {ts : List Token} {failure : Failure}
  {name : String} {illegal count : Nat} {out : Sink}
  {answer : Except Report (Nat × TokenStream) × Sink}

/-! ### The lines of a stream -/

theorem warns_next (h : stream.next.Yields (token, rest)) :
  stream.next.Warns name 0 (token, rest)
  := ⟨h, warnings_eq_nil (isReading_of_next h)⟩

/-- At the end nothing is written. -/
theorem warns_listLines_end (h : stream.next.Yields (token, rest)) (hend : token.isEnd = true) :
  (stream.listLines name illegal out).Warns name 0 (.ok (illegal, rest), out)
  := by
  rw [listLines]
  apply (warns_next h).attach_bind
  simp only [hend, dite_true]
  apply Run.warns_pure

/-- Another token is written on its line, if the sink takes it, and counted if it is illegal. -/
theorem warns_listLines_token (h : stream.next.Yields (token, rest)) (hend : token.isEnd = false)
    (hrest : (if (out.write token.line).1 then
        rest.listLines name (illegal + Token.illegalCount [token]) (out.write token.line).2
      else pure (.error .sinkFull, (out.write token.line).2) : Run _).Warns name count answer) :
  (stream.listLines name illegal out).Warns name (Token.illegalCount [token] + count) answer
  := by
  have hcount : illegal + Token.illegalCount [token]
      = if token.kind = .illegal then illegal + 1 else illegal := by
    rw [Token.illegalCount_singleton]
    split
    · rfl
    · rfl
  rw [hcount] at hrest
  rw [listLines]
  apply (warns_next h).attach_bind
  simp only [hend, Bool.false_eq_true, dite_false]
  apply Run.warns_illegal token hrest

/-- The lines are written as if the tokens had been there at once. -/
theorem warns_listLines (h : stream.toList.Yields (ts, last)) (name : String) (illegal : Nat)
    (out : Sink) :
  ∃ count, (stream.listLines name illegal out).Warns name count
      (if (out.writeAll (ts.map Token.line)).1 then .ok (illegal + Token.illegalCount ts, last)
        else .error .sinkFull, (out.writeAll (ts.map Token.line)).2)
    ∧ ((out.writeAll (ts.map Token.line)).1 = true → count = Token.illegalCount ts)
  := by
  -- Listing and collecting take the same tokens one by one, so the induction is on these.
  induction ts generalizing stream illegal out with
  | nil =>
    obtain ⟨token, rest, hnext, ⟨hend, -, rfl⟩ | ⟨-, us, hts, -⟩⟩ := toList_cases h
    · use 0
      constructor
      · apply warns_listLines_end hnext hend
      · intro _
        rfl
    · simp at hts
  | cons token ts ih =>
    obtain ⟨token', rest, hnext, ⟨-, hts, -⟩ | ⟨hend, us, hts, hrest⟩⟩ := toList_cases h
    · simp at hts
    obtain ⟨rfl, rfl⟩ := List.cons.inj hts
    rw [List.map_cons, Sink.writeAll]
    generalize hwrite : out.write token.line = written
    obtain ⟨_ | _, out'⟩ := written
    · use Token.illegalCount [token] + 0
      constructor
      · apply warns_listLines_token hnext hend
        rw [hwrite]
        apply Run.warns_pure
      · simp
    · obtain ⟨count, hlist, hcount⟩ := ih hrest (illegal + Token.illegalCount [token]) out'
      rw [Token.illegalCount_cons, ← Nat.add_assoc]
      use Token.illegalCount [token] + count
      constructor
      · apply warns_listLines_token hnext hend
        rw [hwrite]
        apply hlist
      · intro hwhole
        rw [hcount hwhole]

/-! ### The listing of a stream -/

/-- A sink that does not take the lines whole stops the listing. -/
theorem yields_list_of_full (h : stream.toList.Yields (ts, last)) (name : String) (out : Sink)
    (hfull : (out.write (Token.lines ts)).1 = false) :
  (stream.list name out).Yields (.error .sinkFull, (out.write (Token.lines ts)).2)
  := by
  obtain ⟨count, hlist, -⟩ := warns_listLines h name 0 out
  rw [Sink.writeAll_eq_write, ← Token.lines, hfull] at hlist
  apply hlist.yields.bind
  rfl

/-- If the sink takes them whole, a source that failed is reported. -/
theorem yields_list_of_failed (h : stream.toList.Yields (ts, last)) (name : String) (out : Sink)
    (hwhole : (out.write (Token.lines ts)).1 = true)
    (hfailure : last.chars.failure = some failure) :
  (stream.list name out).Yields (.error (.notRead name failure), (out.write (Token.lines ts)).2)
  := by
  obtain ⟨count, hlist, -⟩ := warns_listLines h name 0 out
  rw [Sink.writeAll_eq_write, ← Token.lines, hwhole] at hlist
  apply hlist.yields.bind
  simp only [if_true, takeFailure, CharStream.takeFailure, hfailure]
  rfl

/-- Else the illegal tokens are counted, and each of them was warned of. -/
theorem warns_list (h : stream.toList.Yields (ts, last)) (name : String) (out : Sink)
    (hwhole : (out.write (Token.lines ts)).1 = true) (hfailure : last.chars.failure = none) :
  (stream.list name out).Warns name (Token.illegalCount ts)
    (.ok (Token.illegalCount ts), (out.write (Token.lines ts)).2)
  := by
  obtain ⟨count, hlist, hcount⟩ := warns_listLines h name 0 out
  rw [Sink.writeAll_eq_write, ← Token.lines, hwhole, Nat.zero_add] at hlist
  rw [Sink.writeAll_eq_write] at hcount
  obtain rfl := hcount hwhole
  apply hlist.bind_silent
  simp only [if_true, takeFailure, CharStream.takeFailure, hfailure]
  exact ⟨rfl, rfl⟩

end TokenStream

/-! ### The listing of a source -/

/-- A listing writes a line for every token, with the name of its kind and its literal, as far as
the sink takes them. A sink that does not take them whole stops it, whatever the source does then.
Otherwise the failure of the source is reported, and without one the number of illegal tokens is
answered, each of which was warned of. -/
theorem listTokens_outcome (name : String) (source : Source) (limit : Option Nat) :
  ∃ ts last heard result out,
    (TokenStream.ofSource source).toList.Yields (ts, last)
    ∧ source.Answers CharStream.defaultCapacity heard last.chars.bytes.source
    ∧ (source.listTokens name (.ofLimit limit)).Yields (result, out)
    ∧ let lines := Utf8.encode (String.join (ts.map fun token =>
        token.kind.name ++ " " ++ token.literal ++ "\n"))
      out.written.toList = Sink.upTo limit lines
      ∧ (Sink.Exceeds limit lines → result = .error .sinkFull)
      ∧ (¬ Sink.Exceeds limit lines →
          (∀ failure ∈ Source.failures heard, ∃ report, result = .error report
            ∧ report.chain = ["could not read " ++ name, failure.message])
          ∧ (Source.failures heard = [] → result = .ok (Token.illegalCount ts)
            ∧ warnings (source.listTokens name (.ofLimit limit)).log
              = List.replicate (Token.illegalCount ts) (.illegalToken name)))
  := by
  simp only [← Token.lines_eq]
  obtain ⟨ts, last, -, -, hlist⟩ := (TokenStream.ofSource source).exists_yields_toList
  obtain ⟨heard, hheard, hending⟩ :=
    ((TokenStream.ofSource source).reachesBy_toList.goes hlist).exists_heard
  have hwritten := Sink.written_ofLimit limit (Token.lines ts)
  by_cases hfull : Sink.Exceeds limit (Utf8.encode (Token.lines ts))
  · have hyields := TokenStream.yields_list_of_full hlist name _ (Sink.write_of_exceeds hfull)
    refine ⟨ts, last, heard, _, _, hlist, hheard, hyields, hwritten, fun _ => rfl, ?_⟩
    exact absurd hfull
  have hwhole := Sink.write_of_not_exceeds hfull
  rcases hending with ⟨hnone, hkept⟩ | ⟨failure, hone, hkept⟩
  · have hwarns := TokenStream.warns_list hlist name _ hwhole hkept
    refine ⟨ts, last, heard, _, _, hlist, hheard, hwarns.yields, hwritten, (absurd · hfull), ?_⟩
    intro _
    rw [hnone]
    constructor
    · simp
    · intro _
      use rfl
      apply hwarns.warnings_eq
  · have hyields := TokenStream.yields_list_of_failed hlist name _ hwhole hkept
    refine ⟨ts, last, heard, _, _, hlist, hheard, hyields, hwritten, (absurd · hfull), ?_⟩
    intro _
    rw [hone]
    constructor
    · rw [List.forall_mem_singleton]
      use .notRead name failure, rfl
      rfl
    · simp

end FrontEnd
