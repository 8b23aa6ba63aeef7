import FrontEnd.Proofs.Listing.Writing
import FrontEnd.Proofs.Tree.Reaching
import FrontEnd.Proofs.Tree.Rendering
import FrontEnd.Proofs.Tree.Viewing

/-!
# Tree listings

A source is read to its end before anything is written: if it fails, both sinks are left as they
were. Otherwise the tree is written, and the diagnostics after it, unless the sink of the tree was
full (`listTree_outcome`). What is written of a tree tells the program, and what is written of the
diagnostics tells each of them.
-/

namespace FrontEnd

open Text

/-! ### Lines -/

/-- A program is spread over lines, and the last one ends in a newline. -/
theorem Program.lines_eq (program : Program) :
  program.lines = program.form.spread ++ "\n"
  := rfl

theorem Program.lines_injective :
  Function.Injective Program.lines
  := by
  intro program program' h
  rw [lines_eq, lines_eq] at h
  have hforms := program.tells_form program' (.spread 0)
  apply (hforms.before "\n".toList).of_eq
  rw [← String.toList_append, ← String.toList_append]
  exact congrArg String.toList h

namespace Diagnostic

/-- The lines of diagnostics, one after the other. -/
def lines (name : String) (diagnostics : Array Diagnostic) : String :=
  String.join (diagnostics.toList.map (line name))

/-- A line is the name of the source and the message, and ends in a newline. -/
theorem lines_eq (name : String) (diagnostics : Array Diagnostic) :
  lines name diagnostics = String.join (diagnostics.toList.map fun diagnostic =>
    name ++ ": error: " ++ diagnostic.message ++ "\n")
  := rfl

theorem toList_line (name : String) (diagnostic : Diagnostic) :
  (line name diagnostic).toList
    = (name ++ ": error: ").toList ++ (diagnostic.message.toList ++ ['\n'])
  := by
  have hnewline : "\n".toList = ['\n'] := rfl
  rw [line, String.toList_append, String.toList_append, hnewline, List.append_assoc]

theorem lines_injective (name : String) :
  Function.Injective (lines name)
  := by
  have hreveals : ∀ diagnostic diagnostic', Reveals (line name diagnostic).toList
      (line name diagnostic').toList (diagnostic = diagnostic') := by
    intro diagnostic diagnostic'
    rw [toList_line, toList_line]
    exact ((diagnostic.reveals_message diagnostic').before _).after _
  have hne : ∀ diagnostic, (line name diagnostic).toList ≠ [] := by
    intro diagnostic
    simp [toList_line]
  intro diagnostics diagnostics' h
  apply Array.toList_inj.mp
  apply flatMap_injective hreveals hne
  have hchars := congrArg String.toList h
  rwa [lines, lines, String.toList_join, String.toList_join, List.flatMap_map, List.flatMap_map]
    at hchars

end Diagnostic

/-! ### The listing of a source -/

namespace Source

variable {source : Source} {program : Program} {window : Window} {failure : Failure}

/-- A source that failed is reported, and nothing is written. -/
theorem yields_listTree_of_failed (h : source.parse.Yields (program, window)) (name : String)
    (out notes : Sink) (hfailure : window.tokens.chars.failure = some failure) :
  (source.listTree name out notes).Yields (.error (.notRead name failure), out, notes)
  := by
  apply h.bind
  simp only [Window.takeFailure, TokenStream.takeFailure, CharStream.takeFailure, hfailure]
  rfl

/-- A sink that does not take the tree whole stops the listing before the diagnostics. -/
theorem yields_listTree_of_full (h : source.parse.Yields (program, window)) (name : String)
    (out notes : Sink) (hfailure : window.tokens.chars.failure = none)
    (hfull : (out.write program.lines).1 = false) :
  (source.listTree name out notes).Yields
    (.error .sinkFull, (out.write program.lines).2, notes)
  := by
  apply h.bind
  simp only [Window.takeFailure, TokenStream.takeFailure, CharStream.takeFailure, hfailure]
  apply Run.tell_bind
  generalize out.write program.lines = written at hfull ⊢
  obtain ⟨whole, out'⟩ := written
  obtain rfl : whole = false := hfull
  rfl

/-- After the tree the diagnostics are written, and it is answered how many there are, unless their
sink does not take them whole. -/
theorem yields_listTree (h : source.parse.Yields (program, window)) (name : String)
    (out notes : Sink) (hfailure : window.tokens.chars.failure = none)
    (hwhole : (out.write program.lines).1 = true) :
  (source.listTree name out notes).Yields
    (if (notes.write (Diagnostic.lines name window.diagnostics)).1 then
        .ok window.diagnostics.size
      else .error .sinkFull,
      (out.write program.lines).2, (notes.write (Diagnostic.lines name window.diagnostics)).2)
  := by
  apply h.bind
  simp only [Window.takeFailure, TokenStream.takeFailure, CharStream.takeFailure, hfailure]
  apply Run.tell_bind
  rw [Diagnostic.lines, ← Sink.writeAll_eq_write]
  generalize out.write program.lines = written at hwhole ⊢
  obtain ⟨whole, out'⟩ := written
  obtain rfl : whole = true := hwhole
  dsimp only
  generalize notes.writeAll _ = noted
  obtain ⟨_ | _, notes'⟩ := noted
  · rfl
  · rfl

end Source

/-- The listing of a tree writes nothing if the source fails, and reports the failure. Otherwise it
writes the program, spread over lines, and then a line for every diagnostic, with the name of the
source and the message, and answers how many these are; a sink that does not take its text whole
stops it, and keeps what it takes. Different programs and different diagnostics are written
differently. -/
theorem listTree_outcome (name : String) (source : Source) (limit limit' : Option Nat) :
  let tree := fun program : Program => Utf8.encode (program.form.spread ++ "\n")
  let errors := fun diagnostics : Array Diagnostic =>
    Utf8.encode (String.join (diagnostics.toList.map fun diagnostic =>
      name ++ ": error: " ++ diagnostic.message ++ "\n"))
  Function.Injective tree ∧ Function.Injective errors
    ∧ ∃ program window heard result out notes,
      source.parse.Yields (program, window)
      ∧ source.Answers CharStream.defaultCapacity heard window.tokens.chars.bytes.source
      ∧ (source.listTree name (.ofLimit limit) (.ofLimit limit')).Yields (result, out, notes)
      ∧ (∀ failure ∈ Source.failures heard, out.written = #[] ∧ notes.written = #[]
          ∧ ∃ report, result = .error report
            ∧ report.chain = ["could not read " ++ name, failure.message])
      ∧ (Source.failures heard = [] →
          (Sink.Exceeds limit (tree program) →
            out.written.toList = Sink.upTo limit (tree program) ∧ notes.written = #[]
              ∧ result = .error .sinkFull)
          ∧ (¬ Sink.Exceeds limit (tree program) → out.written.toList = tree program
            ∧ (Sink.Exceeds limit' (errors window.diagnostics) →
              notes.written.toList = Sink.upTo limit' (errors window.diagnostics)
                ∧ result = .error .sinkFull)
            ∧ (¬ Sink.Exceeds limit' (errors window.diagnostics) →
              notes.written.toList = errors window.diagnostics
                ∧ result = .ok window.diagnostics.size)))
  := by
  simp only [← Program.lines_eq, ← Diagnostic.lines_eq]
  use fun _ _ h => Program.lines_injective (Utf8.encode_injective h)
  use fun _ _ h => Diagnostic.lines_injective name (Utf8.encode_injective h)
  obtain ⟨ts, fate, hts⟩ := (TokenStream.ofSource source).exists_holds
  obtain ⟨segments, window, -, hparse, -⟩ := hts.parse
  generalize (⟨segments.filterMap Segment.statement?⟩ : Program) = program at hparse
  obtain ⟨heard, hheard, hending⟩ := (source.reachesBy_parse.goes hparse).exists_heard
  have htree := Sink.written_ofLimit limit program.lines
  have herrors := Sink.written_ofLimit limit' (Diagnostic.lines name window.diagnostics)
  rcases hending with ⟨hnone, hkept⟩ | ⟨failure, hone, hkept⟩
  · by_cases hfull : Sink.Exceeds limit (Utf8.encode program.lines)
    · have hyields := Source.yields_listTree_of_full hparse name (.ofLimit limit) (.ofLimit limit')
        hkept (Sink.write_of_exceeds hfull)
      refine ⟨program, window, heard, _, _, _, hparse, hheard, hyields, by simp [hnone], ?_⟩
      intro _
      use fun _ => ⟨htree, rfl, rfl⟩
      exact absurd hfull
    · have hyields := Source.yields_listTree hparse name (.ofLimit limit) (.ofLimit limit')
        hkept (Sink.write_of_not_exceeds hfull)
      refine ⟨program, window, heard, _, _, _, hparse, hheard, hyields, by simp [hnone], ?_⟩
      intro _
      use (absurd · hfull)
      intro _
      use htree.trans (Sink.upTo_of_not_exceeds hfull)
      constructor
      · intro hfull'
        use herrors
        rw [Sink.write_of_exceeds hfull']
        rfl
      · intro hfull'
        use herrors.trans (Sink.upTo_of_not_exceeds hfull')
        rw [Sink.write_of_not_exceeds hfull']
        rfl
  · have hyields := Source.yields_listTree_of_failed hparse name (.ofLimit limit) (.ofLimit limit')
      hkept
    refine ⟨program, window, heard, _, _, _, hparse, hheard, hyields, ?_, by simp [hone]⟩
    rw [hone, List.forall_mem_singleton]
    use rfl, rfl, .notRead name failure, rfl
    rfl

end FrontEnd
