import FrontEnd.Proofs.Token.Records
import FrontEnd.Proofs.Token.Reaching
import FrontEnd.Tree.Window

/-!
# What reading statements does to a window

All that reading statements does to a window is to move it on and to add diagnostics to it, so a
program is read along every passage that allows this (`Passage.AllowsParsing.program`).
`window.Reaches log next` says that one window comes of the other in this way, and
`reachesBy_program` that this is what reading a program comes to; so what moving on keeps, and
adding a diagnostic, every operation keeps. The stream behind the window is only read from
(`Reaches.chars`).
-/

namespace FrontEnd

namespace Window

/-- One window comes of the other by moving on and by dropping statements, where these records are
left. -/
inductive Reaches : Window → List Record → Window → Prop where
  | refl (window : Window) : Reaches window [] window
  | advance {window middle last : Window} {log : List Record} (h : window.advance.Yields middle)
      (hrest : Reaches middle log last) : Reaches window (window.advance.log ++ log) last
  | drop {window last : Window} {diagnostic : Diagnostic} {log : List Record}
      (hrest : Reaches { window with diagnostics := window.diagnostics.push diagnostic } log last) :
      Reaches window (.dropped diagnostic :: log) last
  /-- Something else is logged than a token that was taken, or a failure. -/
  | record {window last : Window} {record : Record} {log : List Record}
      (htoken : record.scanned? = none) (hsevere : record.severity ≠ .error)
      (hrest : Reaches window log last) : Reaches window (record :: log) last

variable {window middle last : Window} {log log' : List Record}

theorem Reaches.trans (h : window.Reaches log middle) (h' : middle.Reaches log' last) :
  window.Reaches (log ++ log') last
  := by
  induction h with
  | refl => apply h'
  | advance hadvance _ ih =>
    rw [List.append_assoc]
    apply Reaches.advance hadvance (ih h')
  | drop _ ih => apply Reaches.drop (ih h')
  | record htoken hsevere _ ih => apply Reaches.record htoken hsevere (ih h')

/-- Moving on and dropping statements as a passage. -/
def reaching : Passage Window where
  Goes := Reaches
  refl := .refl
  trans := .trans

/-- The run reaches the window that is found in its value. -/
abbrev ReachesBy {α : Type} (window : Window) (run : Run α) (view : α → Window) : Prop :=
  reaching.Leads window run view

/-! ### The stream behind a window -/

theorem reachesBy_advance_chars (window : Window) :
  window.tokens.chars.ReachesBy window.advance fun next => next.tokens.chars
  := by
  apply window.tokens.reachesBy_next.bind
  rintro ⟨token, tokens⟩
  exact Passage.leads_done rfl

/-- The stream behind the window is read from. -/
theorem Reaches.chars (h : window.Reaches log last) :
  window.tokens.chars.Reaches log last.tokens.chars
  := by
  induction h with
  | refl window => exact .refl window.tokens.chars
  | advance hadvance _ ih => exact ((reachesBy_advance_chars _).goes hadvance).trans ih
  | drop _ ih => exact .record (by simp [Record.severity]) ih
  | record _ hsevere _ ih => exact .record hsevere ih

end Window

/-! ### Operations -/

namespace Passage

/-- Moving a window on goes along the passage. -/
structure AllowsAdvancing (passage : Passage Window) : Prop where
  advance : ∀ window : Window, passage.Leads window window.advance id

/-- So does dropping a statement, and what does not tell of reading may be logged. -/
structure AllowsParsing (passage : Passage Window) : Prop extends passage.AllowsAdvancing where
  drop : ∀ (window : Window) (diagnostic : Diagnostic), passage.Goes window [.dropped diagnostic]
    { window with diagnostics := window.diagnostics.push diagnostic }
  record : ∀ (window : Window) (record : Record), record.isReading = false →
    passage.Goes window [record] window

variable {passage : Passage Window}

theorem AllowsAdvancing.skipToSemicolon (h : passage.AllowsAdvancing) (window : Window) :
  passage.Leads window window.skipToSemicolon id
  := by
  fun_induction Window.skipToSemicolon window with
  | case1 window => exact leads_done rfl
  | case2 window _ ih =>
    apply (h.advance window).attach_bind
    intro next hadvance
    apply ih next hadvance

namespace AllowsParsing

variable (h : passage.AllowsParsing)

include h

theorem expect (window : Window) (kind : Kind) :
  passage.Leads window (window.expect kind) Prod.snd
  := by
  unfold Window.expect
  split
  · apply (h.advance window).bind
    intro next
    exact leads_done rfl
  · constructor
    constructor
    intro answer hanswer
    obtain ⟨_, -, hpure⟩ := Run.yields_bind.mp hanswer
    obtain rfl := Run.yields_pure.mp hpure
    apply h.drop

theorem binding (window : Window) :
  passage.Leads window window.binding Prod.snd
  := by
  apply (h.expect window .identifier).bind
  rintro ⟨met, named⟩
  cases met with
  | false => exact leads_done rfl
  | true =>
    dsimp only
    split
    · exact leads_done rfl
    · apply (h.expect named .assign).bind
      rintro ⟨met, assigned⟩
      cases met with
      | false => exact leads_done rfl
      | true =>
        apply (h.skipToSemicolon assigned).bind
        intro last
        apply Leads.lift_bind
        intro _
        exact leads_done rfl

theorem result (window : Window) :
  passage.Leads window window.result Prod.snd
  := by
  apply (h.advance window).bind
  intro next
  apply (h.skipToSemicolon next).bind
  intro last
  apply Leads.lift_bind
  intro _
  exact leads_done rfl

theorem statement (window : Window) :
  passage.Leads window window.statement Prod.snd
  := by
  unfold Window.statement
  split
  · apply h.binding
  · apply h.result
  · apply Leads.tell_bind (h.record window _ rfl)
    exact leads_done rfl

theorem statements (window : Window) :
  passage.Leads window window.statements Prod.snd
  := by
  fun_induction Window.statements window with
  | case1 window => exact leads_done rfl
  | case2 window _ ih =>
    apply (h.statement window).attach_bind
    rintro ⟨statement?, middle⟩ hstatement
    have hrest : passage.Leads middle (middle.advance.attach >>= fun next =>
        (fun rest => (statement?.toList ++ rest.1, rest.2)) <$> next.val.statements) Prod.snd := by
      apply (h.advance middle).attach_bind
      intro next hadvance
      apply Leads.map
      apply ih statement? middle hstatement next hadvance
    cases statement? with
    | none => apply hrest
    | some statement =>
      apply Leads.tell_bind (h.record middle _ rfl)
      apply hrest

theorem program (window : Window) :
  passage.Leads window window.program Prod.snd
  := by
  apply Leads.map
  apply h.statements

end AllowsParsing

end Passage

/-! ### Where the window is then -/

namespace Window

theorem reachesBy_advance (window : Window) :
  window.ReachesBy window.advance id
  := by
  constructor
  constructor
  intro next hadvance
  have hreaches := Reaches.advance hadvance (.refl next)
  rw [List.append_nil] at hreaches
  apply hreaches

theorem reaching_allowsParsing :
  reaching.AllowsParsing
  := by
  refine ⟨⟨reachesBy_advance⟩, ?_, ?_⟩
  · intro window diagnostic
    exact .drop (.refl _)
  · intro window record hrecord
    have hother : record.scanned? = none ∧ record.severity ≠ .error := by
      cases record with
      | sourceFailed => simp [Record.isReading] at hrecord
      | scanned => simp [Record.isReading, Record.isScanning] at hrecord
      | _ => simp [Record.scanned?, Record.severity]
    exact .record hother.1 hother.2 (.refl window)

theorem reachesBy_program (window : Window) :
  window.ReachesBy window.program Prod.snd
  := reaching_allowsParsing.program window

theorem reachesBy_program_chars (window : Window) :
  window.tokens.chars.ReachesBy window.program fun answer => answer.2.tokens.chars
  := by
  constructor
  apply window.reachesBy_program.ensures.mono
  intro answer log hreaches
  apply hreaches.chars

/-- The window onto two tokens is reached by reading. -/
theorem reachesBy_ofTokens (tokens : TokenStream) :
  tokens.chars.ReachesBy (ofTokens tokens) fun window => window.tokens.chars
  := by
  apply tokens.reachesBy_next.bind
  rintro ⟨current, middle⟩
  apply middle.reachesBy_next.bind
  rintro ⟨following, last⟩
  exact Passage.leads_done rfl

end Window

/-- A source is parsed by reading from it. -/
theorem Source.reachesBy_parse (source : Source) :
  (CharStream.ofSource source CharStream.defaultCapacity).ReachesBy source.parse
    fun answer => answer.2.tokens.chars
  := by
  apply (Window.reachesBy_ofTokens (.ofSource source)).bind
  intro window
  apply window.reachesBy_program_chars

end FrontEnd
