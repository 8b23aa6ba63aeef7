import FrontEnd.CommandLine.Session
import FrontEnd.Proofs.Listing.Tokens
import FrontEnd.Proofs.Listing.Tree
import Mathlib.Data.List.Forall2

/-!
# Commands over many places

What a command lists of a place does not depend on the places before it (`Lists`). A command writes
the listings one after the other, up to the first that stops it, and visits no place after that one
(`upToStop`). It succeeds exactly if no listing stops it and none has an illegal token or a dropped
statement (`runCommand_listings`).
-/

namespace FrontEnd.CommandLine

open Text

/-- What comes of one place: what is written, the number of illegal tokens or dropped statements,
and why the command stops there, if it does. -/
structure Listing where
  out : String
  /-- The diagnostics. -/
  notes : String
  failures : Nat
  report : Option Report

/-- What the command is told of a listing. -/
def Listing.answer (listing : Listing) : Except Report Nat :=
  match listing.report with
  | none => .ok listing.failures
  | some report => .error report

/-- The command comes to this listing of a place. -/
inductive Lists : Command → Opening → Listing → Prop where
  /-- Of a place that cannot be opened, nothing. -/
  | unopened {command : Command} {place : Place} {failure : Failure} :
      Lists command (place, .error failure) ⟨"", "", 0, some (.notOpened place.name failure)⟩
  /-- Of a source a line for each of its tokens, for those before the failure if it fails. -/
  | tokens {place : Place} {source : Source} {ts : List Token} {last : TokenStream}
      {heard : List Source.Answer} {failure? : Option Failure}
      (h : (TokenStream.ofSource source).toList.Yields (ts, last))
      (hheard : source.Answers CharStream.defaultCapacity heard last.chars.bytes.source)
      (hfailures : Source.failures heard = failure?.toList) :
      Lists .tokens (place, .ok source)
        ⟨String.join (ts.map fun token => token.kind.name ++ " " ++ token.literal ++ "\n"), "",
          Token.illegalCount ts, failure?.map (.notRead place.name)⟩
  /-- Of a source that does not fail, its program spread over lines, and a line for each of its
  diagnostics. -/
  | tree {place : Place} {source : Source} {program : Program} {window : Window}
      {heard : List Source.Answer} (h : source.parse.Yields (program, window))
      (hheard : source.Answers CharStream.defaultCapacity heard window.tokens.chars.bytes.source)
      (hfailures : Source.failures heard = []) :
      Lists .parse (place, .ok source)
        ⟨program.form.spread ++ "\n", String.join (window.diagnostics.toList.map fun diagnostic =>
            place.name ++ ": error: " ++ diagnostic.message ++ "\n"),
          window.diagnostics.size, none⟩
  /-- Of a source that fails, nothing. -/
  | treeFailed {place : Place} {source : Source} {program : Program} {window : Window}
      {heard : List Source.Answer} {failure : Failure}
      (h : source.parse.Yields (program, window))
      (hheard : source.Answers CharStream.defaultCapacity heard window.tokens.chars.bytes.source)
      (hfailures : Source.failures heard = [failure]) :
      Lists .parse (place, .ok source)
        ⟨"", "", window.diagnostics.size, some (.notRead place.name failure)⟩

/-- There is one listing of a place. -/
theorem Lists.unique {command : Command} {opening : Opening} {listing listing' : Listing}
    (h : Lists command opening listing) (h' : Lists command opening listing') :
  listing = listing'
  := by
  cases h with
  | unopened =>
    cases h'
    rfl
  | @tokens _ _ _ _ _ failure? h hheard hfailures =>
    cases h' with
    | @tokens _ _ _ _ _ failure?' h' hheard' hfailures' =>
      obtain ⟨rfl, rfl⟩ := Prod.mk.inj (h.unique h')
      obtain rfl := hheard.unique hheard'
      have hsame := congrArg List.head? (hfailures.symm.trans hfailures')
      rw [Option.head?_toList, Option.head?_toList] at hsame
      rw [hsame]
  | tree h hheard hnone =>
    cases h' with
    | tree h' hheard' =>
      obtain ⟨rfl, rfl⟩ := Prod.mk.inj (h.unique h')
      rfl
    | treeFailed h' hheard' hone =>
      obtain ⟨rfl, rfl⟩ := Prod.mk.inj (h.unique h')
      obtain rfl := hheard.unique hheard'
      simp [hnone] at hone
  | treeFailed h hheard hone =>
    cases h' with
    | tree h' hheard' hnone =>
      obtain ⟨rfl, rfl⟩ := Prod.mk.inj (h.unique h')
      obtain rfl := hheard.unique hheard'
      simp [hnone] at hone
    | treeFailed h' hheard' hone' =>
      obtain ⟨rfl, rfl⟩ := Prod.mk.inj (h.unique h')
      obtain rfl := hheard.unique hheard'
      obtain rfl := List.singleton_inj.mp (hone.symm.trans hone')
      rfl

/-- The number of illegal tokens or dropped statements in all listings. -/
def total (listings : List Listing) : Nat :=
  listings.foldr (fun listing rest => listing.failures + rest) 0

theorem total_append (listings listings' : List Listing) :
  total (listings ++ listings') = total listings + total listings'
  := by
  induction listings with
  | nil => exact (Nat.zero_add _).symm
  | cons listing rest ih =>
    rw [total, total, List.cons_append, List.foldr_cons, List.foldr_cons, ← total, ← total, ih,
      Nat.add_assoc]

/-! ### The listings up to a stop -/

/-- The listings up to and with the first that stops the command. -/
def upToStop : List Listing → List Listing
  | [] => []
  | listing :: rest => if listing.report.isSome then [listing] else listing :: upToStop rest

section UpToStop

variable {listing : Listing} {rest listings : List Listing}

theorem upToStop_cons_of_stop (h : listing.report.isSome) :
  upToStop (listing :: rest) = [listing]
  := by rw [upToStop, if_pos h]

theorem upToStop_cons_of_none (h : listing.report = none) :
  upToStop (listing :: rest) = listing :: upToStop rest
  := by rw [upToStop, if_neg (by simp [h])]

/-- Listings of which none stops the command are all written. -/
theorem upToStop_eq_self (h : ∀ listing ∈ listings, listing.report = none) :
  upToStop listings = listings
  := by
  induction listings with
  | nil => rfl
  | cons listing rest ih =>
    obtain ⟨hnone, hrest⟩ := List.forall_mem_cons.mp h
    rw [upToStop_cons_of_none hnone, ih hrest]

/-- The first that stops the command is among them. -/
theorem findSome?_upToStop (listings : List Listing) :
  (upToStop listings).findSome? Listing.report = listings.findSome? Listing.report
  := by
  induction listings with
  | nil => rfl
  | cons listing rest ih =>
    cases hreport : listing.report with
    | some report => simp [upToStop_cons_of_stop, hreport]
    | none => simp [upToStop_cons_of_none hreport, hreport, ih]

end UpToStop

namespace Session

variable {session middle next : Session} {command : Command} {opening : Opening}
  {openings : List Opening} {places places' : List Place} {listing : Listing}
  {listings listings' : List Listing}

/-- The session goes on, and both its sinks take everything. -/
structure IsOpen (session : Session) : Prop where
  out : session.out.limit = none
  notes : session.notes.limit = none
  report : session.report = none

/-- These places were visited between the two sessions, and the listings of them written. -/
structure Adds (session : Session) (places : List Place) (listings : List Listing)
    (next : Session) : Prop where
  out_eq : next.out = session.out.take (listings.flatMap fun listing => Utf8.encode listing.out)
  notes_eq :
    next.notes = session.notes.take (listings.flatMap fun listing => Utf8.encode listing.notes)
  visited_eq : next.visited = session.visited ++ places
  report_eq : next.report = session.report.or (listings.findSome? Listing.report)
  failures_eq : (∀ listing ∈ listings, listing.report = none) →
    next.failures = session.failures + total listings

theorem adds_nil (session : Session) :
  session.Adds [] [] session
  := by
  constructor
  · exact session.out.take_nil.symm
  · exact session.notes.take_nil.symm
  · exact (List.append_nil _).symm
  · exact (Option.or_none).symm
  · intro _
    rfl

theorem Adds.trans (h : session.Adds places listings middle)
    (h' : middle.Adds places' listings' next) :
  session.Adds (places ++ places') (listings ++ listings') next
  := by
  constructor
  · rw [h'.out_eq, h.out_eq, List.flatMap_append, Sink.take_append]
  · rw [h'.notes_eq, h.notes_eq, List.flatMap_append, Sink.take_append]
  · rw [h'.visited_eq, h.visited_eq, List.append_assoc]
  · rw [h'.report_eq, h.report_eq, List.findSome?_append, Option.or_assoc]
  · intro hnone
    obtain ⟨hfront, hback⟩ := List.forall_mem_append.mp hnone
    rw [h'.failures_eq hback, h.failures_eq hfront, total_append, Nat.add_assoc]

/-- After a listing that does not stop it the session is still open. -/
theorem Adds.isOpen (h : session.Adds places listings next) (hsession : session.IsOpen)
    (hnone : listings.findSome? Listing.report = none) :
  next.IsOpen
  := by
  constructor
  · rw [h.out_eq]
    apply hsession.out
  · rw [h.notes_eq]
    apply hsession.notes
  · rw [h.report_eq, hsession.report, hnone]
    rfl

/-! ### One place -/

/-- The session after a listing of a place. -/
def after (session : Session) (place : Place) (listing : Listing) : Session :=
  { session with
    out := (session.out.write listing.out).2
    notes := (session.notes.write listing.notes).2
    visited := session.visited ++ [place] }.conclude listing.answer

theorem adds_after (h : session.report = none) (place : Place) (listing : Listing) :
  session.Adds [place] [listing] (session.after place listing)
  := by
  obtain ⟨out, notes, failures, _ | report⟩ := listing
  · constructor
    all_goals simp [after, Listing.answer, conclude, Sink.write_eq, total]
  · constructor
    all_goals simp [after, Listing.answer, conclude, Sink.write_eq, h]

/-- The place comes to this listing in every open session. -/
def Comes (command : Command) (opening : Opening) (listing : Listing) : Prop :=
  ∀ session : Session, session.IsOpen →
    (session.visit command opening).Yields (session.after opening.1 listing)

section Comes

variable {place : Place} {source : Source} {ts : List Token} {last : TokenStream}
  {program : Program} {window : Window} {failure : Failure}

theorem comes_unopened (command : Command) (place : Place) (failure : Failure) :
  Comes command (place, .error failure) ⟨"", "", 0, some (.notOpened place.name failure)⟩
  := by
  intro session _
  apply Run.yields_pure.mpr
  simp [after, Listing.answer, Sink.write_empty]

theorem comes_tokens (h : (TokenStream.ofSource source).toList.Yields (ts, last)) :
  Comes .tokens (place, .ok source)
    ⟨String.join (ts.map fun token => token.kind.name ++ " " ++ token.literal ++ "\n"), "",
      Token.illegalCount ts, last.chars.failure.map (.notRead place.name)⟩
  := by
  intro session hopen
  rw [← Token.lines_eq]
  have hwhole : (session.out.write (Token.lines ts)).1 = true := by
    rw [Sink.write_of_unlimited hopen.out]
  cases hfailure : last.chars.failure with
  | none =>
    apply (TokenStream.warns_list h place.name session.out hwhole hfailure).yields.bind
    simp [after, Listing.answer, Sink.write_empty]
  | some failure =>
    apply (TokenStream.yields_list_of_failed h place.name session.out hwhole hfailure).bind
    simp [after, Listing.answer, Sink.write_empty]

theorem comes_tree (h : source.parse.Yields (program, window))
    (hfailure : window.tokens.chars.failure = none) :
  Comes .parse (place, .ok source)
    ⟨program.form.spread ++ "\n", String.join (window.diagnostics.toList.map fun diagnostic =>
        place.name ++ ": error: " ++ diagnostic.message ++ "\n"),
      window.diagnostics.size, none⟩
  := by
  intro session hopen
  rw [← Program.lines_eq, ← Diagnostic.lines_eq]
  have hwhole : (session.out.write program.lines).1 = true := by
    rw [Sink.write_of_unlimited hopen.out]
  apply (Source.yields_listTree h place.name session.out session.notes hfailure hwhole).bind
  simp [after, Listing.answer, Sink.write_of_unlimited hopen.notes]

theorem comes_tree_of_failed (h : source.parse.Yields (program, window))
    (hfailure : window.tokens.chars.failure = some failure) :
  Comes .parse (place, .ok source)
    ⟨"", "", window.diagnostics.size, some (.notRead place.name failure)⟩
  := by
  intro session _
  apply (Source.yields_listTree_of_failed h place.name session.out session.notes hfailure).bind
  simp [after, Listing.answer, Sink.write_empty]

end Comes

/-- Every place comes to a listing. -/
theorem exists_lists (command : Command) (opening : Opening) :
  ∃ listing, Lists command opening listing ∧ Comes command opening listing
  := by
  obtain ⟨place, failure | source⟩ := opening
  · exact ⟨_, .unopened, comes_unopened command place failure⟩
  cases command with
  | tokens =>
    obtain ⟨ts, last, -, -, hlist⟩ := (TokenStream.ofSource source).exists_yields_toList
    obtain ⟨heard, hheard, hending⟩ :=
      ((TokenStream.ofSource source).reachesBy_toList.goes hlist).exists_heard
    have hfailures : Source.failures heard = last.chars.failure.toList := by
      rcases hending with ⟨hnone, hkept⟩ | ⟨failure, hone, hkept⟩
      · rw [hnone, hkept]
        rfl
      · rw [hone, hkept]
        rfl
    exact ⟨_, .tokens hlist hheard hfailures, comes_tokens hlist⟩
  | parse =>
    obtain ⟨ts, fate, hts⟩ := (TokenStream.ofSource source).exists_holds
    obtain ⟨segments, window, -, hparse, -⟩ := hts.parse
    obtain ⟨heard, hheard, ⟨hnone, hkept⟩ | ⟨failure, hone, hkept⟩⟩ :=
      (source.reachesBy_parse.goes hparse).exists_heard
    · exact ⟨_, .tree hparse hheard hnone, comes_tree hparse hkept⟩
    · exact ⟨_, .treeFailed hparse hheard hone, comes_tree_of_failed hparse hkept⟩

theorem exists_listings (command : Command) (openings : List Opening) :
  ∃ listings, List.Forall₂ (Lists command) openings listings
    ∧ List.Forall₂ (Comes command) openings listings
  := by
  induction openings with
  | nil => use [], .nil, .nil
  | cons opening openings ih =>
    obtain ⟨listing, hlists, hcomes⟩ := exists_lists command opening
    obtain ⟨listings, hlists', hcomes'⟩ := ih
    use listing :: listings, .cons hlists hlists', .cons hcomes hcomes'

/-! ### All places -/

/-- After a place that stops the command the others make no difference. -/
theorem visitAll_cons_of_stop (h : (session.visit command opening).Yields next)
    (hstop : next.report.isSome) (rest : List Opening) :
  session.visitAll command (opening :: rest) = ⟨.ok next, (session.visit command opening).log⟩
  := by
  rw [visitAll, h.bind_eq, if_pos hstop]
  exact Run.ext_parts rfl (List.append_nil _)

/-- After any other place the command goes on. -/
theorem visitAll_cons_of_open (h : (session.visit command opening).Yields next)
    (hnext : next.IsOpen) (rest : List Opening) :
  session.visitAll command (opening :: rest)
    = ⟨(next.visitAll command rest).outcome,
        (session.visit command opening).log ++ (next.visitAll command rest).log⟩
  := by rw [visitAll, h.bind_eq, if_neg (by simp [hnext.report])]

/-- The listings are added up to the first that stops the command, and what comes after it makes no
difference. -/
theorem visitAll_of_comes (hcomes : List.Forall₂ (Comes command) openings listings)
    (hopen : session.IsOpen) :
  ∃ next, (session.visitAll command openings).Yields next
    ∧ session.Adds ((openings.take (upToStop listings).length).map Prod.fst)
        (upToStop listings) next
    ∧ (next.report.isSome → ∀ later,
        session.visitAll command (openings.take (upToStop listings).length ++ later)
          = session.visitAll command openings)
  := by
  induction hcomes generalizing session with
  | nil =>
    use session, rfl, session.adds_nil
    simp [hopen.report]
  | @cons opening listing openings listings hlisting _ ih =>
    have hvisit := hlisting session hopen
    have hadds := adds_after hopen.report opening.1 listing
    cases hreport : listing.report with
    | some report =>
      have hstop : (session.after opening.1 listing).report.isSome := by
        simp [hadds.report_eq, hreport]
      rw [upToStop_cons_of_stop (by simp [hreport])]
      use session.after opening.1 listing
      constructor
      · rw [visitAll_cons_of_stop hvisit hstop]
        rfl
      · use hadds
        intro _ later
        rw [visitAll_cons_of_stop hvisit hstop]
        apply visitAll_cons_of_stop hvisit hstop
    | none =>
      have hnext := hadds.isOpen hopen (by simp [hreport])
      obtain ⟨last, hlast, hrest, hlater⟩ := ih hnext
      rw [upToStop_cons_of_none hreport]
      use last
      constructor
      · rw [visitAll_cons_of_open hvisit hnext]
        apply hlast
      · use hadds.trans hrest
        intro hstop later
        rw [visitAll_cons_of_open hvisit hnext, List.length_cons, List.take_succ_cons,
          List.cons_append, visitAll_cons_of_open hvisit hnext, hlater hstop later]

/-! ### A whole command -/

theorem isOpen_start :
  start.IsOpen
  := ⟨rfl, rfl, rfl⟩

theorem yields_announce (options : Options) :
  (announce options).Yields ()
  := rfl

theorem yields_close (session : Session) :
  session.close.Yields ()
  := by
  unfold close
  split
  · rfl
  · rfl

/-- A command succeeds exactly if it was not stopped and there were no failures. -/
theorem exitCode_eq_zero_iff (session : Session) :
  session.exitCode = 0 ↔ session.report = none ∧ session.failures = 0
  := by simp [exitCode]

/-- So it does exactly if no listing stops it or has failures. -/
theorem Adds.exitCode_eq_zero_iff (h : start.Adds places (upToStop listings) next) :
  next.exitCode = 0 ↔ (∀ listing ∈ listings, listing.report = none)
    ∧ total listings = 0
  := by
  have hreport : next.report = none ↔ ∀ listing ∈ listings, listing.report = none := by
    rw [h.report_eq, findSome?_upToStop, ← List.findSome?_eq_none_iff]
    rfl
  rw [Session.exitCode_eq_zero_iff, hreport]
  apply and_congr_right
  intro hnone
  have hfailures := h.failures_eq
  rw [upToStop_eq_self hnone] at hfailures
  rw [hfailures hnone, start, Nat.zero_add]

end Session

/-- Every place comes to one listing, whatever comes before it. A command writes the listings up to
the first that stops it, visits the places of these, and would do the same with any places after
them. It succeeds exactly if no listing stops it and there are no illegal tokens, or no dropped
statements, in any of them. -/
theorem runCommand_listings (options : Options) (openings : List Opening) :
  ∃ listings session, List.Forall₂ (Lists options.command) openings listings
    ∧ (∀ other, List.Forall₂ (Lists options.command) openings other → other = listings)
    ∧ (runCommand options openings).Yields session
    ∧ session.out.written.toList
        = (upToStop listings).flatMap (fun listing => Utf8.encode listing.out)
    ∧ session.notes.written.toList
        = (upToStop listings).flatMap (fun listing => Utf8.encode listing.notes)
    ∧ session.visited = (openings.take (upToStop listings).length).map Prod.fst
    ∧ session.report = listings.findSome? Listing.report
    ∧ (session.report.isSome → ∀ later,
        runCommand options (openings.take (upToStop listings).length ++ later)
          = runCommand options openings)
    ∧ (session.exitCode = 0 ↔ (∀ listing ∈ listings, listing.report = none)
        ∧ total listings = 0)
  := by
  obtain ⟨listings, hlists, hcomes⟩ := Session.exists_listings options.command openings
  obtain ⟨session, hvisit, hadds, hlater⟩ := Session.visitAll_of_comes hcomes Session.isOpen_start
  have hrun : (runCommand options openings).Yields session := by
    apply (Session.yields_announce options).bind
    apply hvisit.bind
    apply session.yields_close.bind
    rfl
  refine ⟨listings, session, hlists, ?_, hrun, ?_, ?_, hadds.visited_eq, ?_, ?_,
    hadds.exitCode_eq_zero_iff⟩
  · intro other hother
    have hunique : Relator.RightUnique (Lists options.command) := fun _ _ _ => Lists.unique
    apply hunique.forall₂ hother hlists
  · rw [hadds.out_eq]
    apply Sink.toList_written_take
  · rw [hadds.notes_eq]
    apply Sink.toList_written_take
  · rw [hadds.report_eq, findSome?_upToStop]
    rfl
  · intro hstop later
    rw [runCommand, runCommand, hlater hstop later]

end FrontEnd.CommandLine
