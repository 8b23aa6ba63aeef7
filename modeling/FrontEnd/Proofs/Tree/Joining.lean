import FrontEnd.Proofs.Tree.Segments
import Mathlib.Data.List.Basic

/-!
# Joined token lists

A semicolon ends every segment, so tokens up to a semicolon and tokens after it split into segments
apart (`Segments.append`). One more token at the end that continues no segment changes nothing but
the diagnostics that found the end there before (`Segments.append_last`).
-/

namespace FrontEnd

variable {ts us : List Token} {segments segments' : List Segment}

/-! ### After a semicolon -/

/-- The tokens are none, or end in a semicolon. -/
def Closed (ts : List Token) : Prop :=
  ∀ token, ts.getLast? = some token → token.kind = .semicolon

theorem Closed.of_append {front rest : List Token} (h : Closed (front ++ rest)) :
  Closed rest
  := by
  intro token hlast
  apply h token
  rw [List.getLast?_append, hlast, Option.some_or]

/-- A part that is terminated where nothing follows is terminated where more tokens follow, if it
ends in a semicolon. -/
theorem Terminated.append {body rest : List Token} (h : Terminated body rest)
    (front : List Token) (hfront : ∀ token ∈ front, token.kind ≠ .semicolon) (hne : front ≠ [])
    (hclosed : rest = [] → Closed (front ++ body)) (us : List Token) :
  Terminated body (rest ++ us)
  := by
  rcases h with hsemicolon | ⟨rfl, hbody⟩
  · apply Or.inl hsemicolon
  · have hall : ∀ token ∈ front ++ body, token.kind ≠ .semicolon := by
      intro token hmem
      rcases List.mem_append.mp hmem with hmem | hmem
      · apply hfront token hmem
      · apply hbody token hmem
    have hne : front ++ body ≠ [] := List.append_ne_nil_of_left_ne_nil hne body
    have hlast := List.getLast?_eq_some_getLast hne
    exact absurd (hclosed rfl _ hlast) (hall _ (List.getLast_mem hne))

theorem headD_append {rest : List Token} (h : rest ≠ []) (us : List Token) :
  (rest ++ us).headD .endOfInput = rest.headD .endOfInput
  := by
  obtain ⟨token, rest, rfl⟩ := List.exists_cons_of_ne_nil h
  rfl

/-- A segment stays one where more tokens come, if it is followed by a token or ends in a
semicolon. -/
theorem Segment.Fits.append {segment : Segment} {rest : List Token} (h : segment.Fits rest)
    (hclosed : rest = [] → Closed segment.tokens) (us : List Token) :
  segment.Fits (rest ++ us)
  := by
  cases segment with
  | binding token name assign body =>
    obtain ⟨hlet, hname, hassign, hbody⟩ := h
    refine ⟨hlet, hname, hassign, ?_⟩
    apply hbody.append [token, name, assign] _ (List.cons_ne_nil _ _) hclosed
    simp [hlet, hname, hassign]
  | result token body =>
    obtain ⟨hreturn, hbody⟩ := h
    use hreturn
    apply hbody.append [token] _ (List.cons_ne_nil _ _) hclosed
    simp [hreturn]
  | unnamed token found =>
    obtain ⟨hlet, rfl, hfound⟩ := h
    have hne : rest ≠ [] := by
      intro hnil
      simpa [hlet] using hclosed hnil token rfl
    rw [← headD_append hne us] at hfound ⊢
    exact ⟨hlet, rfl, hfound⟩
  | unassigned token name found =>
    obtain ⟨hlet, hname, rfl, hfound⟩ := h
    have hne : rest ≠ [] := by
      intro hnil
      simpa [hname] using hclosed hnil name rfl
    rw [← headD_append hne us] at hfound ⊢
    exact ⟨hlet, hname, rfl, hfound⟩
  | skipped token => apply h

/-- Tokens up to a semicolon and tokens after it split apart. -/
theorem Segments.append (h : Segments ts segments) (hclosed : Closed ts)
    (h' : Segments us segments') :
  Segments (ts ++ us) (segments ++ segments')
  := by
  induction h with
  | nil => apply h'
  | @cons segment rest segments hfits _ ih =>
    have hclosed' : rest = [] → Closed segment.tokens := by
      rintro rfl
      rwa [List.append_nil] at hclosed
    rw [List.append_assoc, List.cons_append]
    apply Segments.cons (hfits.append hclosed' us)
    apply ih hclosed.of_append

/-! ### One more token -/

/-- The diagnostic that is left if a token stands where the end was found. -/
def Diagnostic.endingAt (last : Token) (diagnostic : Diagnostic) : Diagnostic :=
  if diagnostic.found.isEnd then { diagnostic with found := last } else diagnostic

/-- The token begins no statement, and is not what the beginning of one needs. -/
structure Token.IsIdle (token : Token) : Prop where
  ne_let : token.kind ≠ .letWord
  ne_return : token.kind ≠ .returnWord
  ne_identifier : token.kind ≠ .identifier
  ne_assign : token.kind ≠ .assign

/-- What extends to the end of the tokens takes one more token, unless it ends in a semicolon. -/
theorem Terminated.append_last {body : List Token} (h : Terminated body []) (last : Token) :
  Terminated body [last] ∨ Terminated (body ++ [last]) []
  := by
  rcases h with hsemicolon | ⟨-, hbody⟩
  · exact .inl (.inl hsemicolon)
  right
  by_cases hlast : last.kind = .semicolon
  · left
    use body, last
  · right
    use rfl
    intro token hmem
    rcases List.mem_append.mp hmem with hmem | hmem
    · apply hbody token hmem
    · rwa [List.mem_singleton.mp hmem]

variable {last : Token}

theorem segments_skipped (hlast : last.IsIdle) :
  Segments [last] [.skipped last]
  := by
  have hfits : (Segment.skipped last).Fits [] := ⟨hlast.ne_let, hlast.ne_return⟩
  exact .cons hfits .nil

/-- The last segment with one more token: the same statement, and the same diagnostic but for the
token that was found. -/
theorem Segment.Fits.append_last {segment : Segment} (h : segment.Fits []) (hlast : last.IsIdle) :
  ∃ segments, Segments (segment.tokens ++ [last]) segments
    ∧ segments.filterMap Segment.statement? = segment.statement?.toList
    ∧ segments.filterMap Segment.diagnostic?
        = (segment.diagnostic?.map (Diagnostic.endingAt last)).toList
  := by
  have hskipped := segments_skipped hlast
  cases segment with
  | binding token name assign body =>
    obtain ⟨hlet, hname, hassign, hbody⟩ := h
    rcases hbody.append_last last with hbody | hbody
    · exact ⟨_, .cons ⟨hlet, hname, hassign, hbody⟩ hskipped, rfl, rfl⟩
    · have hfits : (Segment.binding token name assign (body ++ [last])).Fits [] :=
        ⟨hlet, hname, hassign, hbody⟩
      have hsegments := Segments.cons hfits .nil
      rw [List.append_nil] at hsegments
      exact ⟨_, hsegments, rfl, rfl⟩
  | result token body =>
    obtain ⟨hreturn, hbody⟩ := h
    rcases hbody.append_last last with hbody | hbody
    · exact ⟨_, .cons ⟨hreturn, hbody⟩ hskipped, rfl, rfl⟩
    · have hfits : (Segment.result token (body ++ [last])).Fits [] := ⟨hreturn, hbody⟩
      have hsegments := Segments.cons hfits .nil
      rw [List.append_nil] at hsegments
      exact ⟨_, hsegments, rfl, rfl⟩
  | unnamed token found =>
    obtain ⟨hlet, rfl, -⟩ := h
    have hfits : (Segment.unnamed token last).Fits [last] := ⟨hlet, rfl, hlast.ne_identifier⟩
    exact ⟨[.unnamed token last, .skipped last], .cons hfits hskipped, rfl, rfl⟩
  | unassigned token name found =>
    obtain ⟨hlet, hname, rfl, -⟩ := h
    have hfits : (Segment.unassigned token name last).Fits [last] :=
      ⟨hlet, hname, rfl, hlast.ne_assign⟩
    exact ⟨[.unassigned token name last, .skipped last], .cons hfits hskipped, rfl, rfl⟩
  | skipped token => exact ⟨_, .cons h hskipped, rfl, rfl⟩

/-- Where a token follows, the diagnostic of a segment found that token and not the end. -/
theorem Segment.Fits.endingAt_eq {segment : Segment} {rest : List Token} (h : segment.Fits rest)
    (hne : rest ≠ []) (hend : ∀ token ∈ rest, token.isEnd = false) (last : Token) :
  segment.diagnostic?.map (Diagnostic.endingAt last) = segment.diagnostic?
  := by
  obtain ⟨next, rest, rfl⟩ := List.exists_cons_of_ne_nil hne
  have hnext := hend next List.mem_cons_self
  cases segment with
  | unnamed token found =>
    obtain ⟨-, rfl, -⟩ := h
    simp [diagnostic?, Diagnostic.endingAt, hnext]
  | unassigned token name found =>
    obtain ⟨-, -, rfl, -⟩ := h
    simp [diagnostic?, Diagnostic.endingAt, hnext]
  | _ => rfl

/-- One more token at the end changes no statement, and of the diagnostics only those that found
the end: they find that token. -/
theorem Segments.append_last (h : Segments ts segments)
    (hend : ∀ token ∈ ts, token.isEnd = false) (hlast : last.IsIdle) :
  ∃ segments', Segments (ts ++ [last]) segments'
    ∧ segments'.filterMap Segment.statement? = segments.filterMap Segment.statement?
    ∧ segments'.filterMap Segment.diagnostic?
        = (segments.filterMap Segment.diagnostic?).map (Diagnostic.endingAt last)
  := by
  induction h with
  | nil => exact ⟨_, segments_skipped hlast, rfl, rfl⟩
  | @cons segment rest segments hfits hrest ih =>
    have hend : ∀ token ∈ rest, token.isEnd = false := fun token hmem =>
      hend token (List.mem_append_right _ hmem)
    by_cases hne : rest = []
    · subst hne
      obtain rfl := hrest.unique .nil
      obtain ⟨segments', hsegments, hstatements, hdiagnostics⟩ := hfits.append_last hlast
      rw [List.append_nil]
      use segments', hsegments
      constructor
      · rw [hstatements, List.filterMap_eq_flatMap_toList, List.flatMap_singleton]
      · rw [hdiagnostics, List.filterMap_eq_flatMap_toList, List.flatMap_singleton,
          ← Option.toList_map]
    · obtain ⟨segments', hsegments, hstatements, hdiagnostics⟩ := ih hend
      rw [List.append_assoc]
      use segment :: segments', .cons (hfits.append (absurd · hne) [last]) hsegments
      constructor
      · rw [List.filterMap_cons, hstatements, List.filterMap_cons]
      · have hsame := hfits.endingAt_eq hne hend last
        rw [List.filterMap_cons, List.filterMap_cons, hdiagnostics]
        cases hdiagnostic : segment.diagnostic? with
        | none => rfl
        | some diagnostic =>
          rw [hdiagnostic, Option.map_some, Option.some.injEq] at hsame
          rw [List.map_cons, hsame]

end FrontEnd
