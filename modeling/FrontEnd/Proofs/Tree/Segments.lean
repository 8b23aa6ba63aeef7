import FrontEnd.Tree.Basic
import FrontEnd.Tree.Diagnostic
import Mathlib.Data.List.TakeWhile
import Mathlib.Tactic.Use

/-!
# Segments of a token list

A list of tokens splits from the left into segments: bindings, results, the beginnings of
bindings that are dropped, and single tokens that are skipped (`Segments`). The first token and
the two after it decide which segment comes first, so there is at most one such split
(`Segments.unique`).
-/

namespace FrontEnd

/-- A part of a token list. -/
inductive Segment where
  /-- `let NAME =` and the tokens up to the next semicolon. -/
  | binding (token name assign : Token) (body : List Token)
  /-- `return` and the tokens up to the next semicolon. -/
  | result (token : Token) (body : List Token)
  /-- `let` without a name after it, where `found` stands instead. -/
  | unnamed (token found : Token)
  /-- `let NAME` without `=` after it, where `found` stands instead. -/
  | unassigned (token name found : Token)
  /-- A token that begins no statement. -/
  | skipped (token : Token)

/-- The tokens are no semicolons, but for the last one, which is one unless nothing follows. -/
def Terminated (body rest : List Token) : Prop :=
  (∃ front semicolon, body = front ++ [semicolon] ∧ semicolon.kind = .semicolon
    ∧ ∀ token ∈ front, token.kind ≠ .semicolon)
  ∨ rest = [] ∧ ∀ token ∈ body, token.kind ≠ .semicolon

namespace Segment

/-- The tokens of a segment. -/
def tokens : Segment → List Token
  | binding token name assign body => token :: name :: assign :: body
  | result token body => token :: body
  | unnamed token _ => [token]
  | unassigned token name _ => [token, name]
  | skipped token => [token]

/-- The statement that a segment is read as. -/
def statement? : Segment → Option Statement
  | binding token name _ _ => some (.binding token ⟨name, name.literal⟩ none)
  | result token _ => some (.result token none)
  | _ => none

/-- The diagnostic that a segment leaves. -/
def diagnostic? : Segment → Option Diagnostic
  | unnamed _ found => some ⟨.identifier, found⟩
  | unassigned _ _ found => some ⟨.assign, found⟩
  | _ => none

/-- The segment is one where the tokens `rest` come after it. -/
def Fits (rest : List Token) : Segment → Prop
  | binding token name assign body =>
    token.kind = .letWord ∧ name.kind = .identifier ∧ assign.kind = .assign
      ∧ Terminated body rest
  | result token body => token.kind = .returnWord ∧ Terminated body rest
  | unnamed token found =>
    token.kind = .letWord ∧ found = rest.headD .endOfInput ∧ found.kind ≠ .identifier
  | unassigned token name found =>
    token.kind = .letWord ∧ name.kind = .identifier ∧ found = rest.headD .endOfInput
      ∧ found.kind ≠ .assign
  | skipped token => token.kind ≠ .letWord ∧ token.kind ≠ .returnWord

end Segment

/-- The tokens are these segments one after the other. -/
inductive Segments : List Token → List Segment → Prop where
  | nil : Segments [] []
  | cons {segment : Segment} {rest : List Token} {segments : List Segment}
      (h : segment.Fits rest) (hrest : Segments rest segments) :
      Segments (segment.tokens ++ rest) (segment :: segments)

/-! ### Up to the next semicolon -/

/-- The tokens up to the next semicolon, with it if there is one. -/
def upToSemicolon (ts : List Token) : List Token × List Token :=
  (ts.takeWhile (fun token => token.kind != .semicolon)
      ++ (ts.dropWhile fun token => token.kind != .semicolon).take 1,
    (ts.dropWhile fun token => token.kind != .semicolon).tail)

theorem upToSemicolon_append (ts : List Token) :
  (upToSemicolon ts).1 ++ (upToSemicolon ts).2 = ts
  := by
  rw [upToSemicolon, ← List.drop_one, List.append_assoc, List.take_append_drop,
    List.takeWhile_append_dropWhile]

theorem terminated_upToSemicolon (ts : List Token) :
  Terminated (upToSemicolon ts).1 (upToSemicolon ts).2
  := by
  have hfront : ∀ token ∈ ts.takeWhile (fun token => token.kind != .semicolon),
      token.kind ≠ .semicolon := by
    intro token hmem
    simpa using List.mem_takeWhile_imp hmem
  have hhead := List.head?_dropWhile_not (fun token : Token => token.kind != .semicolon) ts
  rw [upToSemicolon]
  cases hdrop : ts.dropWhile (fun token => token.kind != .semicolon) with
  | nil =>
    right
    use rfl
    simpa using hfront
  | cons semicolon rest =>
    rw [hdrop] at hhead
    left
    use ts.takeWhile (fun token => token.kind != .semicolon), semicolon, rfl
    constructor
    · simpa using hhead
    · apply hfront

/-- A terminated part is what comes up to the next semicolon. -/
theorem Terminated.eq_upToSemicolon {body rest : List Token} (h : Terminated body rest) :
  upToSemicolon (body ++ rest) = (body, rest)
  := by
  rcases h with ⟨front, semicolon, rfl, hsemicolon, hfront⟩ | ⟨rfl, hbody⟩
  · have hfront : ∀ token ∈ front, (token.kind != .semicolon) = true := by simpa using hfront
    rw [upToSemicolon, List.append_assoc, List.takeWhile_append_of_pos hfront,
      List.dropWhile_append_of_pos hfront]
    simp [hsemicolon]
  · have hbody : ∀ token ∈ body, (token.kind != .semicolon) = true := by simpa using hbody
    rw [upToSemicolon, List.append_nil, List.takeWhile_eq_self_iff.mpr hbody,
      List.dropWhile_eq_nil_iff.mpr hbody]
    simp

/-! ### There is one split -/

/-- The segment at the front of a token and the tokens after it, and what comes after the
segment. -/
def Segment.front (token : Token) (ts : List Token) : Segment × List Token :=
  if token.kind = .letWord then
    if (ts.headD .endOfInput).kind = .identifier then
      if (ts.tail.headD .endOfInput).kind = .assign then
        (.binding token (ts.headD .endOfInput) (ts.tail.headD .endOfInput)
          (upToSemicolon ts.tail.tail).1, (upToSemicolon ts.tail.tail).2)
      else (.unassigned token (ts.headD .endOfInput) (ts.tail.headD .endOfInput), ts.tail)
    else (.unnamed token (ts.headD .endOfInput), ts)
  else if token.kind = .returnWord then
    (.result token (upToSemicolon ts).1, (upToSemicolon ts).2)
  else (.skipped token, ts)

/-- A segment that fits is the one at the front. -/
theorem Segment.Fits.front_eq {segment : Segment} {rest : List Token} (h : segment.Fits rest) :
  ∃ token ts, segment.tokens ++ rest = token :: ts ∧ Segment.front token ts = (segment, rest)
  := by
  cases segment with
  | binding token name assign body =>
    obtain ⟨hlet, hname, hassign, hbody⟩ := h
    use token, name :: assign :: (body ++ rest), rfl
    simp [front, hlet, hname, hassign, hbody.eq_upToSemicolon]
  | result token body =>
    obtain ⟨hreturn, hbody⟩ := h
    use token, body ++ rest, rfl
    rw [front, if_neg (by simp [hreturn]), if_pos hreturn, hbody.eq_upToSemicolon]
  | unnamed token found =>
    obtain ⟨hlet, rfl, hfound⟩ := h
    use token, rest, rfl
    rw [front, if_pos hlet, if_neg hfound]
  | unassigned token name found =>
    obtain ⟨hlet, hname, rfl, hfound⟩ := h
    use token, name :: rest, rfl
    simp only [front, hlet, hname, hfound, List.headD_cons, List.tail_cons, if_true, if_false]
  | skipped token =>
    obtain ⟨hlet, hreturn⟩ := h
    use token, rest, rfl
    rw [front, if_neg hlet, if_neg hreturn]

theorem Segment.Fits.unique {segment segment' : Segment} {rest rest' : List Token}
    (h : segment.Fits rest) (h' : segment'.Fits rest')
    (heq : segment.tokens ++ rest = segment'.tokens ++ rest') :
  segment = segment' ∧ rest = rest'
  := by
  obtain ⟨token, ts, hts, hfront⟩ := h.front_eq
  obtain ⟨token', ts', hts', hfront'⟩ := h'.front_eq
  obtain ⟨rfl, rfl⟩ := List.cons.inj (hts.symm.trans (heq.trans hts'))
  apply Prod.mk.inj (hfront.symm.trans hfront')

theorem Segment.tokens_ne_nil (segment : Segment) :
  segment.tokens ≠ []
  := by cases segment <;> simp [tokens]

/-- A list of tokens has one split into segments at most. -/
theorem Segments.unique {ts : List Token} {segments segments' : List Segment}
    (h : Segments ts segments) (h' : Segments ts segments') :
  segments = segments'
  := by
  induction h generalizing segments' with
  | nil =>
    generalize hnil : [] = ts at h'
    cases h' with
    | nil => rfl
    | @cons segment => simp [segment.tokens_ne_nil] at hnil
  | @cons segment rest segments hfits _ ih =>
    generalize hts : segment.tokens ++ rest = ts at h'
    cases h' with
    | nil => simp [segment.tokens_ne_nil] at hts
    | cons hfits' hrest' =>
      obtain ⟨rfl, rfl⟩ := hfits.unique hfits' hts
      rw [ih hrest']

/-- The segments are the whole list. -/
theorem Segments.flatMap_tokens {ts : List Token} {segments : List Segment}
    (h : Segments ts segments) :
  segments.flatMap Segment.tokens = ts
  := by
  induction h with
  | nil => rfl
  | cons _ _ ih => rw [List.flatMap_cons, ih]

end FrontEnd
