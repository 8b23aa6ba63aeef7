/-!
# Tables of ranges

A set of code points written as ascending closed ranges. `Ranges.Holds` says what such a
table means; `Ranges.contains` looks a code point up and stops at the first range that
begins after it. In an ascending table the two agree (`contains_eq_true_iff`).
-/

namespace FrontEnd.Text

/-- Closed ranges of code points, from the lowest to the highest. -/
abbrev Ranges : Type := List (Nat × Nat)

namespace Ranges

/-- `n` lies in one of the ranges. -/
def Holds (table : Ranges) (n : Nat) : Prop :=
  ∃ range ∈ table, range.1 ≤ n ∧ n ≤ range.2

/-- Every range is nonempty and ends before the next one begins. -/
def Ascending : Ranges → Prop
  | [] => True
  | [range] => range.1 ≤ range.2
  | range :: next :: rest => range.1 ≤ range.2 ∧ range.2 < next.1 ∧ Ascending (next :: rest)

/-- Whether `n` lies in one of the ranges; no range that begins after `n` is looked at. -/
def contains : Ranges → Nat → Bool
  | [], _ => false
  | (low, high) :: rest, n => low ≤ n && (n ≤ high || contains rest n)

instance decidableAscending : (table : Ranges) → Decidable (Ascending table)
  | [] => isTrue trivial
  | [_] => inferInstanceAs (Decidable (_ ≤ _))
  | _ :: next :: rest =>
    have : Decidable (Ascending (next :: rest)) := decidableAscending (next :: rest)
    inferInstanceAs (Decidable (_ ∧ _ ∧ _))

private theorem le_of_ascending {low high : Nat} {rest : Ranges}
    (h : Ascending ((low, high) :: rest)) :
  ∀ range ∈ rest, low ≤ range.1
  := by
  induction rest generalizing low high with
  | nil => simp
  | cons next rest ih =>
    obtain ⟨h₁, h₂, h₃⟩ := h
    intro range hr
    rcases List.mem_cons.mp hr with rfl | hr
    · exact Nat.le_of_lt (Nat.lt_of_le_of_lt h₁ h₂)
    · exact Nat.le_trans (Nat.le_of_lt (Nat.lt_of_le_of_lt h₁ h₂)) (ih h₃ range hr)

private theorem ascending_tail {range : Nat × Nat} {rest : Ranges}
    (h : Ascending (range :: rest)) :
  Ascending rest
  := by
  cases rest with
  | nil => trivial
  | cons => exact h.2.2

/-- Looking up in an ascending table finds exactly the members of its ranges. -/
theorem contains_eq_true_iff {table : Ranges} (h : Ascending table) (n : Nat) :
  contains table n = true ↔ Holds table n
  := by
  induction table with
  | nil => simp [contains, Holds]
  | cons range rest ih =>
    obtain ⟨low, high⟩ := range
    have hrest := ih (ascending_tail h)
    simp only [contains, Bool.and_eq_true, Bool.or_eq_true, decide_eq_true_eq, hrest]
    constructor
    · rintro ⟨hlow, hhigh | ⟨range, hmem, hin⟩⟩
      · exact ⟨(low, high), List.mem_cons_self, hlow, hhigh⟩
      · exact ⟨range, List.mem_cons_of_mem _ hmem, hin⟩
    · rintro ⟨range, hmem, hin⟩
      rcases List.mem_cons.mp hmem with rfl | hmem
      · exact ⟨hin.1, Or.inl hin.2⟩
      · exact ⟨Nat.le_trans (le_of_ascending h range hmem) hin.1, Or.inr ⟨range, hmem, hin⟩⟩

end Ranges

end FrontEnd.Text
