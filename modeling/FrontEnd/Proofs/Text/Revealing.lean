import FrontEnd.Text.Quoted
import Mathlib.Data.List.TakeWhile
import Mathlib.Tactic.Use

/-!
# What texts reveal

Two texts reveal a fact if they cannot begin the same text unless the fact holds, and if they end
at the same place then. Texts that are put together of parts reveal what their parts reveal
(`Reveals.append`). Quoted texts reveal that they quote the same text (`Quoted.reveals_text`): the
spelling of a character tells the character and where the spelling ends, and no spelling begins
with the mark.
-/

namespace FrontEnd.Text

/-- Where one text begins with `s` and with `t`, the fact holds and the same comes after both. -/
def Reveals (s t : List Char) (fact : Prop) : Prop :=
  ∀ rest rest', s ++ rest = t ++ rest' → fact ∧ rest = rest'

variable {s t s' t' : List Char} {P Q : Prop}

/-! ### Parts -/

/-- Equal texts have what they reveal. -/
theorem Reveals.of_eq (h : Reveals s t P) (heq : s = t) :
  P
  := (h [] [] (by rw [heq])).1

theorem Reveals.imp (h : Reveals s t P) (hfact : P → Q) :
  Reveals s t Q
  := fun rest rest' heq => (h rest rest' heq).imp hfact id

theorem reveals_refl (s : List Char) :
  Reveals s s True
  := fun _ _ heq => ⟨trivial, List.append_cancel_left heq⟩

/-- What the first parts reveal is there when the second parts come. -/
theorem Reveals.append (h : Reveals s t P) (h' : P → Reveals s' t' Q) :
  Reveals (s ++ s') (t ++ t') (P ∧ Q)
  := by
  intro rest rest' heq
  rw [List.append_assoc, List.append_assoc] at heq
  obtain ⟨hfact, hmiddle⟩ := h _ _ heq
  obtain ⟨hfact', hrest⟩ := h' hfact _ _ hmiddle
  exact ⟨⟨hfact, hfact'⟩, hrest⟩

/-- The same text before both reveals nothing. -/
theorem Reveals.after (h : Reveals s t P) (front : List Char) :
  Reveals (front ++ s) (front ++ t) P
  := ((reveals_refl front).append fun _ => h).imp And.right

/-- Nor does the same text after both. -/
theorem Reveals.before (h : Reveals s t P) (back : List Char) :
  Reveals (s ++ back) (t ++ back) P
  := (h.append fun _ => reveals_refl back).imp And.left

theorem Reveals.symm (h : Reveals s t P) :
  Reveals t s P
  := by
  intro rest rest' heq
  obtain ⟨hfact, hrest⟩ := h rest' rest heq.symm
  exact ⟨hfact, hrest.symm⟩

/-- Where no text begins with both, it does not matter what comes after one of them. -/
theorem Reveals.absurd_append (h : Reveals s t False) (back : List Char) :
  Reveals s (t ++ back) P
  := by
  intro rest rest' heq
  rw [List.append_assoc] at heq
  exact (h _ _ heq).1.elim

/-- Texts that begin with different characters begin no text both. -/
theorem reveals_cons_of_ne {c d : Char} (h : c ≠ d) (s t : List Char) :
  Reveals (c :: s) (d :: t) P
  := fun _ _ heq => absurd (List.cons.inj heq).1 h

theorem reveals_cons (c d : Char) :
  Reveals [c] [d] (c = d)
  := fun _ _ heq => List.cons.inj heq

/-- Texts up to the first occurrence of a character are the same. -/
theorem reveals_until {stop : Char} (hs : stop ∉ s) (ht : stop ∉ t) :
  Reveals (s ++ [stop]) (t ++ [stop]) (s = t)
  := by
  intro rest rest' heq
  have htake : ∀ {text : List Char} (rest : List Char), stop ∉ text →
      (text ++ [stop] ++ rest).takeWhile (· != stop) = text := by
    intro text rest htext
    have hall : ∀ c ∈ text, (c != stop) = true := by
      intro c hc
      simpa using ne_of_mem_of_not_mem hc htext
    rw [List.append_assoc, List.takeWhile_append_of_pos hall]
    simp
  have hst : s = t := by rw [← htake rest hs, heq, htake rest' ht]
  subst hst
  exact ⟨rfl, List.append_cancel_left heq⟩

/-! ### Sequences -/

section Sequences

variable {α : Type} {write : α → List Char} {gap close : List Char}

/-- What comes after an item: a separator and the next item, or the end. -/
def follow (write : α → List Char) (gap close : List Char) : List α → List Char
  | [] => close
  | x :: xs => gap ++ (write x ++ follow write gap close xs)

theorem intercalate_append (write : α → List Char) (gap close : List Char) (x : α) (xs : List α) :
  gap.intercalate ((x :: xs).map write) ++ close = write x ++ follow write gap close xs
  := by
  induction xs generalizing x with
  | nil => simp [follow]
  | cons y ys ih =>
    rw [follow, ← ih, List.map_cons, List.map_cons, List.intercalate_cons_cons]
    simp only [List.append_assoc]

/-- If the separator differs from the end, it is told at every item whether one more follows. -/
theorem reveals_follow (hgap : Reveals gap close False)
    (h : ∀ x y, Reveals (write x) (write y) (x = y)) (xs ys : List α) :
  Reveals (follow write gap close xs) (follow write gap close ys) (xs = ys)
  := by
  induction xs generalizing ys with
  | nil =>
    cases ys with
    | nil => exact (reveals_refl close).imp fun _ => rfl
    | cons y ys => exact hgap.symm.absurd_append _
  | cons x xs ih =>
    cases ys with
    | nil => exact (hgap.symm.absurd_append _).symm
    | cons y ys =>
      have hitems := (h x y).append fun _ => ih ys
      apply (hitems.after gap).imp
      rintro ⟨rfl, rfl⟩
      rfl

/-- Items with a separator between them tell which items they are, if each item tells which it is
and the separator differs from what comes after the last one. -/
theorem reveals_intercalate (hgap : Reveals gap close False)
    (h : ∀ x y, Reveals (write x) (write y) (x = y)) (x y : α) (xs ys : List α) :
  Reveals (gap.intercalate ((x :: xs).map write) ++ close)
    (gap.intercalate ((y :: ys).map write) ++ close) (x :: xs = y :: ys)
  := by
  rw [intercalate_append, intercalate_append]
  apply ((h x y).append fun _ => reveals_follow hgap h xs ys).imp
  rintro ⟨rfl, rfl⟩
  rfl

/-- Texts one after the other, none of them empty, tell which texts they are. -/
theorem flatMap_injective (h : ∀ x y, Reveals (write x) (write y) (x = y))
    (hne : ∀ x, write x ≠ []) :
  Function.Injective fun xs : List α => xs.flatMap write
  := by
  intro xs ys heq
  dsimp only at heq
  induction xs generalizing ys with
  | nil =>
    cases ys with
    | nil => rfl
    | cons y ys => simp [hne y] at heq
  | cons x xs ih =>
    cases ys with
    | nil => simp [hne x] at heq
    | cons y ys =>
      rw [List.flatMap_cons, List.flatMap_cons] at heq
      obtain ⟨rfl, hrest⟩ := h x y _ _ heq
      rw [ih hrest]

end Sequences

/-! ### Hexadecimal digits -/

namespace Quoted

/-- The value of a hexadecimal digit. -/
def digitValue (c : Char) : Nat :=
  if c.isDigit then c.toNat - '0'.toNat else c.toNat - 'a'.toNat + 10

/-- The number that hexadecimal digits stand for. -/
def number (digits : List Char) : Nat :=
  digits.foldl (fun n c => 16 * n + digitValue c) 0

theorem digitValue_digitChar :
  ∀ d < 16, digitValue d.digitChar = d
  := by decide

/-- The digits of a number stand for it, and they do not close a brace. -/
theorem number_toDigits (n : Nat) :
  number (Nat.toDigits 16 n) = n ∧ '}' ∉ Nat.toDigits 16 n
  := by
  induction n using Nat.strong_induction_on with
  | h n ih =>
    rw [Nat.toDigits_eq_if (by decide)]
    split
    · next hlt => simp [number, digitValue_digitChar n hlt]
    · next hge =>
      obtain ⟨hnumber, hnotin⟩ := ih (n / 16) (by omega)
      have hvalue := digitValue_digitChar (n % 16) (Nat.mod_lt _ (by decide))
      constructor
      · rw [number, List.foldl_append, ← number, hnumber]
        simp only [List.foldl_cons, List.foldl_nil, hvalue]
        omega
      · simp [hnotin]

theorem toDigits_injective {n m : Nat} (h : Nat.toDigits 16 n = Nat.toDigits 16 m) :
  n = m
  := by rw [← (number_toDigits n).1, h, (number_toDigits m).1]

/-! ### Spellings -/

/-- The characters that are spelled by a letter after a backslash, and these letters. -/
def letters : List (Char × Char) :=
  [('\x00', '0'), ('\t', 't'), ('\n', 'n'), ('\r', 'r'), ('\\', '\\'), ('"', '"')]

theorem letters_injective :
  ∀ entry ∈ letters, ∀ entry' ∈ letters, entry.2 = entry'.2 → entry.1 = entry'.1
  := by decide

theorem ne_of_mem_letters :
  ∀ entry ∈ letters, entry.2 ≠ 'u'
  := by decide

/-- The three ways to spell a character in double quotes. -/
inductive Spelling : Char → List Char → Prop where
  | letter {c letter : Char} (h : (c, letter) ∈ letters) : Spelling c ['\\', letter]
  | number (c : Char) : Spelling c (byNumber c)
  | self {c : Char} (hslash : c ≠ '\\') (hmark : c ≠ '"') : Spelling c [c]

theorem spelling_spell (c : Char) :
  Spelling c (spell '"' c)
  := by
  unfold spell
  split
  · next h =>
    subst h
    exact .letter (by decide)
  split
  · next h =>
    subst h
    exact .letter (by decide)
  split
  · next h =>
    subst h
    exact .letter (by decide)
  split
  · next h =>
    subst h
    exact .letter (by decide)
  split
  · next h =>
    rcases h with rfl | rfl
    · exact .letter (by decide)
    · exact .letter (by decide)
  · next h =>
    split
    · exact .number c
    · exact .self (not_or.mp h).1 (not_or.mp h).2

/-- A spelling tells the character. -/
theorem Spelling.reveals {c d : Char} (hs : Spelling c s) (ht : Spelling d t) :
  Reveals s t (c = d)
  := by
  cases hs with
  | letter hc =>
    cases ht with
    | letter hd =>
      apply ((reveals_cons _ _).after ['\\']).imp
      apply letters_injective _ hc _ hd
    | number => exact (reveals_cons_of_ne (ne_of_mem_letters _ hc) [] _).after ['\\']
    | self hslash => exact reveals_cons_of_ne hslash.symm _ _
  | number =>
    cases ht with
    | letter hd => exact (reveals_cons_of_ne (ne_of_mem_letters _ hd).symm _ []).after ['\\']
    | number =>
      have hdigits := reveals_until (number_toDigits c.toNat).2 (number_toDigits d.toNat).2
      apply (hdigits.after ['\\', 'u', '{']).imp
      intro h
      apply Char.toNat_inj.mp (toDigits_injective h)
    | self hslash => exact reveals_cons_of_ne hslash.symm _ _
  | self hslash =>
    cases ht with
    | letter => exact reveals_cons_of_ne hslash _ _
    | number => exact reveals_cons_of_ne hslash _ _
    | self => exact reveals_cons c d

/-- No spelling begins with the mark. -/
theorem Spelling.exists_cons {c : Char} (h : Spelling c s) :
  ∃ first rest, s = first :: rest ∧ first ≠ '"'
  := by
  cases h with
  | letter => exact ⟨_, _, rfl, by decide⟩
  | number => exact ⟨_, _, rfl, by decide⟩
  | self _ hmark => exact ⟨_, _, rfl, hmark⟩

/-! ### Quoted texts -/

theorem reveals_spell (cs ds : List Char) :
  Reveals (cs.flatMap (spell '"') ++ ['"']) (ds.flatMap (spell '"') ++ ['"']) (cs = ds)
  := by
  induction cs generalizing ds with
  | nil =>
    cases ds with
    | nil => exact (reveals_refl ['"']).imp fun _ => rfl
    | cons d ds =>
      obtain ⟨first, rest, hspell, hfirst⟩ := (spelling_spell d).exists_cons
      rw [List.flatMap_cons, hspell]
      exact reveals_cons_of_ne hfirst.symm _ _
  | cons c cs ih =>
    cases ds with
    | nil =>
      obtain ⟨first, rest, hspell, hfirst⟩ := (spelling_spell c).exists_cons
      rw [List.flatMap_cons, hspell]
      exact reveals_cons_of_ne hfirst _ _
    | cons d ds =>
      rw [List.flatMap_cons, List.flatMap_cons, List.append_assoc, List.append_assoc]
      apply (((spelling_spell c).reveals (spelling_spell d)).append fun _ => ih ds).imp
      rintro ⟨rfl, rfl⟩
      rfl

/-- Quoted texts tell what they quote. -/
theorem reveals_text (s t : String) :
  Reveals (text s).toList (text t).toList (s = t)
  := by
  rw [text, text, String.toList_ofList, String.toList_ofList, enclose, enclose]
  apply ((reveals_spell s.toList t.toList).after ['"']).imp
  apply String.toList_injective

end Quoted

end FrontEnd.Text
