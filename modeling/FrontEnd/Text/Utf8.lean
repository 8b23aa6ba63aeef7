/-!
# UTF-8

A lead byte announces how many continuation bytes follow it (`announced`); lead and
continuation bytes together stand for a number (`value`), and the sequence is well formed if
that number is a scalar value that needs this many bytes. `scalar` gives the character of a
complete sequence, and the replacement character for one that is not well formed.

`decode` splits bytes into such sequences. A byte that announces nothing, and a lead byte with
fewer continuation bytes than announced, stand for the replacement character; the byte that
broke the sequence begins the next one.
-/

namespace FrontEnd.Text.Utf8

/-- The character that takes the place of bytes that spell none. -/
def replacement : Char := '\uFFFD'

/-- The number of continuation bytes that a lead byte announces; none if no sequence begins
with this byte. -/
def announced (lead : UInt8) : Option Nat :=
  if lead.toNat ≤ 0x7F then some 0
  else if 0xC2 ≤ lead.toNat ∧ lead.toNat ≤ 0xDF then some 1
  else if 0xE0 ≤ lead.toNat ∧ lead.toNat ≤ 0xEF then some 2
  else if 0xF0 ≤ lead.toNat ∧ lead.toNat ≤ 0xF4 then some 3
  else none

/-- Whether a byte continues a sequence. -/
def continues (b : UInt8) : Bool :=
  0x80 ≤ b.toNat && b.toNat ≤ 0xBF

/-- The part of the number that the lead byte of a sequence with `count` continuation bytes
holds: its bits below the announcement. -/
def leadValue (lead : UInt8) (count : Nat) : Nat :=
  if count = 0 then lead.toNat else lead.toNat % (1 <<< (6 - count))

/-- The number that a sequence stands for; every continuation byte holds six bits. -/
def value (lead : UInt8) (tail : List UInt8) : Nat :=
  tail.foldl (fun n b => n * 64 + b.toNat % 64) (leadValue lead tail.length)

/-- The least number that needs `count` continuation bytes. -/
def leastValue : Nat → Nat
  | 0 => 0
  | 1 => 0x80
  | 2 => 0x800
  | _ => 0x10000

/-- The sequence stands for a scalar value, in as few bytes as possible. -/
def WellFormed (lead : UInt8) (tail : List UInt8) : Prop :=
  leastValue tail.length ≤ value lead tail ∧ (value lead tail).isValidChar

instance (lead : UInt8) (tail : List UInt8) : Decidable (WellFormed lead tail) :=
  inferInstanceAs (Decidable (_ ∧ _))

/-- The character of a complete sequence. -/
def scalar (lead : UInt8) (tail : List UInt8) : Char :=
  if WellFormed lead tail then Char.ofNat (value lead tail) else replacement

/-- At most `count` continuation bytes from the front, and the rest. -/
def takeTail : Nat → List UInt8 → List UInt8 × List UInt8
  | 0, bytes => ([], bytes)
  | _ + 1, [] => ([], [])
  | count + 1, b :: rest =>
    if continues b then
      let (tail, rest) := takeTail count rest
      (b :: tail, rest)
    else ([], b :: rest)

theorem append_takeTail (count : Nat) (bytes : List UInt8) :
  (takeTail count bytes).1 ++ (takeTail count bytes).2 = bytes
  := by
  fun_induction takeTail count bytes with
  | case1 => rfl
  | case2 => rfl
  | case3 count b rest _ tail rest' h ih =>
    simp only [h] at ih
    simp [ih]
  | case4 => rfl

theorem length_takeTail_le (count : Nat) (bytes : List UInt8) :
  (takeTail count bytes).2.length ≤ bytes.length
  := by
  have h := congrArg List.length (append_takeTail count bytes)
  rw [List.length_append] at h
  omega

/-- The characters that bytes spell. -/
def decode : List UInt8 → List Char
  | [] => []
  | lead :: rest =>
    match announced lead with
    | none => replacement :: decode rest
    | some count =>
      let c := if (takeTail count rest).1.length = count then scalar lead (takeTail count rest).1
        else replacement
      c :: decode (takeTail count rest).2
termination_by bytes => bytes.length
decreasing_by
  · simp
  · have h := length_takeTail_le count rest
    simp only [List.length_cons]
    omega

/-- The bytes that spell a text. -/
def encode (s : String) : List UInt8 :=
  s.toList.flatMap String.utf8EncodeChar

end FrontEnd.Text.Utf8
