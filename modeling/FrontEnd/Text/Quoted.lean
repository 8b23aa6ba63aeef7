import FrontEnd.Text.Unprintable

/-!
# Quoted text

A text between two marks, with the mark itself and everything that would not be seen as it
is written by escapes: `\0 \t \n \r \\`, the mark after a backslash, and the characters of
`isUnprintable` by their number. Text is quoted with `"`, a single character with `'`, and
each leaves the mark of the other as it is.
-/

namespace FrontEnd.Text.Quoted

/-- The spelling of a character by its number, in lower-case hexadecimal digits. -/
def byNumber (c : Char) : List Char :=
  ['\\', 'u', '{'] ++ Nat.toDigits 16 c.toNat ++ ['}']

/-- The spelling of a character between two marks `mark`. -/
def spell (mark c : Char) : List Char :=
  if c = '\x00' then ['\\', '0']
  else if c = '\t' then ['\\', 't']
  else if c = '\n' then ['\\', 'n']
  else if c = '\r' then ['\\', 'r']
  else if c = '\\' ∨ c = mark then ['\\', c]
  else if isUnprintable c then byNumber c
  else [c]

/-- The characters of a text between two marks `mark`. -/
def enclose (mark : Char) (cs : List Char) : List Char :=
  mark :: cs.flatMap (spell mark) ++ [mark]

/-- A text in double quotes. -/
def text (s : String) : String :=
  String.ofList (enclose '"' s.toList)

/-- A character in single quotes. -/
def char (c : Char) : String :=
  String.ofList (enclose '\'' [c])

end FrontEnd.Text.Quoted
