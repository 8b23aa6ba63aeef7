/-!
# Words of a command line

A word of a command line ends the options, names one option, names several options by their
letters, or is plain. An option that is named in full can bring its value with it.
-/

namespace FrontEnd.CommandLine

/-- What a word of a command line is. -/
inductive Word where
  /-- The word `--`, after which every word is plain. -/
  | endOfOptions
  /-- An option named in full, and the value after `=` if there is one. -/
  | long (name : String) (value : Option String)
  /-- Options named by their letters. -/
  | short (letters : List Char)
  | plain (text : String)
  deriving DecidableEq, Repr

/-- The name of an option and the value after the first `=`. -/
private def splitValue (cs : List Char) : Word :=
  let name := String.ofList (cs.takeWhile (· ≠ '='))
  match cs.dropWhile (· ≠ '=') with
  | [] => .long name none
  | _ :: value => .long name (some (String.ofList value))

/-- What a word is; a single `-` is plain. -/
def Word.ofString (word : String) : Word :=
  match word.toList with
  | ['-', '-'] => .endOfOptions
  | '-' :: '-' :: rest => splitValue rest
  | '-' :: letter :: rest => .short (letter :: rest)
  | _ => .plain word

end FrontEnd.CommandLine
