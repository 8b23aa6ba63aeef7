import FrontEnd.CommandLine.Options
import FrontEnd.CommandLine.Words

/-!
# Reading a command line

A command line is read from left to right: options, a command, and after it options and file
arguments, which may be mixed. The same options can stand on both sides of the command; what
stands after it counts for more. The threshold can also come from the environment, which
counts for less than both sides.

Reading stops at the first problem. A value that is a word of its own, and file arguments, are
held and looked at only when the next known option or the end of the side is reached, so that
an unknown option after them is the first problem.
-/

namespace FrontEnd.CommandLine

/-- Why no command is run. -/
inductive Stop where
  /-- Help was asked for. -/
  | help
  /-- The version was asked for. -/
  | version
  /-- Nothing was given at all. -/
  | nothing
  /-- There is no command. -/
  | noCommand
  /-- A word stands for no command. -/
  | unknownCommand
  /-- A word or an option has no meaning where it stands. -/
  | unknownArgument
  /-- A value is none that the option takes, or an option was given too often. -/
  | badValue
  /-- A value is missing or empty. -/
  | noValue
  /-- A value came with an option that takes none. -/
  | unusedValue
  /-- Options exclude each other. -/
  | conflict
  deriving DecidableEq, Repr

/-- What waits to be looked at. -/
inductive Held where
  /-- The threshold option, and the word after it if it was read. -/
  | threshold (value : Option String)
  /-- File arguments, in order. -/
  | files (names : List String)
  deriving DecidableEq, Repr

/-- What was read on one side of the command. -/
structure Side where
  verbose : Nat
  quiet : Nat
  given : Option Threshold
  files : List String
  held : Option Held
  deriving DecidableEq, Repr

namespace Side

/-- The side of which nothing was read. -/
def empty : Side :=
  ⟨0, 0, none, [], none⟩

/-- The threshold option is waiting for the word after it. -/
def isWaiting (side : Side) : Bool :=
  side.held == some (.threshold none)

/-- The side with the threshold that a value names; it can be given only once. -/
def setThreshold (side : Side) (value : String) : Except Stop Side :=
  match side.given with
  | some _ => .error .conflict
  | none =>
    match Threshold.ofText? value with
    | some threshold => .ok { side with given := some threshold }
    | none => .error .badValue

/-- The side with what was held looked at. -/
def settle (side : Side) : Except Stop Side :=
  match side.held with
  | none => .ok side
  | some (.threshold none) => .error .noValue
  | some (.threshold (some value)) => { side with held := none }.setThreshold value
  | some (.files names) =>
    if names.any String.isEmpty then .error .noValue
    else .ok { side with held := none, files := side.files ++ names }

/-- How often an option that counts can be given on one side. -/
def countLimit : Nat := 2

/-- The side with one option read that is named by its letter; `before` tells whether the side
is the one before the command. -/
def readLetter (before : Bool) (side : Side) (letter : Char) : Except Stop Side :=
  if letter = 'v' then do
    let side ← side.settle
    if side.verbose < countLimit then return { side with verbose := side.verbose + 1 }
    else throw .badValue
  else if letter = 'q' then do
    let side ← side.settle
    if side.quiet < countLimit then return { side with quiet := side.quiet + 1 }
    else throw .badValue
  else if letter = 'h' then do
    let _ ← side.settle
    throw .help
  else if letter = 'V' ∧ before then do
    let _ ← side.settle
    throw .version
  else .error .unknownArgument

/-- The side with one option read that is named in full. -/
def readLong (before : Bool) (side : Side) (name : String) (value : Option String) :
    Except Stop Side :=
  if name = "log-level" then do
    let side ← side.settle
    match value with
    | none => return { side with held := some (.threshold none) }
    | some value => side.setThreshold value
  else if name = "help" ∨ name = "version" ∧ before then
    match value with
    | some _ => .error .unusedValue
    | none => do
      let _ ← side.settle
      throw (if name = "help" then .help else .version)
  else .error .unknownArgument

/-- The side with one more file argument held. -/
def readFile (side : Side) (name : String) : Except Stop Side :=
  match side.held with
  | some (.files names) => .ok { side with held := some (.files (names ++ [name])) }
  | _ => do
    let side ← side.settle
    return { side with held := some (.files [name]) }

/-- The side at its end: everything held is looked at, and the value of the environment if
no threshold was given. -/
def close (side : Side) (environment : Option String) : Except Stop Side := do
  let side ← side.settle
  match environment with
  | none => return side
  | some value =>
    if side.given.isNone ∧ (Threshold.ofText? value).isNone then throw .badValue
    else return side

/-- More and less talk exclude each other on one side. -/
def checkTalk (side : Side) : Except Stop Unit :=
  if side.verbose ≠ 0 ∧ side.quiet ≠ 0 then .error .conflict else .ok ()

end Side

/-! ### The side before the command -/

/-- Whether a word is a command or the command for help. -/
def isCommandWord (word : String) : Bool :=
  (Command.ofWord? word).isSome || word == "help"

/-- What the command for help comes to with the words after it: at most one command. -/
def helpAbout : List String → Stop
  | [] => .help
  | [word] => if isCommandWord word then .help else .unknownCommand
  | _ => .unknownCommand

/-- The side before the command, and the command with the words after it if there is one. -/
def readBefore (side : Side) : List String → Except Stop (Side × Option (Command × List String))
  | [] => .ok (side, none)
  | word :: rest =>
    match Word.ofString word with
    | .endOfOptions =>
      match rest with
      | [] => .ok (side, none)
      | next :: _ => .error (if isCommandWord next then .unknownArgument else .unknownCommand)
    | .long name value => do
      readBefore (← side.readLong true name value) rest
    | .short letters => do
      readBefore (← letters.foldlM (Side.readLetter true) side) rest
    | .plain text =>
      if side.isWaiting then readBefore { side with held := some (.threshold (some text)) } rest
      else
        match Command.ofWord? text with
        | some command => .ok (side, some (command, rest))
        | none => .error (if text = "help" then helpAbout rest else .unknownCommand)

/-! ### The side after the command -/

/-- The side after the command. -/
def readAfter (side : Side) : List String → Except Stop Side
  | [] => .ok side
  | word :: rest =>
    match Word.ofString word with
    | .endOfOptions => rest.foldlM Side.readFile side
    | .long name value => do
      readAfter (← side.readLong false name value) rest
    | .short letters => do
      readAfter (← letters.foldlM (Side.readLetter false) side) rest
    | .plain text =>
      if side.isWaiting then readAfter { side with held := some (.threshold (some text)) } rest
      else do
        readAfter (← side.readFile text) rest

/-! ### Whole command lines -/

/-- The options of a command line, given the value of the environment. -/
def read (words : List String) (environment : Option String) : Except Stop Options := do
  let (before, found) ← readBefore .empty words
  match found with
  | none =>
    let before ← before.close environment
    if before = .empty ∧ environment.isNone then throw .nothing
    throw .noCommand
  | some (command, rest) =>
    let after ← (← readAfter .empty rest).close environment
    after.checkTalk
    let before ← before.close environment
    before.checkTalk
    return {
      verbose := if after.verbose = 0 then before.verbose else after.verbose
      quiet := if after.quiet = 0 then before.quiet else after.quiet
      given := after.given <|> before.given <|> environment.bind Threshold.ofText?
      command := command
      files := after.files }

end FrontEnd.CommandLine
