import FrontEnd.CommandLine.Options
import FrontEnd.Source.Script

/-!
# Stores

What a command can read: files and directories under names, and the standard input. A path is
followed step by step, an absolute one from the root and any other from the directory of the
store; what lies above that directory is not known. A directory can be opened, but reading it
fails. The standard input can be read once, and is empty afterwards.
-/

namespace FrontEnd.CommandLine

/-- What stands under a name. -/
inductive Entry where
  | file (bytes : List UInt8)
  | directory
  deriving DecidableEq, Repr

/-- Files and directories by their paths, and the bytes of the standard input. -/
structure Store where
  entries : List (List String × Entry)
  input : List UInt8
  deriving DecidableEq, Repr

namespace Store

/-- The steps of a path. -/
def stepsOf (path : String) : List String :=
  path.splitOn "/"

/-- Whether a step stays in the directory where it is taken. -/
def isStay (step : String) : Bool :=
  step == "" || step == "."

/-- The root, as the place where an absolute path begins: no other step is empty. -/
def root : List String := [""]

/-- The steps that a path takes, and from the root on if it is absolute. -/
def placeOf (path : String) : List String :=
  match stepsOf path with
  | "" :: rest => root ++ rest.filter fun step => !isStay step
  | steps => steps.filter fun step => !isStay step

/-- What every machine holds under absolute names: the null device, which reads as an empty
file, and directories. -/
def machine : List (String × Entry) :=
  [("/dev/null", .file []), ("/bin", .directory), ("/etc", .directory), ("/home", .directory),
    ("/proc", .directory), ("/sys", .directory), ("/tmp", .directory), ("/usr", .directory),
    ("/var", .directory)]

/-- The store with these named entries on a machine; a name can hold several steps. -/
def ofEntries (entries : List (String × Entry)) (input : List UInt8) : Store :=
  ⟨(entries ++ machine).map fun entry => (placeOf entry.1, entry.2), input⟩

/-- The directory that a directory stands in, if it is known. The root stands in itself. -/
def parent? (directory : List String) : Option (List String) :=
  if directory.isEmpty then none
  else if directory = root then some root
  else some directory.dropLast

/-- What stands at the end of some steps. A directory stands also where a longer path leads
through. -/
def lookup? (store : Store) (steps : List String) : Option Entry :=
  match store.entries.find? fun entry => entry.1 == steps with
  | some entry => some entry.2
  | none =>
    if steps.isEmpty || store.entries.any fun entry => steps.isPrefixOf entry.1 then some .directory
    else none

/-- The most bytes that a step of a path can have. -/
def stepLimit : Nat := 255

/-- The most bytes that a path can have. -/
def pathLimit : Nat := 4095

/-- What stands at the end of the steps, from a directory on, or from an unknown one. -/
def follow (store : Store) : Option (List String) → List String → Except Failure Entry
  | _, [] => .ok .directory
  | directory, step :: rest =>
    if isStay step then store.follow directory rest
    else if step = ".." then store.follow (directory.bind parent?) rest
    else if step.utf8ByteSize > stepLimit then .error .longName
    else
      match directory.bind fun steps => store.lookup? (steps ++ [step]) with
      | none => .error .missing
      | some .directory => store.follow (directory.map (· ++ [step])) rest
      | some (.file bytes) => if rest.isEmpty then .ok (.file bytes) else .error .notDirectory

/-- What stands at the end of a path. -/
def find (store : Store) (path : String) : Except Failure Entry :=
  if path.utf8ByteSize > pathLimit then .error .longName
  else
    match stepsOf path with
    | "" :: rest => store.follow (some root) rest
    | steps => store.follow (some []) steps

/-- The source that a place opens, and the store afterwards. -/
def openPlace (store : Store) : Place → Except Failure Source × Store
  | .input => (.ok (.ofBytes store.input), { store with input := [] })
  | .file path =>
    match store.find path with
    | .error failure => (.error failure, store)
    | .ok .directory => (.ok (.ofEvents [.failure .directory]), store)
    | .ok (.file bytes) => (.ok (.ofBytes bytes), store)

/-- The sources that places open, one after the other. -/
def openPlaces (store : Store) : List Place → List (Place × Except Failure Source)
  | [] => []
  | place :: rest =>
    (place, (store.openPlace place).1) :: (store.openPlace place).2.openPlaces rest

end Store

end FrontEnd.CommandLine
