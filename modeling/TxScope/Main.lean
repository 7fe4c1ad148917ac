import TxScope.Command.Run

/-!
# The program

Hands the arguments, the environment and the files that a run may look at to `Invocation.run`, and
does what comes out: new files, the two outputs and the exit code.
-/

namespace TxScope

/-- The variables in a block that ends each of them with a zero character. -/
def variablesOfBlock (block : String) : List (String × String) :=
  (block.splitOn "\x00").filterMap fun entry =>
    match entry.splitOn "=" with
    | name :: value :: more => some (name, String.intercalate "=" (value :: more))
    | _ => none

def readEnvironment : IO (List (String × String)) := do
  try
    let block ← IO.FS.readBinFile "/proc/self/environ"
    return variablesOfBlock ((String.fromUTF8? block).getD "")
  catch _ => return []

/-- What a name stands for, as far as it can be read. -/
def readEntry? (name : String) : IO (Option (String × FileEntry)) := do
  try
    return some (name, .file (← IO.FS.readFile name))
  catch
    | .inappropriateType _ 21 _ => return some (name, .directory)
    | _ => return none

def readWorkspace (names : List String) : IO Workspace := do
  let entries ← names.filterMapM fun name => readEntry? name
  return .ofEntries entries

/-- Makes a new entry of the workspace. -/
def makeEntry (path : FilePath) (entry : FileEntry) : IO Unit := do
  let steps := String.intercalate "/" path.parts
  let name := if path.absolute then "/" ++ steps else steps
  match entry with
  | .directory => IO.FS.createDirAll name
  | .file _ => discard (IO.FS.Handle.mk name .append)

/-- Writes what a run ends with. -/
def writeEnding (ending : Ending) : IO UInt32 := do
  IO.print ending.output
  match ending.errorLine? with
  | some line => IO.eprintln line
  | none => pure ()
  match ending with
  | .misused message =>
    IO.eprintln s!"error: {message}"
    return 2
  | .serving bind _ =>
    IO.eprintln s!"Error: listening at {bind} is not available"
    return 1
  | ending => return ending.exitCode.toUInt32

end TxScope

open TxScope in
def main (args : List String) : IO UInt32 := do
  let workspace ← readWorkspace (Invocation.neededFiles args)
  let input ← if Invocation.needsInput args then (← IO.getStdin).readToEnd else pure ""
  let environment ← readEnvironment
  let (ending, left) := Invocation.run { args, environment, workspace, input }
  try
    for (path, entry) in left.entries.drop workspace.entries.length do
      makeEntry path entry
    writeEnding ending
  catch _ => return Ending.broken.exitCode.toUInt32
