import BuildBlocks.CommandLine.Run
import BuildBlocks.FileTree

/-!
# The program

Runs a command on the files of the machine: the document or the manifest goes to standard
output, everything else that the user is told to standard error.
-/
namespace BuildBlocks
namespace Machine

/-- The reason behind a failed operation on a file. -/
def fileError (e : IO.Error) : FileError :=
  match e with
  | .noFileOrDirectory _ _ _ => .notFound
  | .inappropriateType _ code _ => if code = 21 then .isDirectory else .notDirectory
  | .invalidArgument (some _) 36 _ => .nameTooLong
  | e => .other e.toString.toList

/-- The outcome of an operation on a file. -/
def attempt {α : Type} (action : IO α) : IO (Except FileError α) := do
  try
    return .ok (← action)
  catch e =>
    return .error (fileError e)

/-- The text of a file. -/
def readText (path : Text) : IO (Except FileError Text) := do
  match ← attempt (IO.FS.readBinFile (String.ofList path)) with
  | .error e => return .error e
  | .ok bytes =>
    match String.fromUTF8? bytes with
    | some s => return .ok s.toList
    | none => return .error .notText

/-- The directories that a path from the root names, from the nearest on. -/
def directoriesOf (path : Text) : List Text :=
  let names := (Text.splitOn '/' path).filter (!·.isEmpty)
  (FileTree.ancestors names).map FileTree.pathOf

/-- The machine as a host. -/
def host : Host IO where
  pathExists path := do
    ((← IO.currentDir) / String.ofList path).pathExists
  read := readText
  write path content :=
    attempt (IO.FS.writeFile (String.ofList path) (String.ofList content))
  directories := do
    return directoriesOf (← IO.currentDir).toString.toList

/-- A notice as it is shown, unless the filter holds it back. -/
def shown? (filter : Log.Filter) : CommandLine.Notice → Option Text
  | .line t => some t
  | .event e =>
    if filter.passes e then some (e.level.name ++ ' ' :: e.target ++ ": ".toList ++ e.text)
    else none

end Machine
end BuildBlocks

open BuildBlocks in
/-- Runs the command that the arguments ask for. -/
def main (arguments : List String) : IO UInt32 := do
  let request := CommandLine.readRequest (arguments.map String.toList)
  let environment := (← IO.getEnv "RUST_LOG").map String.toList
  let filter := Log.Filter.choose (CommandLine.isVerbose request) environment
  let report ← CommandLine.run Machine.host request
  for notice in report.notices do
    match Machine.shown? filter notice with
    | some t => IO.eprintln (String.ofList t)
    | none => pure ()
  IO.print (String.ofList report.output)
  return UInt32.ofNat report.exitCode
