import BuildBlocks.CommandLine.Arguments
import BuildBlocks.Config.Load
import BuildBlocks.Log.Filter
import BuildBlocks.Manifest.Written

/-!
# Running a command

A command loads its configuration, reads its document and transforms it; then the resulting
document goes to a file or to the output, and the manifest to a file if one is named.  What
the user is told, and how the run ends, is its report.  The first error ends a run: what was
written before it stays.
-/
namespace BuildBlocks
open Text

namespace CommandLine
variable {m : Type → Type} [Monad m]

/-- Why a run fails. -/
inductive RunError where
  | config (cause : ConfigError)
  /-- The document cannot be read. -/
  | input (path : Text) (cause : FileError)
  /-- A result cannot be written. -/
  | output (cause : FileError)
  deriving DecidableEq, Repr

namespace RunError

/-- The error in words. -/
def message : RunError → Text
  | config cause => cause.message
  | input path cause => "Failed to read ".toList ++ path ++ ": ".toList ++ cause.message
  | output cause => cause.message

end RunError

/-- Something that the user is told beside the output. -/
inductive Notice where
  /-- An event, which a log filter can hold back. -/
  | event (e : Event)
  /-- A line of text. -/
  | line (t : Text)
  deriving DecidableEq, Repr

/-- What a run leaves beside the files that it writes. -/
structure Report where
  /-- Zero when the run succeeds. -/
  exitCode : Nat
  /-- The text that goes to the output. -/
  output : Text
  /-- What the user is told, in order. -/
  notices : List Notice
  deriving DecidableEq, Repr

/-- The line about a block that nothing closes. -/
def warning (input : Text) (b : UnterminatedBlock) : Text :=
  "Warning: ".toList ++ input ++ ':' :: numeral b.line ++ ": build:".toList ++ b.kind ++
    " block has no endbuild, left unchanged".toList

/-- The line about an error that ends a run. -/
def errorLine (e : RunError) : Text :=
  "Error: ".toList ++ e.message

/-- The event of a loaded configuration. -/
def configLoaded (path : Text) : Event :=
  ⟨.info, Event.commandTarget, "Loaded configuration".toList, [("path".toList, path)]⟩

/-- The event of a transformed document. -/
def inputTransformed (input : Text) (manifest : Manifest) : Event :=
  ⟨.info, Event.commandTarget, "Transformed document".toList,
    [("input".toList, input), Event.entriesField manifest]⟩

/-- The manifest as it is written by a command. -/
def manifestText (t : Transformed) : Text :=
  t.manifest.write ++ ['\n']

/-- What the user is told once a document is transformed. -/
def transformNotices (input document : Text) (o : Options) : List Notice :=
  let t := transform document o
  (Event.ofDocument document o ++ [inputTransformed input t.manifest]).map .event ++
    t.unterminated.map fun b => .line (warning input b)

/-- Loads the configuration, reads the document and transforms it.  The answer comes with
what the user is told up to there. -/
def transformInput (h : Host m) (config : Option Text) (preview : Option Bool) (input : Text) :
    m (List Notice × Except RunError Transformed) := do
  match ← Config.load h config preview with
  | .error e => return ([], .error (.config e))
  | .ok c =>
    let loaded := (c.path.map fun path => Notice.event (configLoaded path)).toList
    match c.options with
    | .error e => return (loaded, .error (.config (.handler e)))
    | .ok o =>
      match ← h.read input with
      | .error e => return (loaded, .error (.input input e))
      | .ok document =>
        return (loaded ++ transformNotices input document o, .ok (transform document o))

/-- The report of a run that fails. -/
def failed (output : Text) (notices : List Notice) (e : RunError) : Report :=
  ⟨1, output, notices ++ [.line (errorLine e)]⟩

/-- Writes a text to a file, if one is named. -/
def writeTo (h : Host m) (path : Option Text) (content : Text) : m (Except FileError Unit) :=
  match path with
  | some path => h.write path content
  | none => return .ok ()

/-- Transforms a document and writes the results. -/
def runTransform (h : Host m) (input : Text) (s : Settings) : m Report := do
  let (notices, answer) ← transformInput h s.config (if s.preview then some true else none) input
  match answer with
  | .error e => return failed [] notices e
  | .ok t =>
    let output := if s.output.isSome then [] else t.content
    match ← writeTo h s.output t.content with
    | .error e => return failed [] notices (.output e)
    | .ok () =>
      match ← writeTo h s.manifest (manifestText t) with
      | .error e => return failed output notices (.output e)
      | .ok () =>
        let written := s.output.map fun path => Notice.line ("Wrote ".toList ++ path)
        let listed := s.manifest.map fun path =>
          Notice.line ("Wrote manifest to ".toList ++ path)
        return ⟨0, output, notices ++ written.toList ++ listed.toList⟩

/-- Shows the manifest of a document. -/
def runManifest (h : Host m) (input : Text) (s : Settings) : m Report := do
  let (notices, answer) ← transformInput h s.config none input
  match answer with
  | .error e => return failed [] notices e
  | .ok t => return ⟨0, manifestText t, notices⟩

/-- The line that names the program and its version. -/
def versionLine : Text :=
  "useref 0.1.0\n".toList

/-- How the program is used. -/
def usage : Text :=
  ("Usage: useref transform INPUT [-o FILE] [-m FILE] [--noconcat] [-c FILE] [-v]\n" ++
    "       useref manifest INPUT [-c FILE] [-v]\n").toList

/-- Does what is asked for; arguments that make no sense end the run with code 2. -/
def run (h : Host m) : Option Request → m Report
  | none => return ⟨2, [], [.line usage]⟩
  | some .version => return ⟨0, versionLine, []⟩
  | some .help => return ⟨0, usage, []⟩
  | some (.run .transform input s) => runTransform h input s
  | some (.run .manifest input s) => runManifest h input s

/-- Whether a request asks for all that happens to be told. -/
def isVerbose : Option Request → Bool
  | some (.run _ _ s) => s.verbose
  | _ => false

end CommandLine
end BuildBlocks
