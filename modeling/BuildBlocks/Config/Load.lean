import BuildBlocks.Config.Document
import BuildBlocks.Host

/-!
# Finding and loading configurations

The configuration is read from the file that was asked for, or else from the nearest
directory that holds an entry of the usual name, be it a file or not; without one there is a
default.  The chosen entry decides: a fault in it never makes another one count.
-/
namespace BuildBlocks

namespace Config
variable {m : Type → Type} [Monad m]

/-- The name under which a configuration is looked for. -/
def fileName : Text :=
  "useref.toml".toList

/-- The path of the configuration in a directory. -/
def pathIn (directory : Text) : Text :=
  if directory.getLast? = some '/' then directory ++ fileName
  else directory ++ '/' :: fileName

/-- The configuration that the text of the file at `path` describes. -/
def ofText (path document : Text) : Except ConfigError Config :=
  match ofDocument? document with
  | none => .error .malformed
  | some c =>
    match c.fault? with
    | none => .ok { c with path := some path }
    | some e => .error e

/-- The configuration in the file at `path`. -/
def loadFile (h : Host m) (path : Text) : m (Except ConfigError Config) := do
  match ← h.read path with
  | .error e => return .error (.unreadable e)
  | .ok document => return ofText path document

/-- The path of the configuration in the first of some directories that holds one. -/
def discover (h : Host m) : List Text → m (Option Text)
  | [] => return none
  | directory :: rest => do
    if ← h.pathExists (pathIn directory) then return some (pathIn directory)
    else discover h rest

/-- The configuration in the file that was asked for, or in the nearest one. -/
def loadChosen (h : Host m) (asked : Option Text) : m (Except ConfigError Config) := do
  match asked with
  | some path =>
    if ← h.pathExists path then loadFile h path
    else return .error (.notFound path)
  | none =>
    match ← discover h (← h.directories) with
    | some path => loadFile h path
    | none => return .ok default

/-- The configuration with the preview that the caller asks for, if it asks for any. -/
def withPreview? (c : Config) (preview : Option Bool) : Config :=
  { c with preview := preview.getD c.preview }

/-- The configuration for a command: the chosen one, with the caller's preview. -/
def load (h : Host m) (asked : Option Text) (preview : Option Bool) :
    m (Except ConfigError Config) := do
  match ← loadChosen h asked with
  | .ok c => return .ok (c.withPreview? preview)
  | .error e => return .error e

end Config
end BuildBlocks
