import BuildBlocks.Options
import BuildBlocks.Template

/-!
# Configurations

A configuration turns the preview on or off and gives a template to custom block types.  It
is valid when no template is empty and every template can be registered for its type; faults
are reported in the order of the type names, empty templates before all others.
-/
namespace BuildBlocks
open Text

/-- Why a file cannot be read or written. -/
inductive FileError where
  | notFound
  | notDirectory
  | isDirectory
  /-- The path, or a name in it, is longer than the system takes. -/
  | nameTooLong
  /-- The bytes of the file are no text. -/
  | notText
  /-- Any other reason, in the words of the system. -/
  | other (description : Text)
  deriving DecidableEq, Repr

namespace FileError

/-- The error in words. -/
def message : FileError → Text
  | notFound => "No such file or directory (os error 2)".toList
  | notDirectory => "Not a directory (os error 20)".toList
  | isDirectory => "Is a directory (os error 21)".toList
  | nameTooLong => "File name too long (os error 36)".toList
  | notText => "stream did not contain valid UTF-8".toList
  | other description => description

end FileError

/-- Why there is no configuration. -/
inductive ConfigError where
  /-- No file stands at the path that was asked for. -/
  | notFound (path : Text)
  | unreadable (cause : FileError)
  /-- The file is no document of the expected form. -/
  | malformed
  | emptyTemplate (kind : Text)
  | handler (cause : HandlerError)
  deriving DecidableEq, Repr

namespace ConfigError

/-- The error in words. -/
def message : ConfigError → Text
  | notFound path => "Configuration file not found: ".toList ++ path
  | unreadable cause => "I/O error: ".toList ++ cause.message
  | malformed => "TOML parse error".toList
  | emptyTemplate kind =>
    "Configuration error: handlers.".toList ++ kind ++ ".template cannot be empty".toList
  | handler cause => "Configuration error: ".toList ++ cause.message

end ConfigError

/-- A configuration. -/
structure Config where
  /-- Whether blocks are replaced by their own content instead of a reference. -/
  preview : Bool
  /-- The templates of custom block types, by type name. -/
  templates : SortedMap Text
  /-- The file that the configuration was read from. -/
  path : Option Text
  deriving DecidableEq

namespace Config

/-- The configuration without a file. -/
def default : Config :=
  ⟨false, .empty, none⟩

/-- The options with a template registered as the handler of a type. -/
def registerTemplate (o : Options) (kind template : Text) : Except HandlerError Options :=
  match Template.parse kind template with
  | .ok t => o.register kind t.handler
  | .error e => .error e

/-- The options with the templates of a list of types registered one after the other. -/
def registerAll (o : Options) : List (Text × Text) → Except HandlerError Options
  | [] => .ok o
  | (kind, template) :: rest =>
    match registerTemplate o kind template with
    | .ok o => registerAll o rest
    | .error e => .error e

/-- The options that the configuration describes. -/
def options (c : Config) : Except HandlerError Options :=
  registerAll (Options.default.withPreview c.preview) c.templates.entries

/-- The first fault of a configuration. -/
def fault? (c : Config) : Option ConfigError :=
  match c.templates.entries.find? fun e => e.2.isEmpty with
  | some (kind, _) => some (.emptyTemplate kind)
  | none =>
    match c.options with
    | .ok _ => none
    | .error e => some (.handler e)

end Config
end BuildBlocks
