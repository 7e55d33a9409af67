import BuildBlocks.Text.Basic

/-!
# Arguments of a command

A command is named by the first argument; its document, its options and its flags follow in
any order.  An option takes its value from the same argument or from the next one, short
flags can be put together, and everything after `--` is a document.  No option, flag or
document is given twice, and no value is empty.
-/
namespace BuildBlocks
open Text

namespace CommandLine

/-- What the options and flags of a command have been given so far. -/
structure Settings where
  /-- The document. -/
  input : Option Text
  /-- Where the transformed document goes. -/
  output : Option Text
  /-- Where the manifest goes. -/
  manifest : Option Text
  /-- The configuration file. -/
  config : Option Text
  /-- Whether a preview is asked for. -/
  preview : Bool
  verbose : Bool
  deriving DecidableEq, Repr

namespace Settings

/-- Nothing is given. -/
def empty : Settings :=
  ⟨none, none, none, none, false, false⟩

end Settings

/-- The two commands. -/
inductive Command where
  | transform
  | manifest
  deriving DecidableEq, Repr

/-- The options that take a value. -/
inductive ValueOption where
  | output
  | manifest
  | config
  deriving DecidableEq, Repr

/-- The flags. -/
inductive Flag where
  | preview
  | verbose
  | help
  deriving DecidableEq, Repr

/-- What an argument that starts with a dash can name. -/
inductive Switch where
  | option (o : ValueOption)
  | flag (f : Flag)
  deriving DecidableEq, Repr

namespace Command

/-- The switches that a command knows, with their long names and, if they have them, their
letters. -/
def switches : Command → List (Text × Option Char × Switch)
  | transform =>
    [("output".toList, some 'o', .option .output),
      ("manifest".toList, some 'm', .option .manifest),
      ("noconcat".toList, none, .flag .preview),
      ("config".toList, some 'c', .option .config),
      ("verbose".toList, some 'v', .flag .verbose),
      ("help".toList, some 'h', .flag .help)]
  | manifest =>
    [("config".toList, some 'c', .option .config),
      ("verbose".toList, some 'v', .flag .verbose),
      ("help".toList, some 'h', .flag .help)]

/-- The switch with a long name. -/
def long? (c : Command) (name : Text) : Option Switch :=
  (c.switches.find? fun s => s.1 = name).map fun s => s.2.2

/-- The switch with a letter. -/
def short? (c : Command) (letter : Char) : Option Switch :=
  (c.switches.find? fun s => s.2.1 = some letter).map fun s => s.2.2

end Command

/-- What a list of arguments asks for. -/
inductive Request where
  /-- The version of the program. -/
  | version
  /-- How the program is used. -/
  | help
  /-- A command on a document. -/
  | run (command : Command) (input : Text) (settings : Settings)
  deriving DecidableEq, Repr

/-- A slot filled with a value that is not empty, if the slot is free. -/
def fill (slot : Option Text) (value : Text) : Option (Option Text) :=
  if slot.isSome || value.isEmpty then none else some (some value)

namespace Settings

/-- The settings with one more document. -/
def withInput (s : Settings) (value : Text) : Option Settings :=
  (fill s.input value).map fun input => { s with input }

/-- The settings with the value of an option. -/
def withOption (s : Settings) (value : Text) : ValueOption → Option Settings
  | .output => (fill s.output value).map fun output => { s with output }
  | .manifest => (fill s.manifest value).map fun manifest => { s with manifest }
  | .config => (fill s.config value).map fun config => { s with config }

/-- The settings with a flag. -/
def withFlag (s : Settings) : Flag → Option Settings
  | .preview => if s.preview then none else some { s with preview := true }
  | .verbose => if s.verbose then none else some { s with verbose := true }
  | .help => some s

end Settings

/-- Where reading an argument leads. -/
inductive Progress where
  /-- The settings after it. -/
  | go (s : Settings)
  /-- An option that needs the next argument. -/
  | need (o : ValueOption) (s : Settings)
  /-- The user asks how the program is used. -/
  | help
  /-- The argument makes no sense. -/
  | refuse
  deriving DecidableEq, Repr

/-- The progress after settings that may not be possible. -/
def Progress.ofSettings? : Option Settings → Progress
  | some s => go s
  | none => refuse

/-- Reads the letters of an argument after its dash.  The value of an option is the rest of
the argument, without an equals sign in front, or else the next argument. -/
def readLetters (c : Command) (s : Settings) : Text → Progress
  | [] => .go s
  | letter :: rest =>
    match c.short? letter with
    | none => .refuse
    | some (.flag .help) => .help
    | some (.flag f) =>
      match s.withFlag f with
      | some s => readLetters c s rest
      | none => .refuse
    | some (.option o) =>
      match rest with
      | [] => .need o s
      | '=' :: value => .ofSettings? (s.withOption value o)
      | value => .ofSettings? (s.withOption value o)

/-- Reads an argument after its two dashes. -/
def readLong (c : Command) (s : Settings) (t : Text) : Progress :=
  match cut? ['='] t with
  | some (name, value) =>
    match c.long? name with
    | some (.option o) => .ofSettings? (s.withOption value o)
    | _ => .refuse
  | none =>
    match c.long? t with
    | some (.option o) => .need o s
    | some (.flag .help) => .help
    | some (.flag f) => .ofSettings? (s.withFlag f)
    | none => .refuse

/-- Whether an argument is a value, and no switch. -/
def isValue : Text → Bool
  | ['-'] => true
  | '-' :: _ => false
  | _ => true

/-- Reads arguments that are all documents. -/
def readInputs (s : Settings) : List Text → Option Settings
  | [] => some s
  | t :: rest => (s.withInput t).bind fun s => readInputs s rest

/-- The request of settings that are complete when they name a document. -/
def finish (c : Command) (s : Settings) : Option Request :=
  s.input.map fun input => .run c input s

/-- Reads the arguments of a command; `needed` is the option whose value comes next. -/
def readArguments (c : Command) : Settings → (needed : Option ValueOption) → List Text →
    Option Request
  | s, none, [] => finish c s
  | _, some _, [] => none
  | s, some o, t :: rest =>
    if isValue t then (s.withOption t o).bind fun s => readArguments c s none rest else none
  | s, none, t :: rest =>
    if isValue t then (s.withInput t).bind fun s => readArguments c s none rest
    else if t = ['-', '-'] then (readInputs s rest).bind (finish c)
    else
      let progress := match t with
        | '-' :: '-' :: name => readLong c s name
        | letters => readLetters c s letters.tail
      match progress with
      | .go s => readArguments c s none rest
      | .need o s => readArguments c s (some o) rest
      | .help => some .help
      | .refuse => none

/-- Whether the user can ask how the words of a list are used: no word, or one that the first
argument can be. -/
def isTopic : List Text → Bool
  | [] => true
  | [t] => t = "transform".toList || t = "manifest".toList || t = "help".toList
  | _ => false

/-- What a list of arguments asks for; nothing when it makes no sense. -/
def readRequest : List Text → Option Request
  | [] => none
  | t :: rest =>
    if t = "transform".toList then readArguments .transform .empty none rest
    else if t = "manifest".toList then readArguments .manifest .empty none rest
    else if t = "--version".toList ∨ t.take 2 = "-V".toList then some .version
    else if t = "--help".toList ∨ t.take 2 = "-h".toList then some .help
    else if t = "help".toList ∧ isTopic rest then some .help
    else none

end CommandLine
end BuildBlocks
