import BuildBlocks.Text.Blank

/-!
# Directives

A build block is opened by a directive, a comment such as
`<!-- build:js(app) scripts/app.js defer -->`, and closed by an end marker,
`<!-- endbuild -->`.  `Directive.parse` reads the leftmost complete directive of a line and
`isEndMarker` tells whether an end marker stands anywhere on it.

A target may touch the closer of the comment, search paths count only when a closer
follows their parenthesis, and the attributes reach up to the last closer of the line.
-/
namespace BuildBlocks
open Text

/-- What a block is made of, as its directive names it. -/
inductive BlockType where
  /-- Stylesheets. -/
  | css
  /-- Scripts. -/
  | js
  /-- Text that is dropped. -/
  | remove
  /-- Anything else, which only a handler can replace. -/
  | custom (name : Text)
  deriving DecidableEq, Repr

namespace BlockType

/-- The type that a name stands for. -/
def ofName (name : Text) : BlockType :=
  if name = "css".toList then css
  else if name = "js".toList then js
  else if name = "remove".toList then remove
  else custom name

/-- The characters of a type name: Latin letters, digits and the underscore. -/
def isNameCharacter (c : Char) : Bool :=
  c.isAlphanum || c == '_'

/-- Whether a directive can carry the name. -/
def isName (name : Text) : Bool :=
  !name.isEmpty && name.all isNameCharacter

end BlockType

/-- What a directive says about the block that it opens. -/
structure Directive where
  /-- The name of the block's type. -/
  kind : Text
  /-- The text in parentheses after the type: where assets are looked for. -/
  searchPaths : Option Text
  /-- The artifact that the block is built into. -/
  target : Option Text
  /-- Attributes for the reference to the artifact. -/
  attributes : Option Text
  deriving DecidableEq, Repr

namespace Directive

/-- What can open the comment of a directive. -/
def openers : List Text :=
  ["<!--".toList, "//-".toList]

/-- What closes the comment of a directive. -/
def closer : Text :=
  "-->".toList

/-- The target of a directive that names none. -/
def defaultTarget : Text :=
  "replace".toList

/-- The type of the block. -/
def blockType (d : Directive) : BlockType :=
  .ofName d.kind

/-- The target, or the default one. -/
def targetOrDefault (d : Directive) : Text :=
  d.target.getD defaultTarget

/-- What follows the opener that the text starts with. -/
def afterOpener? (t : Text) : Option Text :=
  openers.findSome? fun opener => after? opener t

/-- The text, or nothing when it is empty. -/
def nonempty? (t : Text) : Option Text :=
  if t.isEmpty then none else some t

/-- The text in the parentheses that `t` starts with, and what follows them.  Empty
parentheses are none. -/
def parenthesized? (t : Text) : Option (Text × Text) :=
  match after? ['('] t with
  | none => none
  | some inside =>
    match cut? [')'] inside with
    | some (paths, rest) => if paths.isEmpty then none else some (paths, rest)
    | none => none

/-- The search paths that `t` starts with, if a closer follows them, and the rest. -/
def splitSearchPaths (t : Text) : Option Text × Text :=
  match parenthesized? t with
  | some (paths, rest) => if holds closer rest then (some paths, rest) else (none, t)
  | none => (none, t)

/-- The target that `t` starts with and the rest.  A target is a run without blanks that
ends before the last closer in it, or else one that a closer follows. -/
def splitTarget (t : Text) : Option Text × Text :=
  let run := t.takeWhile (!isBlank ·)
  let rest := t.dropWhile (!isBlank ·)
  match cutLast? closer run with
  | some (c :: before, inside) => (some (c :: before), closer ++ inside ++ rest)
  | _ => if !run.isEmpty && holds closer rest then (some run, rest) else (none, t)

/-- The directive whose type name `kind` is followed by the text. -/
def afterKind? (kind t : Text) : Option Directive :=
  let (searchPaths, t) := splitSearchPaths t
  let (target, t) := splitTarget (trimStart t)
  (cutLast? closer t).map fun (attributes, _) =>
    { kind, searchPaths, target, attributes := nonempty? (trim attributes) }

/-- The directive whose opener is followed by the text. -/
def inComment? (t : Text) : Option Directive :=
  match after? "build:".toList (trimStart t) with
  | none => none
  | some rest =>
    let kind := rest.takeWhile BlockType.isNameCharacter
    if kind.isEmpty then none
    else afterKind? kind (rest.dropWhile BlockType.isNameCharacter)

/-- The directive that the text starts with. -/
def at? (t : Text) : Option Directive :=
  (afterOpener? t).bind inComment?

/-- The leftmost directive of a line. -/
def parse (line : Text) : Option Directive :=
  (search at? line).map Prod.snd

/-- What follows the end marker that the text starts with. -/
def endMarkerAt? (t : Text) : Option Text :=
  (afterOpener? t).bind fun t =>
    (after? "endbuild".toList (trimStart t)).bind fun t => after? closer (trimStart t)

/-- Whether an end marker stands on the line. -/
def isEndMarker (line : Text) : Bool :=
  (search endMarkerAt? line).isSome

end Directive
end BuildBlocks
