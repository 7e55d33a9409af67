import BuildBlocks.Block.Table
import BuildBlocks.Comment
import BuildBlocks.SortedMap

/-!
# Manifests

A manifest lists, for every type and target, the assets that the target is built from.
It is compiled from the terminated blocks of a document: each adds the assets it names to
the entry of its key, and an entry keeps the first search paths that it is given.
-/
namespace BuildBlocks
open Text

namespace Asset

/-- Whether the character opens and closes an attribute value. -/
def isQuote (c : Char) : Bool :=
  c == '"' || c == '\''

/-- The value in quotes that the text starts with.  It is not empty and holds no quote. -/
def quotedAt? : Text → Option Text
  | [] => none
  | c :: t =>
    if isQuote c then
      match t.takeWhile (!isQuote ·), t.dropWhile (!isQuote ·) with
      | v :: value, _ :: _ => some (v :: value)
      | _, _ => none
    else
      none

/-- The value of the `href` or `src` attribute that the text starts with. -/
def attributeAt? (t : Text) : Option Text :=
  ((after? "href=".toList t).or (after? "src=".toList t)).bind quotedAt?

/-- The assets in an attribute value, which commas separate. -/
def ofValue (value : Text) : List Text :=
  ((splitOn ',' value).map trim).filter (!·.isEmpty)

/-- The assets in the first attribute of a line. -/
def ofLine (line : Text) : List Text :=
  match search attributeAt? line with
  | some (_, value) => ofValue value
  | none => []

/-- The assets that the inner lines of a block name, comments left out. -/
def ofInnerLines (lines : List Text) : List Text :=
  (Line.lines (Comment.strip (join ['\n'] lines))).flatMap fun l => ofLine l.text

end Asset

/-- The assets of one target. -/
structure ManifestEntry where
  /-- The assets in the order in which they first appear. -/
  assets : List Text
  /-- Where the assets are looked for. -/
  searchPaths : Option Text
  deriving DecidableEq, Repr

namespace ManifestEntry

/-- The entry before anything is added. -/
def empty : ManifestEntry :=
  ⟨[], none⟩

/-- The assets with one more, unless it is among them. -/
def push (assets : List Text) (asset : Text) : List Text :=
  if asset ∈ assets then assets else assets ++ [asset]

/-- The entry with what a block adds to it. -/
def add (e : ManifestEntry) (b : Block) : ManifestEntry where
  assets := (Asset.ofInnerLines b.innerLines).foldl push e.assets
  searchPaths := e.searchPaths.or b.directive.searchPaths

end ManifestEntry

/-- The entries of all types and targets. -/
structure Manifest where
  /-- By type name, the entries by target. -/
  types : SortedMap (SortedMap ManifestEntry)
  deriving DecidableEq

namespace Manifest

/-- The manifest of no block. -/
def empty : Manifest :=
  ⟨.empty⟩

/-- The manifest with what a block adds to the entry of its key. -/
def add (m : Manifest) (b : Block) : Manifest where
  types := m.types.alter b.key.kind fun targets =>
    (targets.getD .empty).alter b.key.manifestTarget fun entry =>
      (entry.getD .empty).add b

/-- The manifest of blocks, given in order. -/
def ofBlocks (blocks : List Block) : Manifest :=
  blocks.foldl add empty

/-- The manifest of a document's terminated blocks. -/
def compile (t : BlockTable) : Manifest :=
  ofBlocks t.terminated

/-- The entries of one type, by target. -/
def targets? (m : Manifest) (kind : Text) : Option (SortedMap ManifestEntry) :=
  m.types.get? kind

/-- The entry of a type and target. -/
def get? (m : Manifest) (kind target : Text) : Option ManifestEntry :=
  (m.targets? kind).bind fun targets => targets.get? target

/-- Every type, target and entry, in ascending order of types and then of targets. -/
def toList (m : Manifest) : List (Text × Text × ManifestEntry) :=
  m.types.entries.flatMap fun (kind, targets) =>
    targets.entries.map fun (target, entry) => (kind, target, entry)

/-- The number of entries. -/
def size (m : Manifest) : Nat :=
  m.types.entries.foldr (fun (_, targets) n => targets.size + n) 0

/-- Whether no type is listed.  A type that is listed without targets counts. -/
def isEmpty (m : Manifest) : Bool :=
  m.types.entries.isEmpty

end Manifest
end BuildBlocks
