import BuildBlocks.Block.Key
import BuildBlocks.Block.Segment
import BuildBlocks.Splice

/-!
# The blocks of a document

`BlockTable.extract` lists the passages of a document with their keys and their places:
the line of the directive, and the bytes from the start of that line to the end of the last
one.  A block without an end marker is listed too; it keeps its key but is neither replaced
nor compiled into a manifest.
-/
namespace BuildBlocks
open Text

/-- A build block. -/
structure Block where
  key : BlockKey
  /-- The directive as it is written. -/
  directive : Directive
  /-- The lines without line breaks: the directive line and all that follow it. -/
  lines : List Text
  /-- The bytes of the document that the block takes, its last line break excepted. -/
  span : Span
  /-- The number of the directive line, counted from one. -/
  lineNumber : Nat
  /-- Whether an end marker closes the block. -/
  terminated : Bool
  deriving DecidableEq, Repr

namespace Block

/-- The lines between the directive and the end marker. -/
def innerLines (b : Block) : List Text :=
  b.lines.tail.dropLast

/-- The inner lines put together. -/
def innerContent (b : Block) (ending : LineEnding) : Text :=
  join ending.text b.innerLines

/-- All lines put together. -/
def text (b : Block) (ending : LineEnding) : Text :=
  join ending.text b.lines

/-- The blanks in front of the directive. -/
def indent (b : Block) : Text :=
  indentation (b.lines.headD [])

end Block

/-- The blocks of a document in the order of their directives. -/
structure BlockTable where
  blocks : List Block
  /-- The line break with which the text of a block is put together. -/
  ending : LineEnding
  deriving DecidableEq, Repr

namespace BlockTable

/-- The blocks of segments that start at byte `offset` in line `number`, with keys that
`naming` leaves. -/
def ofSegments (offset number : Nat) (naming : Naming) : List Segment → List Block
  | [] => []
  | .plain l :: rest => ofSegments (offset + byteLength l.source) (number + 1) naming rest
  | .passage p :: rest =>
    let (key, naming) := naming.assign p.directive
    { key
      directive := p.directive
      lines := p.lines.map Line.text
      span := ⟨offset, offset + byteLength p.extent⟩
      lineNumber := number
      terminated := p.terminated } ::
      ofSegments (offset + byteLength p.source) (number + p.lines.length) naming rest

/-- The blocks of a document. -/
def extract (document : Text) : BlockTable where
  blocks := ofSegments 0 1 .initial (Segment.ofDocument document)
  ending := .detect document

/-- The blocks that an end marker closes. -/
def terminated (t : BlockTable) : List Block :=
  t.blocks.filter Block.terminated

/-- The blocks that nothing closes. -/
def unterminated (t : BlockTable) : List Block :=
  t.blocks.filter (!·.terminated)

end BlockTable
end BuildBlocks
