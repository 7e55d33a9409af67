import BuildBlocks.Manifest
import BuildBlocks.Reference

/-!
# Transforming a document

One pass over a document replaces its blocks, compiles their manifest and reports the
blocks that nothing closes.  No document is refused: what is no block is plain text.
-/
namespace BuildBlocks

/-- A block that nothing closes. -/
structure UnterminatedBlock where
  /-- The number of the directive line, counted from one. -/
  line : Nat
  kind : Text
  deriving DecidableEq, Repr

/-- What becomes of a document. -/
structure Transformed where
  /-- The document with its blocks replaced. -/
  content : Text
  manifest : Manifest
  /-- The blocks left alone because nothing closes them, in the order of the document. -/
  unterminated : List UnterminatedBlock
  deriving DecidableEq

/-- The document with its blocks replaced, their manifest, and the blocks left open. -/
def transform (document : Text) (o : Options) : Transformed :=
  let table := BlockTable.extract document
  { content := table.resolve o document
    manifest := .compile table
    unterminated := table.unterminated.map fun b => ⟨b.lineNumber, b.key.kind⟩ }

end BuildBlocks
