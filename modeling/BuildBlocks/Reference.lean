import BuildBlocks.Block.Table
import BuildBlocks.ConditionalComment
import BuildBlocks.Options
import BuildBlocks.Text.Letters
import BuildBlocks.Text.Word

/-!
# References to artifacts

A terminated block resolves to the text that takes its place: one reference to the artifact
it is built into, inside the conditional comment that the block holds, if it holds one.  A
stylesheet block that links nothing and a script block without a script resolve to no
reference, as does every block that is dropped.  In a preview a block that resolves is
replaced by its own inner lines.
-/
namespace BuildBlocks
open Text

namespace Reference

/-- A stylesheet link starts here: `link` in any case, and a closing bracket on its line. -/
def linkAt? (t : Text) : Option Unit :=
  match afterFolded? "link".toList t with
  | some (_, rest) =>
    if (rest.takeWhile fun c => c != '\r' && c != '\n').any fun c => c == '>' || c == ')' then
      some ()
    else
      none
  | none => none

/-- Whether the text links a stylesheet. -/
def linksStylesheet (t : Text) : Bool :=
  (search linkAt? t).isSome

/-- A script ends here: a closing tag in any case, or a closing parenthesis. -/
def scriptEndAt? (t : Text) : Option Unit :=
  if (afterFolded? "</script>".toList t).isSome || (after? [')'] t).isSome then some () else none

/-- A script starts here: the word `script` in any case, and an end anywhere after it. -/
def scriptAt? (t : Text) : Option Unit :=
  match afterFolded? "script".toList t with
  | some (_, rest) => if endsWord rest && (search scriptEndAt? rest).isSome then some () else none
  | none => none

/-- Whether the text holds a script. -/
def holdsScript (t : Text) : Bool :=
  (search scriptAt? t).isSome

/-- Attributes as they stand in a tag. -/
def attributeText (attributes : Option Text) : Text :=
  attributes.elim [] (' ' :: ·)

/-- The tag that links a stylesheet. -/
def stylesheetTag (target : Text) (attributes : Option Text) : Text :=
  "<link rel=\"stylesheet\" href=\"".toList ++ target ++ ['"'] ++ attributeText attributes ++ ['>']

/-- The tag that loads a script. -/
def scriptTag (target : Text) (attributes : Option Text) : Text :=
  "<script src=\"".toList ++ target ++ ['"'] ++ attributeText attributes ++ "></script>".toList

end Reference

namespace Block
open Reference

/-- What a handler is told about the block. -/
def context (b : Block) (ending : LineEnding) : BlockContext where
  content := b.innerContent ending
  target := b.directive.targetOrDefault
  attributes := b.directive.attributes
  searchPaths := b.directive.searchPaths
  line := b.lineNumber

/-- The reference to the artifact of the block, empty when the block names nothing to build;
none when no handler resolves it. -/
def reference? (b : Block) (ending : LineEnding) (o : Options) : Option Text :=
  let inner := b.innerContent ending
  let target := b.directive.targetOrDefault
  let attributes := b.directive.attributes
  match b.directive.blockType with
  | .css => some (if linksStylesheet inner then stylesheetTag target attributes else [])
  | .js => some (if holdsScript inner then scriptTag target attributes else [])
  | .remove => some []
  | .custom name => (o.handlers.get? name).bind fun handler => handler (b.context ending)

/-- A reference at the indentation of the block, inside the conditional comment that the
block holds. -/
def wrap (b : Block) (ending : LineEnding) (reference : Text) : Text :=
  match ConditionalComment.find (b.text ending) with
  | some c =>
    b.indent ++ c.opener ++ ending.text ++ b.indent ++ reference ++ ending.text ++
      b.indent ++ c.closer
  | none => b.indent ++ reference

/-- The text that takes the place of the block, if it resolves. -/
def replacement? (b : Block) (ending : LineEnding) (o : Options) : Option Text :=
  (b.reference? ending o).map fun reference =>
    if o.preview then b.innerContent ending else b.wrap ending reference

end Block

namespace BlockTable

/-- The splices that put every resolved block's text in its place. -/
def splices (t : BlockTable) (o : Options) : List Splice :=
  t.terminated.filterMap fun b => (b.replacement? t.ending o).map fun text => ⟨b.span, text⟩

/-- The document with every resolved block replaced, when the table is the document's own. -/
def resolve (t : BlockTable) (o : Options) (document : Text) : Text :=
  (Splice.apply (t.splices o) document).getD document

end BlockTable
end BuildBlocks
