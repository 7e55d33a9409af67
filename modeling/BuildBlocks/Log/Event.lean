import BuildBlocks.Transform

/-!
# Events

What a transformation tells a log, in the order in which it happens: the directives of the
document, the blocks that nothing closes, what each terminated block resolves to, and the
end of the work.
-/
namespace BuildBlocks
open Text

/-- How much an event matters. -/
inductive Level where
  | error
  | warn
  | info
  | debug
  | trace
  deriving DecidableEq, Repr

namespace Level

/-- The place of a level, the most important one first. -/
def rank : Level → Nat
  | error => 1
  | warn => 2
  | info => 3
  | debug => 4
  | trace => 5

/-- The name of a level. -/
def name : Level → Text
  | error => "ERROR".toList
  | warn => "WARN".toList
  | info => "INFO".toList
  | debug => "DEBUG".toList
  | trace => "TRACE".toList

end Level

/-- Something that a log can record. -/
structure Event where
  level : Level
  /-- The part of the program that speaks. -/
  target : Text
  /-- What happens, in words. -/
  message : Text
  /-- What it happens to: names and values. -/
  fields : List (Text × Text)
  deriving DecidableEq, Repr

namespace Event

/-- The message and the fields in one line. -/
def text (e : Event) : Text :=
  e.message ++ e.fields.flatMap fun (name, value) => ' ' :: name ++ '=' :: value

/-- Whether the event has a field of a name.  The message counts as a field. -/
def hasField (e : Event) (name : Text) : Bool :=
  name = "message".toList || e.fields.any fun (n, _) => n = name

/-- Who speaks of blocks. -/
def blockTarget : Text :=
  "useref_core::block".toList

/-- Who speaks of references. -/
def referenceTarget : Text :=
  "useref_core::reference".toList

/-- Who speaks of whole documents. -/
def documentTarget : Text :=
  "useref_core".toList

/-- Who speaks of commands. -/
def commandTarget : Text :=
  "useref::commands".toList

/-- The place of a block. -/
def lineField (b : Block) : Text × Text :=
  ("line".toList, numeral b.lineNumber)

/-- The type of a block. -/
def kindField (b : Block) : Text × Text :=
  ("kind".toList, b.key.kind)

/-- What a block is built into. -/
def outputField (target : Text) : Text × Text :=
  ("output".toList, target)

/-- The number of entries of a manifest. -/
def entriesField (m : Manifest) : Text × Text :=
  ("entries".toList, numeral m.size)

/-- A directive opens a block while an earlier one is open. -/
def abandoned (b : Block) : Event :=
  ⟨.debug, blockTarget, "Build block abandoned by a new start directive".toList, [lineField b]⟩

/-- A directive opens a block. -/
def opened (b : Block) : Event :=
  ⟨.debug, blockTarget, "Build block opened".toList,
    [lineField b, kindField b, outputField b.key.manifestTarget]⟩

/-- Nothing closes a block. -/
def unterminated (b : Block) : Event :=
  ⟨.warn, blockTarget, "Build block is never closed by an endbuild marker".toList,
    [lineField b, kindField b]⟩

/-- A block does not resolve. -/
def leftUnchanged (b : Block) : Event :=
  ⟨.debug, referenceTarget, "Build block left unchanged".toList, [lineField b, kindField b]⟩

/-- A reference takes the place of a block. -/
def synthesized (b : Block) : Event :=
  ⟨.debug, referenceTarget, "Synthesized reference".toList,
    [lineField b, kindField b, outputField b.directive.targetOrDefault]⟩

/-- A document is done. -/
def transformed (t : BlockTable) : Event :=
  ⟨.debug, documentTarget, "Transformed document".toList,
    [("blocks".toList, numeral t.terminated.length), entriesField (.compile t)]⟩

/-- The events of the directives that open blocks; `last` is the block before them if it is
still open. -/
def openings : (last : Option Block) → List Block → List Event
  | _, [] => []
  | last, b :: rest =>
    (last.map abandoned).toList ++ opened b ::
      openings (if b.terminated then none else some b) rest

/-- The event of a terminated block.  A preview says nothing of a block that resolves. -/
def resolution? (ending : LineEnding) (o : Options) (b : Block) : Option Event :=
  match b.replacement? ending o with
  | none => some (leftUnchanged b)
  | some _ => if o.preview then none else some (synthesized b)

/-- The events of the transformation of a document. -/
def ofDocument (document : Text) (o : Options) : List Event :=
  let t := BlockTable.extract document
  openings none t.blocks ++ t.unterminated.map unterminated ++
    t.terminated.filterMap (resolution? t.ending o) ++ [transformed t]

end Event
end BuildBlocks
