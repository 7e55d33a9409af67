import BuildBlocks.Directive
import BuildBlocks.Text.Digits

/-!
# Block keys

Every block of a document gets a key of its own.  A key is rendered to the slot that its
block takes in a manifest; two blocks that would render alike are told apart by a number
put after the target.  Since that number is written without a separator a rendered target
can also coincide with one that a directive names, so a number is taken only when its
rendering is free.
-/
namespace BuildBlocks
open Text

/-- The identity of a block in its document. -/
structure BlockKey where
  /-- The name of the block's type. -/
  kind : Text
  /-- The target of the directive; of a block that is dropped, its ordinal among those. -/
  target : Option Text
  attributes : Option Text
  /-- The number that tells the block from an earlier one. -/
  suffix : Option Nat
  deriving DecidableEq, Repr

/-- What has to differ between any two blocks: type, target in the manifest, attributes. -/
structure RenderedKey where
  kind : Text
  target : Text
  attributes : Option Text
  deriving DecidableEq, Repr

namespace BlockKey

/-- The target under which a manifest lists the block. -/
def manifestTarget (k : BlockKey) : Text :=
  k.target.getD Directive.defaultTarget ++ k.suffix.elim [] numeral

/-- The key as it has to differ from others. -/
def rendered (k : BlockKey) : RenderedKey :=
  ⟨k.kind, k.manifestTarget, k.attributes⟩

/-- The same key with a number after its target. -/
def withSuffix (k : BlockKey) (n : Nat) : BlockKey :=
  { k with suffix := some n }

end BlockKey

/-- What the keys given out so far leave for the next one. -/
structure Naming where
  /-- The renderings of the keys given out, the last one first. -/
  taken : List RenderedKey
  /-- How many of them belong to blocks that are dropped. -/
  removals : Nat
  /-- The next number to tell blocks apart. -/
  nextSuffix : Nat
  deriving DecidableEq, Repr

namespace Naming

/-- Before the first block. -/
def initial : Naming :=
  ⟨[], 0, 0⟩

/-- The first number from `n` on that is not `used`, when at most `bound` numbers are. -/
def firstFree (used : Nat → Bool) : Nat → Nat → Nat
  | 0, n => n
  | bound + 1, n => if used n then firstFree used bound (n + 1) else n

/-- The key of a directive's block before it is told from earlier blocks. -/
def plainKey (s : Naming) (d : Directive) : BlockKey where
  kind := d.kind
  target := if d.blockType = .remove then some (numeral s.removals) else d.target
  attributes := d.attributes
  suffix := none

/-- The key of a directive's block, and the naming after it.  As the renderings of one
target with different numbers differ, no more numbers can be used than keys are taken. -/
def assign (s : Naming) (d : Directive) : BlockKey × Naming :=
  let plain := s.plainKey d
  let removals := if d.blockType = .remove then s.removals + 1 else s.removals
  if plain.rendered ∈ s.taken then
    let used n := decide ((plain.withSuffix n).rendered ∈ s.taken)
    let n := firstFree used s.taken.length s.nextSuffix
    let key := plain.withSuffix n
    (key, ⟨key.rendered :: s.taken, removals, n + 1⟩)
  else
    (plain, ⟨plain.rendered :: s.taken, removals, s.nextSuffix⟩)

end Naming
end BuildBlocks
