import BuildBlocks.Text.Basic

/-!
# Splicing

Stretches of a source text, given as spans of bytes, are replaced all at once.  The
splices are taken in the order of their starts, and those that start together in the order
in which they were given; what lies between the end of one and the start of the next is
copied.  There is no result when such a gap runs backwards, leaves the source or cuts a
character in two.
-/
namespace BuildBlocks
open Text

/-- The bytes of a text from `start` up to `stop`, which is not among them. -/
structure Span where
  start : Nat
  stop : Nat
  deriving DecidableEq, Repr

/-- A text to put in the place of a span. -/
structure Splice where
  span : Span
  replacement : Text
  deriving DecidableEq, Repr

/-- The part of a text that a span takes, if the span runs forwards, lies inside the text
and cuts no character. -/
def Text.slice? (t : Text) (s : Span) : Option Text :=
  if s.start ≤ s.stop then
    (splitAtByte? s.start t).bind fun (_, rest) =>
      (splitAtByte? (s.stop - s.start) rest).map Prod.fst
  else
    none

namespace Splice

/-- For how many splices room can be kept: each takes forty bytes, and all of them together
fewer than half of what words of 64 bits can address. -/
def capacityLimit : Nat :=
  (Nat.pow 2 63 - 1) / 40

/-- No splices yet, with room for a number of them; none when there cannot be so much room. -/
def reserve? (capacity : Nat) : Option (List Splice) :=
  if capacity ≤ capacityLimit then some [] else none

/-- The order in which splices are applied. -/
def precedes (a b : Splice) : Bool :=
  a.span.start ≤ b.span.start

/-- The source from byte `cursor` on, with the splices applied in the order of the list. -/
def weave (source : Text) (cursor : Nat) : List Splice → Option Text
  | [] => (splitAtByte? cursor source).map Prod.snd
  | s :: rest =>
    (source.slice? ⟨cursor, s.span.start⟩).bind fun gap =>
      (weave source s.span.stop rest).map fun tail => gap ++ s.replacement ++ tail

/-- The source with every splice applied. -/
def apply (splices : List Splice) (source : Text) : Option Text :=
  weave source 0 (splices.mergeSort precedes)

@[simp] theorem apply_nil (source : Text) : apply [] source = some source := by
  simp [apply, weave, splitAtByte?]

end Splice
end BuildBlocks
