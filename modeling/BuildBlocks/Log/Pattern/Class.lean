import BuildBlocks.Log.Pattern.Atom

/-!
# Classes in patterns

A class lists characters, ranges, named classes and further classes between brackets, and
operators combine what stands around them.  Outside Unicode no part of a class may reach beyond
ASCII, so it has no complements there: neither of itself nor of named classes.

Classes and operators are one level deeper than what they hold, as groups and repetitions are, and
so is a list of several parts; a list with a single part is that part.
-/
namespace BuildBlocks
open Text

namespace Log.Pattern

/-- How deep a list of parts is nested, given how deep its parts are. -/
def joinedDepth : List Nat → Nat
  | [] => 0
  | [depth] => depth
  | depths => depths.foldl max 0 + 1

/-- A class while it is read. -/
structure Bracket where
  /-- Whether it is the complement of what it lists. -/
  negated : Bool
  /-- Whether nothing but hyphens stands in it so far. -/
  opening : Bool
  /-- How deep what stands in front of the last operator is nested. -/
  left : Option Nat
  /-- How deep the members behind the last operator are nested. -/
  members : List Nat
  deriving DecidableEq, Repr

namespace Bracket

/-- The class behind an opening bracket, and what follows that and the sign of a complement. -/
def start (m : Mode) (t : Text) : Bracket × Text :=
  match m.skip t with
  | '^' :: t => (⟨true, true, none, []⟩, t)
  | t => (⟨false, true, none, []⟩, t)

/-- The class with one more member. -/
def add (b : Bracket) (depth : Nat) : Bracket :=
  { b with opening := false, members := depth :: b.members }

/-- The class with one more of the hyphens that it starts with. -/
def addHyphen (b : Bracket) : Bracket :=
  { b with members := 0 :: b.members }

/-- How deep what is listed so far is nested. -/
def listedDepth (b : Bracket) : Nat :=
  match b.left with
  | none => joinedDepth b.members
  | some left => max left (joinedDepth b.members) + 1

/-- The class behind one more operator. -/
def combine (b : Bracket) : Bracket :=
  { b with opening := false, left := some b.listedDepth, members := [] }

/-- How deep the finished class is nested. -/
def close? (m : Mode) (b : Bracket) : Option Nat :=
  if b.negated && !m.unicode then none else some (b.listedDepth + 1)

end Bracket

/-- What follows the operator that a text starts with, a doubled character. -/
def afterOperator? : Text → Option Text
  | '&' :: '&' :: t => some t
  | '-' :: '-' :: t => some t
  | '~' :: '~' :: t => some t
  | _ => none

/-- The names of the classes of ASCII. -/
def classNames : List Text :=
  ["alnum", "alpha", "ascii", "blank", "cntrl", "digit", "graph", "lower", "print", "punct",
    "space", "upper", "word", "xdigit"].map String.toList

/-- Whether a named class is a complement, and what follows it; it is given from behind its
opening bracket. -/
def readNamedClass? : Text → Option (Bool × Text)
  | ':' :: t =>
    let isComplement := t.head? = some '^'
    (cut? ":]".toList (if isComplement then t.drop 1 else t)).bind fun (name, rest) =>
      if classNames.contains name then some (isComplement, rest) else none
  | _ => none

/-- A member of a class, nothing when it stands for many characters, and what follows it. -/
def readMember? (m : Mode) (t : Text) : Option (Option Char × Text) :=
  let atom := match t with
    | [] => none
    | '\\' :: t => readEscape? m t
    | c :: t => some (.character c, t)
  match atom with
  | some (.character c, rest) => if m.unicode || c.toNat < 128 then some (some c, rest) else none
  | some (.set, rest) => some (none, rest)
  | _ => none

/-- What follows a member of a class or a range of characters.  A hyphen before the end of the
class or before another hyphen makes no range. -/
def afterMember? (m : Mode) (t : Text) : Option Text :=
  (readMember? m t).bind fun (first, t) =>
    match m.skip t with
    | '-' :: rest =>
      if m.peek? rest = some ']' ∨ m.peek? rest = some '-' then some ('-' :: rest)
      else
        match first, readMember? m (m.skip rest) with
        | some c, some (some d, rest) => if c.toNat ≤ d.toNat then some rest else none
        | _, _ => none
    | t => some t

/-- How deep a class is nested, given as far as it is read with the classes around it, and what
follows it; there are fewer than `count` steps.  A closing bracket that comes first belongs to
the class. -/
def readClass? (m : Mode) : (count : Nat) → Bracket → (outer : List Bracket) → Text →
    Option (Nat × Text)
  | 0, _, _, _ => none
  | count + 1, b, outer, t =>
    match m.skip t with
    | [] => none
    | c :: t =>
      if c = '-' && b.opening then readClass? m count b.addHyphen outer t
      else if c = ']' && b.opening && b.members.isEmpty then
        readClass? m count (b.add 0) outer t
      else if c = ']' then
        (b.close? m).bind fun depth =>
          match outer with
          | [] => some (depth, t)
          | around :: outer => readClass? m count (around.add depth) outer t
      else if c = '[' then
        match readNamedClass? t with
        | some (isComplement, t) =>
          if isComplement && !m.unicode then none else readClass? m count (b.add 0) outer t
        | none =>
          let (inner, t) := Bracket.start m t
          readClass? m count inner (b :: outer) t
      else
        match afterOperator? (c :: t) with
        | some t => readClass? m count b.combine outer t
        | none =>
          (afterMember? m (c :: t)).bind fun t => readClass? m count (b.add 0) outer t

end Log.Pattern
end BuildBlocks
