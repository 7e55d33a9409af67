import BuildBlocks.Log.Pattern.Class
import BuildBlocks.Text.Alphanumeric

/-!
# Regular expressions

A rule of a log filter may ask for the value of a field by a regular expression.  Here it is
only decided whether a text is one (`isPattern`): whether its groups and classes are closed,
whether every repetition has something to repeat, whether its escapes and flags have a
meaning, and whether it is not nested too deep.  Counted repetitions are no part of the
language, since their closing brace would end the field.
-/
namespace BuildBlocks
open Text

namespace Log.Pattern

/-- How deep a pattern may be nested. -/
def depthLimit : Nat :=
  250

/-- A group while it is read, or the pattern outside all groups. -/
structure Group where
  /-- How the rest of it is read. -/
  mode : Mode
  /-- How deep its branches before the current one are nested. -/
  branches : List Nat
  /-- How deep the parts of its current branch are nested, the last one first. -/
  parts : List Nat
  deriving DecidableEq, Repr

namespace Group

/-- A group before its first part. -/
def start (m : Mode) : Group :=
  ⟨m, [], []⟩

/-- How deep the inside of the group is nested so far. -/
def depth (g : Group) : Nat :=
  joinedDepth (joinedDepth g.parts :: g.branches)

/-- The group with one more part. -/
def add (g : Group) (depth : Nat) : Group :=
  { g with parts := depth :: g.parts }

/-- The group in a new branch. -/
def fork (g : Group) : Group :=
  { g with branches := joinedDepth g.parts :: g.branches, parts := [] }

/-- The group with its last part repeated. -/
def repeatLast? (g : Group) : Option Group :=
  match g.parts with
  | [] => none
  | depth :: parts => some { g with parts := (depth + 1) :: parts }

end Group

/-- What is known of a pattern at a place in it. -/
structure Progress where
  current : Group
  /-- The groups around the current one, the innermost first. -/
  outer : List Group
  /-- Whether the last part is one that can be repeated. -/
  repeatable : Bool
  /-- The names of the groups so far. -/
  names : List Text
  deriving DecidableEq, Repr

namespace Progress

/-- Before a pattern. -/
def initial : Progress :=
  ⟨.start .initial, [], false, []⟩

/-- Behind one more part. -/
def passed (p : Progress) (depth : Nat) : Progress :=
  { p with current := p.current.add depth, repeatable := true }

/-- Inside a new group. -/
def entered (p : Progress) (m : Mode) : Progress :=
  { p with current := .start m, outer := p.current :: p.outer, repeatable := false }

/-- Behind flags, which are a part of their group. -/
def switched (p : Progress) (m : Mode) : Progress :=
  { p with current := { p.current.add 0 with mode := m }, repeatable := false }

/-- Whether a text can name one more group. -/
def isNewName (p : Progress) (t : Text) : Bool :=
  let isInner c := c == '_' || c == '.' || c == '[' || c == ']' || isAlphanumeric c
  match t with
  | [] => false
  | c :: rest => (c == '_' || isAlphabetic c) && rest.all isInner && !p.names.contains t

/-- The start of a group or flags, given from behind the opening parenthesis. -/
def open? (p : Progress) (t : Text) : Option (Progress × Text) :=
  let mode := p.current.mode
  match mode.skip t with
  | '?' :: t =>
    match (after? "P<".toList t).or (after? ['<'] t) with
    | some t =>
      (cut? ['>'] t).bind fun (name, rest) =>
        if p.isNewName name then some ({ p.entered mode with names := name :: p.names }, rest)
        else none
    | none =>
      let flags := t.takeWhile fun c => c != ':' && c != ')'
      if !Mode.areFlags flags then none
      else
        match t.drop flags.length with
        | ':' :: rest => some (p.entered (mode.switch flags), rest)
        | ')' :: rest => if flags.isEmpty then none else some (p.switched (mode.switch flags), rest)
        | _ => none
  | t => some (p.entered mode, t)

/-- The end of a group. -/
def close? (p : Progress) : Option Progress :=
  match p.outer with
  | [] => none
  | around :: outer =>
    some { p with
      current := around.add (p.current.depth + 1), outer := outer, repeatable := true }

/-- The last part repeated, and what follows the sign of that: a question mark directly behind
it belongs to it. -/
def repeatLast? (p : Progress) (t : Text) : Option (Progress × Text) :=
  let rest := match t with
    | '?' :: rest => rest
    | t => t
  if p.repeatable then p.current.repeatLast?.map fun g => ({ p with current := g }, rest) else none

/-- The progress over the part that starts with a character, and what follows that part. -/
def step? (p : Progress) (c : Char) (t : Text) : Option (Progress × Text) :=
  let mode := p.current.mode
  match c with
  | '(' => p.open? t
  | ')' => p.close?.map fun p => (p, t)
  | '|' => some ({ p with current := p.current.fork, repeatable := false }, t)
  | '[' =>
    let (b, rest) := Bracket.start mode t
    (readClass? mode (t.length + 1) b [] rest).map fun (depth, rest) => (p.passed depth, rest)
  | '\\' => (readEscape? mode t).map fun (_, rest) => (p.passed 0, rest)
  | '.' => if mode.unicode then some (p.passed 0, t) else none
  | '\x7b' => none
  | c => if "?*+".toList.contains c then p.repeatLast? t else some (p.passed 0, t)

/-- Whether a pattern can end with a text, which takes fewer than `count` steps. -/
def accepts : (count : Nat) → Progress → Text → Bool
  | 0, _, _ => false
  | count + 1, p, t =>
    match p.current.mode.skip t with
    | [] => p.outer.isEmpty && p.current.depth ≤ depthLimit
    | c :: t =>
      match p.step? c t with
      | some (p, rest) => accepts count p rest
      | none => false

end Progress

/-- Whether a text is a pattern. -/
def isPattern (t : Text) : Bool :=
  Progress.initial.accepts (t.length + 1) t

end Log.Pattern
end BuildBlocks
