import BuildBlocks.Log.Event
import BuildBlocks.Log.Pattern
import BuildBlocks.Splice

/-!
# Log filters

A filter is a list of rules, written with commas between them.  A rule names the least
important level that it lets pass.  It may be about the events of which the target starts with
a given text, and about those with a given field; of the rules about an event the most
particular one decides, and of equal ones the last.  Rules about spans, and about the value of
a field, are accepted but are about no event.
-/
namespace BuildBlocks
open Text

namespace Log

/-- Which of the events of its targets a rule is about. -/
inductive Scope where
  | all
  /-- Those with a field of a name. -/
  | having (field : Text)
  /-- None of them: the rule is about spans. -/
  | spans
  deriving DecidableEq, Repr

/-- Whether the first of two scopes that an event is in is more particular than the second; of
two fields the one with the name that comes later is. -/
def Scope.isNarrower : Scope → Scope → Bool
  | .having field, .having field' => isBefore field' field
  | .having _, .all => true
  | _, _ => false

/-- A rule of a filter. -/
structure Rule where
  /-- The start of the targets that the rule is about. -/
  target : Text
  scope : Scope
  /-- The rank of the least important level that passes; nothing passes at zero. -/
  limit : Nat
  deriving DecidableEq, Repr

namespace Rule

/-- The rule about every event. -/
def general (limit : Nat) : Rule :=
  ⟨[], .all, limit⟩

/-- Whether the rule is about an event. -/
def concerns (r : Rule) (e : Event) : Bool :=
  (after? r.target e.target).isSome &&
    match r.scope with
    | .all => true
    | .having field => e.hasField field
    | .spans => false

/-- Whether the first of two rules about an event decides although the second one follows. -/
def prevails (r s : Rule) : Bool :=
  s.target.length < r.target.length ||
    (r.target.length = s.target.length && r.scope.isNarrower s.scope)

end Rule

/-- The characters of a text, its capital Latin letters made small. -/
def lowerCase (t : Text) : Text :=
  t.map Char.toLower

/-- The limit that a word or a number of at most five names. -/
def limit? (t : Text) : Option Nat :=
  let digits := match t with
    | '+' :: rest => rest
    | t => t
  if !digits.isEmpty && digits.all Char.isDigit then
    (numberOf? 10 digits).filter fun n => n ≤ 5
  else
    let t := lowerCase t
    if t = "off".toList then some 0
    else if t = "error".toList then some 1
    else if t = "warn".toList then some 2
    else if t = "info".toList then some 3
    else if t = "debug".toList then some 4
    else if t = "trace".toList then some 5
    else none

/-- The limit that stands after an equals sign; none means that everything passes. -/
def limitAfterSign? (t : Text) : Option Nat :=
  if t.isEmpty then some 5 else limit? t

/-- Whether a text is a number without a sign, perhaps with a fraction and an exponent, or one
of the words for infinity and for no number. -/
def isNumeral (t : Text) : Bool :=
  let t := lowerCase t
  let mantissa := t.takeWhile (· != 'e')
  let exponent := match (t.dropWhile (· != 'e')).drop 1 with
    | '+' :: digits => digits
    | '-' :: digits => digits
    | digits => digits
  let pieces := splitOn '.' mantissa
  ["inf", "infinity", "nan"].any (fun word => t = word.toList) ||
    (pieces.length ≤ 2 && pieces.any (!·.isEmpty) && pieces.all (·.all Char.isDigit) &&
      (!t.contains 'e' || !exponent.isEmpty) && exponent.all Char.isDigit)

/-- Whether a rule can ask for a value: a number or whatever a pattern matches.  Numbers
without a plus sign are patterns too. -/
def isFieldValue (t : Text) : Bool :=
  match t with
  | '+' :: number => isNumeral number
  | t => Pattern.isPattern t

/-- The scope that a text in braces gives: the name of a field, after which an equals sign and
a value may stand. -/
def fieldScope? (t : Text) : Option Scope :=
  match splitOn '=' t with
  | [] => none
  | [[]] => none
  | [name] => some (.having name)
  | _ :: value :: _ => if isFieldValue value then some .spans else none

/-- A place in a text that is read. -/
structure Position where
  /-- The number of bytes before it. -/
  offset : Nat
  /-- What follows it. -/
  rest : Text
  deriving DecidableEq, Repr

namespace Position

/-- The first place from a given one on that one of some characters follows, or the end. -/
def upTo (p : Position) (marks : Text) : Position :=
  let between := p.rest.takeWhile (!marks.contains ·)
  ⟨p.offset + byteLength between, p.rest.drop between.length⟩

/-- The place behind the next character, which takes one byte. -/
def behind (p : Position) : Position :=
  ⟨p.offset + 1, p.rest.drop 1⟩

end Position

/-- The scope that a text in brackets gives, from behind the opening bracket on, and the place
behind the closing one: the name of a span, then perhaps a field in braces.  The field is taken
from `written`. -/
def readScope (written : Text) (start : Position) : Option (Scope × Position) :=
  let nameEnd := start.upTo "]\x7b".toList
  match nameEnd.rest with
  | ']' :: _ => some (.spans, nameEnd.behind)
  | [] => none
  | _ =>
    let fieldStart := nameEnd.behind
    let fieldEnd := fieldStart.upTo ['\x7d']
    match fieldEnd.rest with
    | _ :: ']' :: _ =>
      ((written.slice? ⟨fieldStart.offset, fieldEnd.offset⟩).bind fieldScope?).map fun scope =>
        (if nameEnd.offset = start.offset then scope else .spans, fieldEnd.behind.behind)
    | _ => none

/-- The limit of a rule at the place behind its target and its scope, where an equals sign
stands unless the rule ends. -/
def readLimit (written : Text) (p : Position) : Option Nat :=
  match p.rest with
  | [] => some 5
  | '=' :: _ => (splitAtByte? p.behind.offset written).bind fun (_, t) => limitAfterSign? t
  | _ => none

/-- Whether a rule can start with the character. -/
def startsRule (c : Char) : Bool :=
  "[-:_".toList.contains c || isAlphanumeric c

/-- The rule that a text writes.  It is read without the blanks at its ends, but its parts are
taken from the text with its blanks, at the same distances from the start. -/
def readRule (written : Text) : Option Rule :=
  let start : Position := ⟨0, trim written⟩
  let targetEnd := start.upTo "=[".toList
  if !start.rest.head?.any startsRule then none
  else
    match targetEnd.rest with
    | [] => some ((limit? written).elim ⟨written, .all, 5⟩ .general)
    | c :: _ =>
      (written.slice? ⟨0, targetEnd.offset⟩).bind fun target =>
        let scope :=
          if c = '[' then readScope written targetEnd.behind else some (.all, targetEnd)
        scope.bind fun (scope, p) =>
          (readLimit written p).map fun limit => ⟨target, scope, limit⟩

/-- The rules of a filter, in the order in which they are written. -/
abbrev Filter := List Rule

namespace Filter

/-- The filter that lets warnings and errors pass. -/
def default : Filter :=
  [.general 2]

/-- The filter that a text writes. -/
def read (t : Text) : Option Filter :=
  ((splitOn ',' t).filter (!·.isEmpty)).mapM readRule

/-- The rule that decides on an event. -/
def rule? (f : Filter) (e : Event) : Option Rule :=
  (f.filter (·.concerns e)).foldl (fun best rule =>
    match best with
    | some b => if b.prevails rule then some b else some rule
    | none => some rule) none

/-- Whether an event passes. -/
def passes (f : Filter) (e : Event) : Bool :=
  match f.rule? e with
  | some rule => e.level.rank ≤ rule.limit
  | none => false

/-- The filter of a command: `info` when it is verbose; otherwise the one that the
environment gives, if it gives one that is not blank and can be read; otherwise warnings. -/
def choose (verbose : Bool) (environment : Option Text) : Filter :=
  if verbose then [.general 3]
  else
    match environment with
    | some t => if (trim t).isEmpty then default else (read t).getD default
    | none => default

end Filter
end Log
end BuildBlocks
