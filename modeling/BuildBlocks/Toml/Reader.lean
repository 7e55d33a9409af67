import BuildBlocks.Toml.Quoted
import BuildBlocks.Toml.Scalar
import BuildBlocks.Toml.Table

/-!
# Reading TOML

A document is a sequence of statements, each on a line of its own.  Between the brackets of
an array and the braces of a table there may be line breaks and comments, but not inside a
path, and a comma may follow the last item.  Brackets may be nested to a fixed depth, and
paths have a greatest length.
-/
namespace BuildBlocks
open Text

namespace Toml

/-- The text without the blanks it starts with, which stay on the line. -/
def skipBlanks (t : Text) : Text :=
  t.dropWhile isLineBlank

/-- The text without the blanks, line breaks and comments it starts with; `inComment` says
whether it starts inside a comment.  There is no rest when a comment holds a control
character. -/
def skipFiller : (inComment : Bool) → Text → Option Text
  | _, [] => some []
  | _, '\n' :: t => skipFiller false t
  | _, '\r' :: '\n' :: t => skipFiller false t
  | true, c :: t => if isPrintable c then skipFiller true t else none
  | false, ' ' :: t => skipFiller false t
  | false, '\t' :: t => skipFiller false t
  | false, '#' :: t => skipFiller true t
  | false, c :: t => some (c :: t)

/-- What follows the end of a line, before which blanks and a comment may stand. -/
def skipLineEnd (t : Text) : Option Text :=
  let rest := match skipBlanks t with
    | '#' :: comment => comment.dropWhile isPrintable
    | rest => rest
  match rest with
  | [] => some []
  | '\n' :: rest => some rest
  | '\r' :: '\n' :: rest => some rest
  | _ => none

/-- Whether the character may stand in a key without quotes. -/
def isBareKeyCharacter (c : Char) : Bool :=
  c.isAlphanum || c == '_' || c == '-'

/-- A key and what follows it. -/
def readKey (t : Text) : Option (Text × Text) :=
  match t.takeWhile isBareKeyCharacter with
  | [] => readLineString t
  | key => some (key, t.dropWhile isBareKeyCharacter)

/-- Keys with dots between them, at most `count` of them, and what follows them. -/
def readKeys : (count : Nat) → Text → Option (List Text × Text)
  | 0, _ => none
  | count + 1, t =>
    match readKey t with
    | none => none
    | some (key, t) =>
      match skipBlanks t with
      | '.' :: t => (readKeys count (skipBlanks t)).map fun (path, rest) => (key :: path, rest)
      | t => some ([key], t)

/-- The greatest number of keys in a path. -/
def pathLimit : Nat :=
  80

/-- A path and what follows it and its blanks. -/
def readPath (t : Text) : Option (List Text × Text) :=
  readKeys pathLimit (skipBlanks t)

/-- A path, an equals sign, a value as `read` reads it, and what follows that.  Around the sign
may stand what `skip` passes over. -/
def readPair (skip : Text → Option Text) (read : Text → Option (Value × Text)) (t : Text) :
    Option ((List Text × Value) × Text) :=
  (readPath t).bind fun (path, t) =>
    match skip t with
    | some ('=' :: t) =>
      ((skip t).bind read).map fun (v, rest) => ((path, v), rest)
    | _ => none

/-- Items as `read` reads them, at most `count`, with commas between them, up to the
character `close`, and what follows that. -/
def readList {α : Type} (read : Text → Option (α × Text)) (close : Char) :
    (count : Nat) → Text → Option (List α × Text)
  | 0, _ => none
  | count + 1, t =>
    match skipFiller false t with
    | none => none
    | some [] => none
    | some (c :: t) =>
      if c = close then some ([], t)
      else
        match read (c :: t) with
        | none => none
        | some (item, t) =>
          match skipFiller false t with
          | some (c :: t) =>
            if c = close then some ([item], t)
            else if c = ',' then
              (readList read close count t).map fun (items, rest) => (item :: items, rest)
            else none
          | _ => none

/-- A value with brackets and braces nested at most `depth` deep, and what follows it. -/
def readValue : (depth : Nat) → Text → Option (Value × Text)
  | 0, t => ((readString t).map fun (s, rest) => (.string s, rest)).or (readScalar t)
  | depth + 1, t =>
    match t with
    | '[' :: t =>
      (readList (readValue depth) ']' (t.length + 1) t).map fun (items, rest) =>
        (.array items, rest)
    | '{' :: t =>
      let readEntry := readPair (skipFiller false) (readValue depth)
      (readList readEntry '}' (t.length + 1) t).bind fun (pairs, rest) =>
        (tableOfPairs pairs).map fun v => (v, rest)
    | t => ((readString t).map fun (s, rest) => (.string s, rest)).or (readScalar t)

/-- How deep brackets and braces may be nested. -/
def depthLimit : Nat :=
  80

/-- A statement without the end of its line, and what follows it. -/
def readStatement : Text → Option (Statement × Text)
  | '[' :: '[' :: t =>
    match readPath t with
    | some (path, ']' :: ']' :: rest) => some (.element path, rest)
    | _ => none
  | '[' :: t =>
    match readPath t with
    | some (path, ']' :: rest) => some (.table path, rest)
    | _ => none
  | t => (readPair (fun t => some (skipBlanks t)) (readValue depthLimit) t).map
      fun ((path, v), rest) => (.pair path v, rest)

/-- The statements of a text, of which there are fewer than `count`. -/
def readStatements : (count : Nat) → Text → Option (List Statement)
  | 0, _ => none
  | count + 1, t =>
    match skipFiller false t with
    | none => none
    | some [] => some []
    | some t =>
      match readStatement t with
      | none => none
      | some (statement, t) =>
        (skipLineEnd t).bind fun t => (readStatements count t).map (statement :: ·)

/-- The text without the mark of its encoding. -/
def dropByteOrderMark : Text → Text
  | c :: t => if c.toNat = 0xFEFF then t else c :: t
  | [] => []

/-- The entries of the table that a document writes. -/
def entries? (document : Text) : Option (List (Text × Value)) :=
  let t := dropByteOrderMark document
  (readStatements (t.length + 1) t).bind entriesOfStatements

end Toml
end BuildBlocks
