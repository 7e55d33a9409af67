import BuildBlocks.Toml.Value

/-!
# Putting TOML tables together

The statements of a document name tables by paths and give keys to the table named last.
A table can be named once; one that was only passed through on the way to another can still
be named, and a table that a dotted key leads through can only be extended by dotted keys and
by tables below it.  Anything else that would say something twice is refused.
-/
namespace BuildBlocks
namespace Toml

/-- A statement of a document. -/
inductive Statement where
  /-- The keys that follow belong to the table at a path. -/
  | table (path : List Text)
  /-- The keys that follow belong to a new last table of the array at a path. -/
  | element (path : List Text)
  /-- The key at a path below the current table has a value. -/
  | pair (path : List Text) (value : Value)

/-- What made a table. -/
inductive Origin where
  /-- It was named. -/
  | named
  /-- A table below it was named. -/
  | passed
  /-- A dotted key leads through it. -/
  | dotted
  deriving DecidableEq, Repr

/-- What stands at a key while a document is put together. -/
inductive Node where
  | value (v : Value)
  | table (origin : Origin) (entries : List (Text × Node))
  /-- The tables of an array, the last of which can still grow. -/
  | tables (done : List (List (Text × Node))) (last : List (Text × Node))

/-- The entries of a table, in the order in which their keys were first used. -/
abbrev Entries := List (Text × Node)

/-- The entries in which the node of `k` is made by `f` from the one it had, if it had one. -/
def alter (k : Text) (f : Option Node → Option Node) : Entries → Option Entries
  | [] => (f none).map fun n => [(k, n)]
  | (k', n) :: rest =>
    if k' = k then (f (some n)).map fun n => (k, n) :: rest
    else (alter k f rest).map ((k', n) :: ·)

/-- The entries in which those of the table at a path are changed by `f`.  Tables on the way
are made where they are missing, and arrays of tables lead to their last table. -/
def within (f : Entries → Option Entries) : List Text → Entries → Option Entries
  | [], entries => f entries
  | k :: path, entries =>
    alter k (fun
      | none => (within f path []).map (.table .passed)
      | some (.table origin inner) => (within f path inner).map (.table origin)
      | some (.tables done last) => (within f path last).map (.tables done)
      | some (.value _) => none) entries

/-- The entries in which the key at a dotted path has a value.  The tables on the way count as
made by the dotted key, unless they were named.  In the last table of an array the key can
only make tables. -/
def define (v : Value) : List Text → Entries → Option Entries
  | [], _ => none
  | [k], entries =>
    alter k (fun
      | none => some (.value v)
      | some _ => none) entries
  | k :: k' :: path, entries =>
    alter k (fun
      | none => (define v (k' :: path) []).map (.table .dotted)
      | some (.table .named _) => none
      | some (.table _ inner) => (define v (k' :: path) inner).map (.table .dotted)
      | some (.tables done last) =>
        if path.isEmpty then none else (define v (k' :: path) last).map (.tables done)
      | some (.value _) => none) entries

/-- The entries in which the table of `k` is named. -/
def nameTable (k : Text) : Entries → Option Entries :=
  alter k fun
    | none => some (.table .named [])
    | some (.table .passed inner) => some (.table .named inner)
    | some _ => none

/-- The entries in which the array of `k` has a new last table. -/
def addElement (k : Text) : Entries → Option Entries :=
  alter k fun
    | none => some (.tables [] [])
    | some (.tables done last) => some (.tables (done ++ [last]) [])
    | some _ => none

/-- A document while it is put together: its entries, and the path of the current table. -/
structure Assembly where
  entries : Entries
  current : List Text

/-- The document after one more statement. -/
def Assembly.step (a : Assembly) : Statement → Option Assembly
  | .table path =>
    path.getLast?.bind fun k =>
      (within (nameTable k) path.dropLast a.entries).map fun entries => ⟨entries, path⟩
  | .element path =>
    path.getLast?.bind fun k =>
      (within (addElement k) path.dropLast a.entries).map fun entries => ⟨entries, path⟩
  | .pair path v =>
    (within (define v path) a.current a.entries).map fun entries => ⟨entries, a.current⟩

mutual

/-- The value that a node stands for. -/
def Node.toValue : Node → Value
  | .value v => v
  | .table _ entries => .table (entryValues entries)
  | .tables done last => .array (tableValues done ++ [.table (entryValues last)])

/-- The values that the entries of a table stand for. -/
def entryValues : List (Text × Node) → List (Text × Value)
  | [] => []
  | (k, n) :: rest => (k, n.toValue) :: entryValues rest

/-- The values that tables stand for. -/
def tableValues : List (List (Text × Node)) → List Value
  | [] => []
  | entries :: rest => .table (entryValues entries) :: tableValues rest

end

/-- The table that pairs of a path and a value make. -/
def tableOfPairs (pairs : List (List Text × Value)) : Option Value :=
  (pairs.foldlM (fun entries (path, v) => define v path entries) []).map fun entries =>
    .table (entryValues entries)

/-- The entries of the document that statements make. -/
def entriesOfStatements (statements : List Statement) : Option (List (Text × Value)) :=
  (statements.foldlM Assembly.step ⟨[], []⟩).map fun a => entryValues a.entries

end Toml
end BuildBlocks
