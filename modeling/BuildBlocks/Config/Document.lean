import BuildBlocks.Config.Basic
import BuildBlocks.Toml.Reader

/-!
# Configuration documents

A configuration is written in TOML: `noconcat` in the table `output`, and a `template` in
the table `handlers.<type>` of every custom type.  Other keys mean nothing, but their values
have to be values.  A table with one expected key may also be given as an array that starts
with the value of that key, and a time counts as a table without that key.
-/
namespace BuildBlocks
open Toml

namespace Config

/-- The value of a key in the entries of a table, where no key stands twice. -/
def valueOf? (key : Text) (entries : List (Text × Value)) : Option Value :=
  (entries.find? fun e => e.1 = key).map Prod.snd

/-- Whether the values of all keys but one are values that can be handed on. -/
def othersRepresentable (key : Text) (entries : List (Text × Value)) : Bool :=
  entriesAreRepresentable (entries.filter fun e => e.1 ≠ key)

/-- The preview that the value of `output` asks for. -/
def previewOf? : Value → Option Bool
  | .table entries =>
    if othersRepresentable "noconcat".toList entries then
      match valueOf? "noconcat".toList entries with
      | none => some false
      | some (.boolean b) => some b
      | some _ => none
    else
      none
  | .array [] => some false
  | .array (.boolean b :: _) => some b
  | .dateTime _ => some false
  | _ => none

/-- The template that the value of a type in `handlers` gives. -/
def templateOf? : Value → Option Text
  | .table entries =>
    if othersRepresentable "template".toList entries then
      match valueOf? "template".toList entries with
      | some (.string t) => some t
      | _ => none
    else
      none
  | .array (.string t :: _) => some t
  | _ => none

/-- The templates that the value of `handlers` gives. -/
def templatesOf? : Value → Option (SortedMap Text)
  | .table entries =>
    (entries.mapM fun e => (templateOf? e.2).map fun t => (e.1, t)).map .ofList
  | _ => none

/-- The configuration that the entries of a document describe. -/
def ofEntries? (entries : List (Text × Value)) : Option Config :=
  let others := entries.filter fun e => e.1 ≠ "output".toList ∧ e.1 ≠ "handlers".toList
  if entriesAreRepresentable others then
    ((valueOf? "output".toList entries).elim (some false) previewOf?).bind fun preview =>
      ((valueOf? "handlers".toList entries).elim (some .empty) templatesOf?).map fun templates =>
        ⟨preview, templates, none⟩
  else
    none

/-- The configuration that a document describes. -/
def ofDocument? (document : Text) : Option Config :=
  (entries? document).bind ofEntries?

end Config
end BuildBlocks
