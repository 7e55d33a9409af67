import BuildBlocks.Json.Printer
import BuildBlocks.Json.Reader
import BuildBlocks.Manifest

/-!
# Manifests in JSON

A manifest is written as an object of types, each an object of targets, each an object with
`assets` and, when an entry has them, `searchPaths`.  A reader also takes an entry that is
an array of these two in order, passes over members it does not know, and lets the last of
several equal types or targets count; an entry must not name a member of its own twice.
-/
namespace BuildBlocks
open Json

namespace ManifestEntry

/-- The member name of the assets. -/
def assetsName : Text :=
  "assets".toList

/-- The member name of the search paths. -/
def searchPathsName : Text :=
  "searchPaths".toList

/-- The entry as a JSON value. -/
def toJson (e : ManifestEntry) : Value :=
  .object ((some assetsName, .array (e.assets.map fun asset => .string (some asset))) ::
    (e.searchPaths.map fun paths => (some searchPathsName, Value.string (some paths))).toList)

/-- The texts of an array of strings. -/
def texts? : Value → Option (List Text)
  | .array items => items.mapM fun
    | .string literal => literal
    | _ => none
  | _ => none

/-- The search paths that a value writes; `null` writes that there are none. -/
def searchPaths? : Value → Option (Option Text)
  | .null => some none
  | .string (some paths) => some (some paths)
  | _ => none

/-- The values of the members with a name. -/
def named (name : Text) (members : List (Literal × Value)) : List Value :=
  (members.filter fun m => m.1 == some name).map Prod.snd

/-- The entry that a JSON value writes. -/
def ofJson? : Value → Option ManifestEntry
  | .object members =>
    if members.all fun m => m.1.isSome then
      match named assetsName members, named searchPathsName members with
      | [assets], [] => (texts? assets).map fun assets => ⟨assets, none⟩
      | [assets], [paths] =>
        (texts? assets).bind fun assets => (searchPaths? paths).map fun paths => ⟨assets, paths⟩
      | _, _ => none
    else
      none
  | .array [assets] => (texts? assets).map fun assets => ⟨assets, none⟩
  | .array [assets, paths] =>
    (texts? assets).bind fun assets => (searchPaths? paths).map fun paths => ⟨assets, paths⟩
  | _ => none

end ManifestEntry

/-- The map that an object writes, its values read by `read?`. -/
def SortedMap.ofJson? {β : Type} (read? : Value → Option β) : Value → Option (SortedMap β)
  | .object members =>
    (members.mapM fun m : Literal × Value =>
      m.1.bind fun name => (read? m.2).map fun v => (name, v)).map .ofList
  | _ => none

/-- The object of a map, its values written by `write`. -/
def SortedMap.toJson {β : Type} (write : β → Value) (m : SortedMap β) : Value :=
  .object (m.entries.map fun (k, v) => (some k, write v))

namespace Manifest

/-- The manifest as a JSON value. -/
def toJson (m : Manifest) : Value :=
  m.types.toJson fun targets => targets.toJson ManifestEntry.toJson

/-- The manifest that a JSON value writes. -/
def ofJson? (v : Value) : Option Manifest :=
  (SortedMap.ofJson? (SortedMap.ofJson? ManifestEntry.ofJson?) v).map fun types => ⟨types⟩

/-- The manifest as a text. -/
def write (m : Manifest) : Text :=
  m.toJson.text

/-- The manifest that a text writes. -/
def read? (t : Text) : Option Manifest :=
  (Value.ofText? t).bind ofJson?

end Manifest
end BuildBlocks
