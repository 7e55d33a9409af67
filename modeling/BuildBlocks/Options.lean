import BuildBlocks.Handler
import BuildBlocks.SortedMap

/-!
# Options of a transformation

A handler can be registered for every name that a directive can carry, the built-in types
excepted; a later handler of the same type takes the place of the earlier one.
-/
namespace BuildBlocks
open Text

/-- How blocks are replaced. -/
structure Options where
  /-- The handlers of custom block types, by type name. -/
  handlers : SortedMap Handler
  /-- Whether blocks are replaced by their own content instead of a reference. -/
  preview : Bool

namespace Options

/-- No handlers, and no preview. -/
def default : Options :=
  ⟨.empty, false⟩

/-- The options with a handler for the type `kind`. -/
def register (o : Options) (kind : Text) (handler : Handler) : Except HandlerError Options :=
  match BlockType.ofName kind with
  | .custom _ =>
    if BlockType.isName kind then .ok { o with handlers := o.handlers.insert kind handler }
    else .error (.invalidType kind)
  | _ => .error (.reservedType kind)

/-- The options with the preview turned on or off. -/
def withPreview (o : Options) (preview : Bool) : Options :=
  { o with preview }

/-- The options in words: the types with a handler in ascending order, and the preview. -/
def summary (o : Options) : Text :=
  "TransformOptions \x7b handlers: [".toList ++
    join ", ".toList (o.handlers.keys.map fun kind => '"' :: kind ++ ['"']) ++
    "], noconcat: ".toList ++ (if o.preview then "true" else "false").toList ++ " \x7d".toList

end Options
end BuildBlocks
