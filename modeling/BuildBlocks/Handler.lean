import BuildBlocks.Directive

/-!
# Handlers of custom blocks

A block whose type is not built in is replaced by what the handler registered for its type
makes of it.  A handler can leave a block as it is.
-/
namespace BuildBlocks

/-- What a handler is told about a block. -/
structure BlockContext where
  /-- The inner lines, put together. -/
  content : Text
  /-- The target of the directive, or the default one. -/
  target : Text
  attributes : Option Text
  searchPaths : Option Text
  /-- The number of the directive line, counted from one. -/
  line : Nat
  deriving DecidableEq, Repr

/-- The text that refers to a block's artifact, or nothing to leave the block alone. -/
abbrev Handler := BlockContext → Option Text

/-- Why a handler cannot be used for a type. -/
inductive HandlerError where
  /-- Blocks of the type are replaced without a handler. -/
  | reservedType (kind : Text)
  /-- No directive can carry the name. -/
  | invalidType (kind : Text)
  /-- The template asks for a value that does not exist. -/
  | unknownPlaceholder (kind placeholder : Text)
  deriving DecidableEq, Repr

namespace HandlerError

/-- The error in words. -/
def message : HandlerError → Text
  | reservedType kind =>
    "cannot register a handler for built-in block type '".toList ++ kind ++ ['\'']
  | invalidType kind =>
    "invalid block type '".toList ++ kind ++
      "': expected letters, digits or underscores".toList
  | unknownPlaceholder kind placeholder =>
    "unknown placeholder '\x7b".toList ++ placeholder ++ "\x7d' in template for '".toList ++
      kind ++ ['\'']

end HandlerError
end BuildBlocks
