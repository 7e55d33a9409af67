import BuildBlocks.Text.Basic

/-!
# JSON values

A value as a JSON text spells it: members stay in their order and may repeat a name, and a
number stays a numeral.
-/
namespace BuildBlocks
namespace Json

/-- What a string literal stands for: a text, or nothing when its escapes leave half of a
surrogate pair alone. -/
abbrev Literal := Option Text

/-- A JSON value. -/
inductive Value where
  | null
  | boolean (b : Bool)
  | number (numeral : Text)
  | string (literal : Literal)
  | array (items : List Value)
  | object (members : List (Literal × Value))
  deriving Inhabited

end Json
end BuildBlocks
