import BuildBlocks.Handler

/-!
# Templates

A template is text with placeholders in braces, for which the values of a block are put.
All values are put in at once: braces in a value are text.  A name in braces that is no
placeholder is an error; braces around anything else are text.
-/
namespace BuildBlocks
open Text

/-- A value of a block that a template can ask for. -/
inductive Placeholder where
  | target
  | attributes
  | searchPaths
  | content
  deriving DecidableEq, Repr

namespace Placeholder

/-- The name of the placeholder in a template. -/
def name : Placeholder → Text
  | target => "target".toList
  | attributes => "attributes".toList
  | searchPaths => "search_paths".toList
  | content => "content".toList

/-- The placeholder with a name. -/
def ofName? (t : Text) : Option Placeholder :=
  [target, attributes, searchPaths, content].find? fun p => p.name = t

/-- The text that stands for the placeholder; a value that a block lacks is empty. -/
def value (context : BlockContext) : Placeholder → Text
  | target => context.target
  | attributes => context.attributes.getD []
  | searchPaths => context.searchPaths.getD []
  | content => context.content

end Placeholder

/-- A stretch of a template. -/
inductive Piece where
  | literal (t : Text)
  | placeholder (p : Placeholder)
  deriving DecidableEq, Repr

namespace Piece

/-- The piece as a template writes it. -/
def source : Piece → Text
  | literal t => t
  | placeholder p => '{' :: p.name ++ ['}']

/-- The text that the piece stands for. -/
def render (context : BlockContext) : Piece → Text
  | literal t => t
  | placeholder p => p.value context

end Piece

/-- A template: its pieces in order. -/
structure Template where
  pieces : List Piece
  deriving DecidableEq, Repr

namespace Template

/-- The pieces of a template text, or the first name in braces that is no placeholder. -/
def read (t : Text) : Except Text (List Piece) :=
  match _h : cut? ['{'] t with
  | none => .ok [.literal t]
  | some (before, inside) =>
    match _h' : cut? ['}'] inside with
    | none => .ok [.literal t]
    | some (name, rest) =>
      match Placeholder.ofName? name with
      | some p => (read rest).map fun pieces => .literal before :: .placeholder p :: pieces
      | none =>
        if BlockType.isName name then .error name
        else (read rest).map fun pieces => .literal (before ++ '{' :: name ++ ['}']) :: pieces
termination_by t.length
decreasing_by
  all_goals
    rw [eq_append_of_cut? _h, eq_append_of_cut? _h']
    simp
    omega

/-- The template that a text writes, for blocks of the type `kind`. -/
def parse (kind t : Text) : Except HandlerError Template :=
  match read t with
  | .ok pieces => .ok ⟨pieces⟩
  | .error name => .error (.unknownPlaceholder kind name)

/-- The template with the values of a block. -/
def render (template : Template) (context : BlockContext) : Text :=
  template.pieces.flatMap (Piece.render context)

/-- The handler that renders the template for every block. -/
def handler (template : Template) : Handler :=
  fun context => some (template.render context)

end Template
end BuildBlocks
