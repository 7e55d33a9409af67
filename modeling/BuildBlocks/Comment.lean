import BuildBlocks.Text.Blank

/-!
# Comments in markup

A markup comment is removed before assets are looked for, so that what is commented out is
not collected.  A conditional comment is kept: only its opener is passed over, and comments
inside it are still removed.  `Comment.parts` takes a text apart into what is kept and what
is removed; it loses nothing (`flatMap_source_parts`).
-/
namespace BuildBlocks
open Text

namespace Comment

/-- What opens a comment. -/
def opener : Text :=
  "<!--".toList

/-- What closes a comment. -/
def closer : Text :=
  "-->".toList

/-- Whether an opener before the text belongs to a conditional comment: one with a condition
in brackets, or one of the forms `<!-->` and `<!--<!` that end or start a part which other
browsers read. -/
def isKept (body : Text) : Bool :=
  let body := trimStart body
  (after? "<!".toList body).isSome || (after? ['>'] body).isSome ||
    match after? "[if ".toList body with
    | some condition => holds [']'] condition && (after? [']'] condition).isNone
    | none => false

/-- A part of a text, as comments divide it. -/
inductive Part where
  /-- Text without an opener. -/
  | plain (t : Text)
  /-- The opener of a comment that is kept. -/
  | kept
  /-- A comment, given by what stands between its opener and its closer. -/
  | removed (body : Text)
  /-- Everything from an opener on to which no closer belongs, given by what follows it. -/
  | unclosed (body : Text)
  deriving DecidableEq, Repr

namespace Part

/-- The part as it stands in the text. -/
def source : Part → Text
  | plain t => t
  | kept => opener
  | removed body => opener ++ body ++ closer
  | unclosed body => opener ++ body

/-- What is left of the part when comments are removed. -/
def remainder : Part → Text
  | removed _ => []
  | part => part.source

end Part

/-- The parts of a text from left to right. -/
def parts (t : Text) : List Part :=
  match _h : cut? opener t with
  | none => [.plain t]
  | some (before, body) =>
    if isKept body then
      .plain before :: .kept :: parts body
    else
      match _h' : cut? closer body with
      | none => [.plain before, .unclosed body]
      | some (inside, rest) => .plain before :: .removed inside :: parts rest
termination_by t.length
decreasing_by
  · rw [eq_append_of_cut? _h]
    simp [opener]
    omega
  · rw [eq_append_of_cut? _h, eq_append_of_cut? _h']
    simp [opener]
    omega

/-- The text without the comments that are removed. -/
def strip (t : Text) : Text :=
  (parts t).flatMap Part.remainder

theorem flatMap_source_parts (t : Text) : (parts t).flatMap Part.source = t := by
  fun_induction parts t with
  | case1 t _ => simp [Part.source]
  | case2 t before body h _ ih =>
    simp [Part.source, ih, eq_append_of_cut? h]
  | case3 t before body h _ _ =>
    simp [Part.source, eq_append_of_cut? h]
  | case4 t before body h _ inside rest h' ih =>
    simp [Part.source, ih, eq_append_of_cut? h, eq_append_of_cut? h']

end Comment
end BuildBlocks
