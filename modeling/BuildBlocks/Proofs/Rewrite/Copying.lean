import BuildBlocks.Proofs.Comment.Conditional
import BuildBlocks.Proofs.Manifest.References
import BuildBlocks.Proofs.Rewrite.Frame

/-! # What a reference copies out of its block

The text that comes in the place of a block is put together from fixed pieces, blanks, and what
is copied out of the block: a target, attributes, the opener of a conditional comment
(`Block.Copies`).  Without handlers `build:` stands in such a text only if it stands in one of
the copies (`not_infix_of_replaces`).
-/
namespace BuildBlocks
open Text Reference

/-! ## Tags -/

namespace Reference

theorem not_infix_attributeText {attributes : Option Text}
    (h : ∀ a, attributes = some a → ¬ "build:".toList <:+: a) :
    ¬ "build:".toList <:+: attributeText attributes := by
  cases attributes with
  | none => decide
  | some a => exact not_infix_append_cons (u := []) (by decide) (by decide) (h a rfl)

/-- A tag holds `build:` only in its target or in its attributes. -/
theorem not_infix_tag {lead target rest : Text} {attributes : Option Text}
    (hlead : ':' ∉ lead) (hlast : lead.getLast? = some '"')
    (hrest : ':' ∉ rest) (hhead : rest.head? = some '>')
    (htarget : ¬ "build:".toList <:+: target)
    (hattributes : ∀ a, attributes = some a → ¬ "build:".toList <:+: a) :
    ¬ "build:".toList <:+: lead ++ target ++ ['"'] ++ attributeText attributes ++ rest := by
  have hcolon : ':' ∈ "build:".toList := by decide
  have hbehind : ¬ "build:".toList <:+: attributeText attributes ++ rest := by
    refine not_infix_append (not_infix_attributeText hattributes)
      (not_infix_of_not_mem hcolon hrest) (.inr fun c hc => ?_)
    rw [hhead, Option.mem_some] at hc
    rw [← hc]
    decide
  have hquoted : ¬ "build:".toList <:+: target ++ '"' :: (attributeText attributes ++ rest) :=
    not_infix_append_cons (by decide) htarget hbehind
  have hassoc : lead ++ target ++ ['"'] ++ attributeText attributes ++ rest =
      lead ++ (target ++ '"' :: (attributeText attributes ++ rest)) := by simp
  rw [hassoc]
  refine not_infix_append (not_infix_of_not_mem hcolon hlead) hquoted (.inl fun c hc => ?_)
  rw [hlast, Option.mem_some] at hc
  rw [← hc]
  decide

theorem not_infix_stylesheetTag {target : Text} {attributes : Option Text}
    (htarget : ¬ "build:".toList <:+: target)
    (hattributes : ∀ a, attributes = some a → ¬ "build:".toList <:+: a) :
    ¬ "build:".toList <:+: stylesheetTag target attributes :=
  not_infix_tag (by decide) (by decide) (by decide) (by decide) htarget hattributes

theorem not_infix_scriptTag {target : Text} {attributes : Option Text}
    (htarget : ¬ "build:".toList <:+: target)
    (hattributes : ∀ a, attributes = some a → ¬ "build:".toList <:+: a) :
    ¬ "build:".toList <:+: scriptTag target attributes :=
  not_infix_tag (by decide) (by decide) (by decide) (by decide) htarget hattributes

end Reference

/-! ## Replacements -/

namespace Block

/-- The text is copied out of the block when its reference is written. -/
inductive Copies (b : Block) (ending : LineEnding) (o : Options) : Text → Prop
  /-- A tag names the target. -/
  | target {tag : Text} (hr : b.reference? ending o = some tag) (hne : tag ≠ []) :
      Copies b ending o b.directive.targetOrDefault
  /-- A tag carries the attributes. -/
  | attributes {tag attributes : Text} (hr : b.reference? ending o = some tag) (hne : tag ≠ [])
      (ha : b.directive.attributes = some attributes) : Copies b ending o attributes
  /-- A conditional comment is opened in front of the reference. -/
  | opener {reference : Text} {c : ConditionalComment}
      (hr : b.reference? ending o = some reference)
      (hc : ConditionalComment.find (b.text ending) = some c) : Copies b ending o c.opener

variable {b : Block} {ending : LineEnding} {o : Options} {text : Text}

/-- Without handlers only a stylesheet block or a script block has a reference to show. -/
theorem css_or_js_of_reference? (ho : o.handlers = .empty) {tag : Text}
    (hr : b.reference? ending o = some tag) (hne : tag ≠ []) :
    b.directive.blockType = .css ∨ b.directive.blockType = .js := by
  cases htype : b.directive.blockType with
  | css => exact .inl rfl
  | js => exact .inr rfl
  | remove =>
    simp only [reference?, htype, Option.some.injEq] at hr
    exact absurd hr.symm hne
  | custom name =>
    simp only [reference?, htype, ho] at hr
    cases hr

theorem not_infix_reference (ho : o.handlers = .empty)
    (hcopies : ∀ t, b.Copies ending o t → ¬ "build:".toList <:+: t) {reference : Text}
    (hr : b.reference? ending o = some reference) : ¬ "build:".toList <:+: reference := by
  by_cases hne : reference = []
  · rw [hne]
    decide
  · have htarget := hcopies _ (.target hr hne)
    have hattributes := fun a ha => hcopies a (.attributes hr hne ha)
    rcases tag_of_reference? (css_or_js_of_reference? ho hr hne) hr hne with ⟨_, rfl⟩ | ⟨_, rfl⟩
    · exact not_infix_stylesheetTag htarget hattributes
    · exact not_infix_scriptTag htarget hattributes

/-- The blanks in front of a directive complete no `build:`. -/
theorem not_infix_indent_append {t : Text} (h : ¬ "build:".toList <:+: t) :
    ¬ "build:".toList <:+: b.indent ++ t := by
  have hblank : ∀ c ∈ b.indent, c ∉ "build:".toList := fun c hc =>
    not_mem_of_isBlank (by decide) (List.all_eq_true.mp List.all_takeWhile c hc)
  refine not_infix_append (fun hstands => ?_) h
    (.inl fun c hc => hblank c (List.mem_of_getLast? hc))
  exact hblank 'b' (hstands.subset (by decide)) (by decide)

theorem not_infix_join (ending : LineEnding) {lines : List Text}
    (h : ∀ l ∈ lines, ¬ "build:".toList <:+: l) :
    ¬ "build:".toList <:+: join ending.text lines := by
  induction lines with
  | nil => exact show ¬ "build:".toList <:+: [] by decide
  | cons l lines ih =>
    have hl := h l List.mem_cons_self
    have hrest := ih fun m hm => h m (List.mem_cons_of_mem _ hm)
    cases lines with
    | nil => exact hl
    | cons m lines =>
      rw [join, List.append_assoc]
      cases ending with
      | lf => exact not_infix_append_cons (by decide) hl hrest
      | crlf =>
        refine not_infix_append_cons (by decide) hl ?_
        exact not_infix_append_cons (u := []) (by decide) (by decide) hrest

/-- What is put in the place of a block holds `build:` only when it is copied out of it. -/
theorem not_infix_of_replaces (ho : o.handlers = .empty) (hpreview : o.preview = false)
    (hcopies : ∀ t, b.Copies ending o t → ¬ "build:".toList <:+: t)
    (h : b.Replaces ending o text) : ¬ "build:".toList <:+: text := by
  cases h with
  | preview _ hon =>
    rw [hpreview] at hon
    cases hon
  | plain hr _ _ => exact not_infix_indent_append (not_infix_reference ho hcopies hr)
  | @conditional reference c hr _ hc =>
    -- the closer has no colon, in whatever case it is written
    have hcloser : ¬ "build:".toList <:+: c.closer := by
      refine not_infix_of_not_mem (show ':' ∈ "build:".toList by decide) fun hmem => ?_
      have hfolded := List.mem_map_of_mem (f := foldCase) hmem
      rw [(ConditionalComment.wellFormed_of_find hc).closer] at hfolded
      exact absurd hfolded (by decide)
    refine not_infix_join ending fun l hl => ?_
    simp only [List.mem_cons, List.not_mem_nil, or_false] at hl
    rcases hl with rfl | rfl | rfl
    · exact not_infix_indent_append (hcopies _ (.opener hr hc))
    · exact not_infix_indent_append (not_infix_reference ho hcopies hr)
    · exact not_infix_indent_append hcloser

end Block
end BuildBlocks
