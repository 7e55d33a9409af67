import BuildBlocks.Proofs.Block.Growth
import BuildBlocks.Proofs.Reference.Elements

/-! # When a block gives way to a tag

A stylesheet block gives way to a tag exactly when a link stands inside it, and a script block
when a script does; else nothing is left of it but the conditional comment that it holds.  What
is found inside a block is also found among further lines, so a block that gives way to a tag
does so after it has gained lines (`tag_iff_element`).
-/
namespace BuildBlocks
open Text Reference

namespace Block
variable {b c : Block} {ending ending' : LineEnding} {o : Options} {tag reference other : Text}

/-- The reference comes in the place of the block. -/
def GivesWay (b : Block) (ending : LineEnding) (o : Options) (reference : Text) : Prop :=
  b.replacement? ending o = some (b.wrap ending reference)

/-- The tag of a block of a type that is built. -/
def tag? (b : Block) : Option Text :=
  match b.directive.blockType with
  | .css => some (stylesheetTag b.directive.targetOrDefault b.directive.attributes)
  | .js => some (scriptTag b.directive.targetOrDefault b.directive.attributes)
  | .remove => none
  | .custom _ => none

/-- Whether an element that the tag of the block stands for is inside. -/
def holdsElement (b : Block) (ending : LineEnding) : Bool :=
  match b.directive.blockType with
  | .css => linksStylesheet (b.innerContent ending)
  | .js => holdsScript (b.innerContent ending)
  | .remove => false
  | .custom _ => false

theorem wrap_inj : b.wrap ending reference = b.wrap ending other ↔ reference = other := by
  rw [wrap, wrap]
  split
  · simp only [List.append_assoc, List.append_cancel_left_eq, List.append_left_inj]
  · exact List.append_right_inj _

theorem tag_ne_nil (htag : b.tag? = some tag) : tag ≠ [] := by
  rw [tag?] at htag
  split at htag
  · exact Option.some.inj htag ▸ stylesheetTag_ne_nil _ _
  · exact Option.some.inj htag ▸ scriptTag_ne_nil _ _
  · cases htag
  · cases htag

/-- The reference of a block of a type that is built is its tag or empty. -/
theorem reference?_of_tag (htag : b.tag? = some tag) (ending : LineEnding) (o : Options) :
    b.reference? ending o = some (if b.holdsElement ending then tag else []) := by
  rw [tag?] at htag
  split at htag <;> rename_i htype
  · rw [← Option.some.inj htag]
    simp only [reference?, holdsElement, htype]
  · rw [← Option.some.inj htag]
    simp only [reference?, holdsElement, htype]
  · cases htag
  · cases htag

/-- The element decides between the tag and nothing. -/
theorem givesWay_iff (ho : o.preview = false) (htag : b.tag? = some tag) :
    (b.GivesWay ending o tag ↔ b.holdsElement ending = true) ∧
      (b.GivesWay ending o [] ↔ ¬ b.holdsElement ending = true) := by
  have hgives : ∀ reference, b.GivesWay ending o reference ↔
      (if b.holdsElement ending then tag else []) = reference := fun reference => by
    rw [GivesWay, replacement?, reference?_of_tag htag, Option.map_some, if_neg (by simp [ho]),
      Option.some.injEq, wrap_inj]
  rw [hgives, hgives]
  have hne : tag ≠ [] := tag_ne_nil htag
  cases b.holdsElement ending <;> simp [hne, Ne.symm hne]

/-! ## Among further lines -/

/-- Among further lines an element is found as before. -/
theorem holdsElement_of_sublist (hdirective : c.directive = b.directive)
    (hlines : b.innerLines.Sublist c.innerLines) (ending' : LineEnding)
    (h : b.holdsElement ending = true) : c.holdsElement ending' = true := by
  rw [holdsElement] at h ⊢
  rw [hdirective]
  split at h
  · exact linksStylesheet_of_sublist hlines ending' h
  · exact holdsScript_of_sublist hlines ending' h
  · cases h
  · cases h

/-- No element is in a block without lines inside. -/
theorem innerLines_ne_nil_of_holdsElement (h : b.holdsElement ending = true) :
    b.innerLines ≠ [] := by
  intro hnil
  have hnone : b.holdsElement ending = false := by
    rw [holdsElement, innerContent, hnil]
    split <;> rfl
  rw [hnone] at h
  cases h

/-- A block with a tag in its place has one after it has gained lines. -/
theorem GivesWay.gains (ho : o.preview = false) {document other : Text}
    (hb : b ∈ (BlockTable.extract document).terminated) (hgains : b.Gains document other)
    (htag : b.tag? = some tag) (h : b.GivesWay ending o tag) :
    ∃ c ∈ (BlockTable.extract other).terminated, c.lineNumber = b.lineNumber ∧
      c.directive = b.directive ∧ c.GivesWay (BlockTable.extract other).ending o tag := by
  have hheld : b.holdsElement ending = true := (givesWay_iff ho htag).1.mp h
  obtain ⟨c, hc, hnumber, hdirective, hlines⟩ :=
    b.exists_of_gains hb hgains (innerLines_ne_nil_of_holdsElement hheld)
  have htag' : c.tag? = some tag := by rwa [tag?, hdirective]
  exact ⟨c, hc, hnumber, hdirective, (givesWay_iff ho htag').1.mpr
    (holdsElement_of_sublist hdirective hlines _ hheld)⟩

end Block

open Block

/-- **Tags are for elements.**  Without a preview, a closed stylesheet block gives way to its tag
exactly when `link`, in any case of letters, stands inside with a closing bracket behind it on
its line, and a script block when `script`, at the end of a word, stands inside with the end of
a script behind it; else it gives way to nothing.  So lines that a block gains, neither
directives nor end markers and anywhere inside it, never delete its tag. -/
theorem tag_iff_element {o : Options} (ho : o.preview = false) (document : Text) :
    let t := BlockTable.extract document
    ∀ b ∈ t.terminated,
      (b.directive.blockType = .css →
        (b.GivesWay t.ending o
            (stylesheetTag b.directive.targetOrDefault b.directive.attributes) ↔
          HasLink (b.innerContent t.ending)) ∧
        (b.GivesWay t.ending o [] ↔ ¬ HasLink (b.innerContent t.ending))) ∧
      (b.directive.blockType = .js →
        (b.GivesWay t.ending o (scriptTag b.directive.targetOrDefault b.directive.attributes) ↔
          HasScript (b.innerContent t.ending)) ∧
        (b.GivesWay t.ending o [] ↔ ¬ HasScript (b.innerContent t.ending))) ∧
      ∀ other, b.Gains document other →
        ∀ tag, b.tag? = some tag → b.GivesWay t.ending o tag →
          ∃ c ∈ (BlockTable.extract other).terminated, c.lineNumber = b.lineNumber ∧
            c.directive = b.directive ∧ c.GivesWay (BlockTable.extract other).ending o tag := by
  intro t b hb
  refine ⟨fun htype => ?_, fun htype => ?_, fun other hgains tag htag h =>
    h.gains ho hb hgains htag⟩
  · have htag : b.tag? =
        some (stylesheetTag b.directive.targetOrDefault b.directive.attributes) := by
      rw [tag?, htype]
    have hheld : b.holdsElement t.ending = linksStylesheet (b.innerContent t.ending) := by
      rw [holdsElement, htype]
    rw [← linksStylesheet_iff_hasLink, ← hheld]
    exact givesWay_iff ho htag
  · have htag : b.tag? =
        some (scriptTag b.directive.targetOrDefault b.directive.attributes) := by
      rw [tag?, htype]
    have hheld : b.holdsElement t.ending = holdsScript (b.innerContent t.ending) := by
      rw [holdsElement, htype]
    rw [← holdsScript_iff_hasScript, ← hheld]
    exact givesWay_iff ho htag

/-- A script block whose script takes two lines. -/
def called : Text :=
  "<!-- build:js -->\nscript\n)\n<!-- endbuild -->".toList

/-- The same block with lines before and between those of its script. -/
def calledAmong : Text :=
  "<!-- build:js -->\nscripts\nscript\n1\n)\n<!-- endbuild -->".toList

/-- The block of `called`. -/
def calledBlock : Block where
  key := ⟨"js".toList, none, none, none⟩
  directive := ⟨"js".toList, none, none, none⟩
  lines := ["<!-- build:js -->".toList, "script".toList, [')'], "<!-- endbuild -->".toList]
  span := ⟨0, 44⟩
  lineNumber := 1
  terminated := true

set_option maxRecDepth 20000 in
theorem extract_called : BlockTable.extract called = ⟨[calledBlock], .lf⟩ := by
  decide

set_option maxRecDepth 20000 in
theorem gains_calledBlock : calledBlock.Gains called calledAmong :=
  ⟨[⟨"<!-- build:js -->".toList, some .lf⟩], [⟨"script".toList, some .lf⟩, ⟨[')'], some .lf⟩],
    [⟨"scripts".toList, some .lf⟩, ⟨"script".toList, some .lf⟩, ⟨['1'], some .lf⟩,
      ⟨[')'], some .lf⟩],
    [⟨"<!-- endbuild -->".toList, none⟩], by decide, by decide, rfl, rfl, by decide, by decide⟩

set_option maxRecDepth 20000 in
theorem givesWay_calledBlock :
    calledBlock.GivesWay .lf .default (scriptTag "replace".toList none) := by
  have hscript : holdsScript "script\n)".toList = true := by decide
  have hheld : calledBlock.holdsElement .lf = true := hscript
  exact (givesWay_iff rfl (by decide)).1.mpr hheld

/-- The script of `called` is loaded by its tag, also among further lines. -/
theorem givesWay_calledAmong :
    Options.default.preview = false ∧ calledBlock ∈ (BlockTable.extract called).terminated ∧
      calledBlock.Gains called calledAmong ∧
      ∃ c ∈ (BlockTable.extract calledAmong).terminated, c.lineNumber = 1 ∧
        c.directive = calledBlock.directive ∧
        c.GivesWay (BlockTable.extract calledAmong).ending .default
          (scriptTag "replace".toList none) := by
  have hb : calledBlock ∈ (BlockTable.extract called).terminated := by
    rw [extract_called]
    decide
  have hending : (BlockTable.extract called).ending = .lf := by rw [extract_called]
  have hgives := givesWay_calledBlock
  rw [← hending] at hgives
  have hgained := (tag_iff_element rfl called calledBlock hb).2.2 calledAmong gains_calledBlock
    (scriptTag "replace".toList none) (by decide) hgives
  exact ⟨rfl, hb, gains_calledBlock, hgained⟩

end BuildBlocks
