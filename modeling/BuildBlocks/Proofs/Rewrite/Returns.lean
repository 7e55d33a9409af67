import BuildBlocks.Proofs.Comment.Conditional
import BuildBlocks.Proofs.Directive.Fields
import BuildBlocks.Proofs.Document.Returns
import BuildBlocks.Proofs.Manifest.Influence
import BuildBlocks.Proofs.Rewrite.Copying

/-! # Transforming a document with the other line breaks

The searches behind a reference go over line breaks or stop at them, and a carriage return in
front of a line feed changes neither, as long as no line break comes directly after the `[if` of
a conditional comment (`BreaksCondition`).  What comes in the place of a block therefore differs
in its line breaks alone (`replacement?_crlf`), and so does the whole transformed document, when
the document holds a line break from which their kind can be told (`transform_withReturns`).
-/
namespace BuildBlocks
open Text

/-- A line break comes directly after `[if`, in any letter case. -/
def Text.BreaksCondition (t : Text) : Prop :=
  ∃ word : Text, word.map foldCase = "[if".toList ∧ word ++ ['\n'] <:+: t

theorem Text.BreaksCondition.of_infix {t u : Text} (h : t.BreaksCondition) (htu : t <:+: u) :
    u.BreaksCondition := by
  obtain ⟨word, hword, hstands⟩ := h
  exact ⟨word, hword, hstands.trans htu⟩

theorem Text.breaksCondition_iff {t : Text} :
    t.BreaksCondition ↔
      ∃ u ∈ t.tails, ∃ found ∈ afterFolded? "[if".toList u, found.2.head? = some '\n' := by
  constructor
  · rintro ⟨word, hword, before, after, rfl⟩
    have hfound : afterFolded? "[if".toList (word ++ '\n' :: after) = some (word, '\n' :: after) :=
      afterFolded?_eq_some_iff.mpr ⟨rfl, hword⟩
    exact ⟨_, (List.mem_tails _ _).mpr ⟨before, by simp⟩, _, hfound, rfl⟩
  · rintro ⟨u, hu, ⟨word, rest⟩, hfound, hhead⟩
    obtain ⟨before, rfl⟩ := (List.mem_tails _ _).mp hu
    obtain ⟨rfl, hword⟩ := afterFolded?_eq_some_iff.mp hfound
    obtain ⟨after, rfl⟩ := List.head?_eq_some_iff.mp hhead
    exact ⟨word, hword, before, after, by simp⟩

instance (t : Text) : Decidable t.BreaksCondition :=
  decidable_of_iff _ Text.breaksCondition_iff.symm

/-! ## Elements -/

namespace Reference

/-- Both characters of a line break end the line on which a link stands. -/
theorem takeWhile_withReturns (t : Text) :
    (withReturns t).takeWhile (fun c => c != '\r' && c != '\n') =
      t.takeWhile fun c => c != '\r' && c != '\n' := by
  induction t with
  | nil => rfl
  | cons c t ih =>
    by_cases hc : c = '\n'
    · subst hc
      rfl
    · rw [withReturns_cons hc, List.takeWhile_cons, List.takeWhile_cons, ih]

theorem linkAt?_withReturns (t : Text) : linkAt? (withReturns t) = linkAt? t := by
  rw [linkAt?, linkAt?, afterFolded?_withReturns (by decide) (by decide)]
  cases afterFolded? "link".toList t with
  | none => rfl
  | some found => simp only [Option.map_some, takeWhile_withReturns]

theorem linksStylesheet_withReturns (t : Text) :
    linksStylesheet (withReturns t) = linksStylesheet t :=
  isSome_search_withReturns (fun _ => rfl) (fun _ => rfl) linkAt?_withReturns t

theorem scriptEndAt?_withReturns (t : Text) : scriptEndAt? (withReturns t) = scriptEndAt? t := by
  rw [scriptEndAt?, scriptEndAt?, afterFolded?_withReturns (by decide) (by decide),
    after?_withReturns (by decide) (by decide), Option.isSome_map, Option.isSome_map]

theorem endsWord_withReturns (t : Text) : endsWord (withReturns t) = endsWord t := by
  cases t with
  | nil => rfl
  | cons c t =>
    by_cases hc : c = '\n'
    · -- neither character of the line break belongs to a word
      have hbreak : isWordCharacter '\r' = isWordCharacter '\n' := by decide +kernel
      subst hc
      rw [withReturns_lineFeed, endsWord, endsWord, hbreak]
    · rw [withReturns_cons hc]
      rfl

theorem scriptAt?_withReturns (t : Text) : scriptAt? (withReturns t) = scriptAt? t := by
  rw [scriptAt?, scriptAt?, afterFolded?_withReturns (by decide) (by decide)]
  cases afterFolded? "script".toList t with
  | none => rfl
  | some found =>
    simp only [Option.map_some, endsWord_withReturns,
      isSome_search_withReturns (fun _ => rfl) (fun _ => rfl) scriptEndAt?_withReturns]

theorem holdsScript_withReturns (t : Text) : holdsScript (withReturns t) = holdsScript t :=
  isSome_search_withReturns (fun _ => rfl) (fun _ => rfl) scriptAt?_withReturns t

/-- A tag holds a line feed only in its target or in its attributes. -/
theorem not_mem_tag {lead target rest : Text} {attributes : Option Text} (hlead : '\n' ∉ lead)
    (hrest : '\n' ∉ rest) (htarget : '\n' ∉ target)
    (hattributes : ∀ a, attributes = some a → '\n' ∉ a) :
    '\n' ∉ lead ++ target ++ ['"'] ++ attributeText attributes ++ rest := by
  have htext : '\n' ∉ attributeText attributes := by
    cases attributes with
    | none => exact List.not_mem_nil
    | some a => simpa [attributeText] using hattributes a rfl
  simp [hlead, hrest, htarget, htext]

end Reference

/-! ## Conditional comments -/

namespace ConditionalComment
variable {t : Text} {c : ConditionalComment}

theorem condition?_withReturns (t : Text) :
    condition? (withReturns t) =
      (condition? t).map fun (condition, rest) => (condition, withReturns rest) := by
  rw [condition?, condition?, cut?_withReturns (show leadEnd = ']' :: ['>'] from rfl) (by decide)
    (by decide)]
  cases cut? leadEnd t with
  | none => rfl
  | some cut =>
    obtain ⟨condition, rest⟩ := cut
    simp only [Option.map_some, List.contains_iff_mem, mem_withReturns_iff]
    by_cases h : '\n' ∈ condition
    · rw [if_pos h, if_pos h]
      rfl
    · rw [if_neg h, if_neg h, withReturns_of_not_mem h]
      rfl

/-- The blank after `[if` is looked at on its own; apart from it, a conditional comment is read as
any other text. -/
theorem at?_withReturns
    (h : ∀ written : Text, written.map foldCase = lead → ¬ written ++ ['\n'] <+: t) :
    at? (withReturns t) = at? t := by
  rw [at?, at?, afterFolded?_withReturns (by decide) (by decide)]
  cases hlead : afterFolded? lead t with
  | none => rfl
  | some found =>
    obtain ⟨written, rest⟩ := found
    obtain ⟨rfl, hwritten⟩ := afterFolded?_eq_some_iff.mp hlead
    cases rest with
    | nil => rfl
    | cons blank rest =>
      have hblank : blank ≠ '\n' := by
        rintro rfl
        exact h written hwritten ⟨rest, by simp⟩
      simp only [Option.map_some, withReturns_cons hblank]
      split
      · rw [condition?_withReturns]
        cases condition? rest with
        | none => rfl
        | some cut =>
          simp only [Option.map_some, Option.bind_some]
          rw [search_afterFolded?_withReturns (show closing = '<' :: "![endif]-->".toList from rfl)
            (by decide) (by decide)]
          cases search (afterFolded? closing) cut.2 <;> rfl
      · rfl

theorem find_withReturns (h : ¬ t.BreaksCondition) : find (withReturns t) = find t := by
  have hat : ∀ u v, u ++ v = t → at? (withReturns v) = (at? v).map id := by
    rintro u v rfl
    rw [Option.map_id_fun, id]
    refine at?_withReturns fun written hwritten hstart => h ?_
    -- what folds to the lead ends with what folds to `[if`
    obtain ⟨front, word, rfl, _, hword⟩ := List.map_eq_append_iff.mp
      (show written.map foldCase = "<!--".toList ++ "[if".toList from hwritten)
    have hinside : word ++ ['\n'] <:+: front ++ word ++ ['\n'] := ⟨front, [], by simp⟩
    exact ⟨word, hword, (hinside.trans hstart.isInfix).trans (List.suffix_append u v).isInfix⟩
  rw [find, find, search_withReturns (f := id) (fun _ => rfl) (fun _ => rfl) hat]
  cases search at? t <;> rfl

/-- The ends of a conditional comment are unbroken, when no line break comes after `[if`. -/
theorem not_mem_of_find (h : ¬ t.BreaksCondition) (hc : find t = some c) :
    '\n' ∉ c.opener ∧ '\n' ∉ c.closer := by
  obtain ⟨⟨before, c'⟩, hsearch, rfl⟩ := Option.map_eq_some_iff.mp hc
  obtain ⟨rest, rfl, hat, _⟩ := search_eq_some_iff.mp hsearch
  obtain ⟨hform, inside, after, rfl⟩ := wellFormed_of_at? hat
  obtain ⟨word, blank, condition, hopener, hword, _, hcondition⟩ := hform.opener
  constructor
  · have hunbroken : '\n' ∉ word := by
      intro hmem
      have hfolded := List.mem_map_of_mem (f := foldCase) hmem
      rw [hword] at hfolded
      exact absurd hfolded (by decide)
    have hblank : blank ≠ '\n' := by
      rintro rfl
      refine h ⟨'[' :: word, by rw [List.map_cons, hword]; rfl, ?_⟩
      refine ⟨before ++ Comment.opener, condition ++ leadEnd ++ (inside ++ (c'.closer ++ after)), ?_⟩
      rw [hopener]
      simp only [List.append_assoc, List.cons_append, List.nil_append]
    rw [hopener]
    simp [Comment.opener, leadEnd, hunbroken, Ne.symm hblank, hcondition]
  · intro hmem
    have hfolded := List.mem_map_of_mem (f := foldCase) hmem
    rw [hform.closer] at hfolded
    exact absurd hfolded (by decide)

end ConditionalComment

/-! ## Blocks -/

/-- No line feed stands in the lines of the block, nor in what a reference copies of its
directive. -/
structure Block.Unbroken (b : Block) : Prop where
  lines : ∀ l ∈ b.lines, '\n' ∉ l
  target : '\n' ∉ b.directive.targetOrDefault
  attributes : ∀ a, b.directive.attributes = some a → '\n' ∉ a

namespace Block
variable {b : Block} {o : Options} {reference : Text}

theorem Unbroken.not_mem_indent (h : b.Unbroken) : '\n' ∉ b.indent := by
  intro hmem
  rw [indent] at hmem
  cases hlines : b.lines with
  | nil => simp [hlines, indentation] at hmem
  | cons l lines =>
    rw [hlines, List.headD_cons] at hmem
    exact h.lines l (by rw [hlines]; exact List.mem_cons_self) ((List.takeWhile_prefix _).subset hmem)

theorem Unbroken.text_crlf (h : b.Unbroken) : b.text .crlf = withReturns (b.text .lf) :=
  (withReturns_join h.lines).symm

theorem Unbroken.innerContent_crlf (h : b.Unbroken) :
    b.innerContent .crlf = withReturns (b.innerContent .lf) :=
  (withReturns_join fun l hl => h.lines l (List.mem_of_mem_tail (List.mem_of_mem_dropLast hl))).symm

/-- Which reference a block has does not hang on the line breaks. -/
theorem Unbroken.reference?_crlf (h : b.Unbroken) (ho : o.handlers = .empty) :
    b.reference? .crlf o = b.reference? .lf o := by
  rw [reference?, reference?, h.innerContent_crlf]
  cases b.directive.blockType with
  | css => simp only [Reference.linksStylesheet_withReturns]
  | js => simp only [Reference.holdsScript_withReturns]
  | remove => rfl
  | custom name =>
    simp only [ho]
    rfl

theorem Unbroken.not_mem_reference (h : b.Unbroken) (ho : o.handlers = .empty)
    (hr : b.reference? .lf o = some reference) : '\n' ∉ reference := by
  by_cases hne : reference = []
  · rw [hne]
    decide
  · rcases tag_of_reference? (css_or_js_of_reference? ho hr hne) hr hne with ⟨_, rfl⟩ | ⟨_, rfl⟩
    · exact Reference.not_mem_tag (by decide) (by decide) h.target h.attributes
    · exact Reference.not_mem_tag (by decide) (by decide) h.target h.attributes

theorem Unbroken.wrap_crlf (h : b.Unbroken) (hif : ¬ (b.text .lf).BreaksCondition)
    (hr : '\n' ∉ reference) : b.wrap .crlf reference = withReturns (b.wrap .lf reference) := by
  rw [wrap, wrap, h.text_crlf, ConditionalComment.find_withReturns hif]
  cases hc : ConditionalComment.find (b.text .lf) with
  | none => simp [withReturns_of_not_mem, h.not_mem_indent, hr]
  | some c =>
    obtain ⟨hopener, hcloser⟩ := ConditionalComment.not_mem_of_find hif hc
    simp [withReturns_of_not_mem, h.not_mem_indent, hr, hopener, hcloser]

/-- What comes in the place of a block differs in its line breaks alone. -/
theorem Unbroken.replacement?_crlf (h : b.Unbroken) (hif : ¬ (b.text .lf).BreaksCondition)
    (ho : o.handlers = .empty) :
    b.replacement? .crlf o = (b.replacement? .lf o).map withReturns := by
  rw [replacement?, replacement?, h.reference?_crlf ho, Option.map_map]
  refine Option.map_congr fun reference hr => ?_
  rw [Function.comp_apply]
  split
  · exact h.innerContent_crlf
  · exact h.wrap_crlf hif (h.not_mem_reference ho hr)

end Block

namespace BlockTable
variable {document : Text} {b : Block}

theorem unbroken_of_mem (hb : b ∈ (extract document).blocks) : b.Unbroken := by
  obtain ⟨before, extent, hstands⟩ := exists_standsAt hb
  obtain ⟨line, rest, hlines, hparse, _⟩ := hstands.opening
  obtain ⟨htarget, hattributes⟩ := Directive.infix_of_parse hparse
  have hline : '\n' ∉ line := not_mem_of_mem_lines hb (by rw [hlines]; exact List.mem_cons_self)
  refine ⟨fun l hl => not_mem_of_mem_lines hb hl, ?_, fun a ha hmem => ?_⟩
  · rw [Directive.targetOrDefault]
    cases ht : b.directive.target with
    | none => decide
    | some target =>
      rw [ht] at htarget
      exact fun hmem => hline (htarget.subset hmem)
  · rw [ha] at hattributes
    exact hline (hattributes.subset hmem)

/-- Without carriage returns a document holds its blocks as they are put together. -/
theorem infix_text_of_mem (h : '\r' ∉ document) (hb : b ∈ (extract document).blocks) :
    b.text .lf <:+: document := by
  obtain ⟨before, extent, hstands⟩ := exists_standsAt hb
  obtain ⟨behind, hinside⟩ := hstands.inside
  have hextent : extent <:+: document := ⟨before, behind, hinside.symm⟩
  rw [← hstands.text, unifyBreaks_of_not_mem fun hmem => h (hextent.subset hmem)]
  exact hextent

/-- With the other line breaks a document has the same blocks in other places. -/
theorem forall₂_moved_withReturns (h : '\r' ∉ document) :
    List.Forall₂ Block.Moved (extract document).blocks (extract (withReturns document)).blocks := by
  rw [extract, extract, Segment.ofDocument_withReturns h]
  exact forall₂_moved Line.text_withReturn (Segment.ofDocument document) 0 0 1 .initial

end BlockTable

/-! ## Documents -/

section
variable {document : Text} {o : Options}

theorem manifest_withReturns (h : '\r' ∉ document) :
    (transform (withReturns document) o).manifest = (transform document o).manifest := by
  have hmoved : List.Forall₂ Block.Moved (BlockTable.extract document).terminated
      (BlockTable.extract (withReturns document)).terminated :=
    List.rel_filter (fun _ _ hbc => by simp only [hbc.terminated])
      (BlockTable.forall₂_moved_withReturns h)
  exact Manifest.foldl_add_congr (hmoved.imp fun _ _ hbc => hbc.toUnchanged)
    (hmoved.map_eq_map fun _ _ hbc => hbc.key.symm) .empty

theorem unterminated_withReturns (h : '\r' ∉ document) :
    (transform (withReturns document) o).unterminated = (transform document o).unterminated := by
  have hmoved : List.Forall₂ Block.Moved (BlockTable.extract document).unterminated
      (BlockTable.extract (withReturns document)).unterminated :=
    List.rel_filter (fun _ _ hbc => by simp only [hbc.terminated])
      (BlockTable.forall₂_moved_withReturns h)
  exact (hmoved.map_eq_map fun _ _ hbc => by rw [hbc.lineNumber, hbc.key]).symm

/-- A document with a line break is transformed alike with the other line breaks. -/
theorem content_withReturns (hreturn : '\r' ∉ document) (hif : ¬ document.BreaksCondition)
    (ho : o.handlers = .empty) (hfeed : '\n' ∈ document) :
    (transform (withReturns document) o).content = withReturns (transform document o).content := by
  rw [content_eq_flatMap_rewrittenSegments, content_eq_flatMap_rewrittenSegments,
    rewrittenSegments, rewrittenSegments, Segment.ofDocument_withReturns hreturn,
    LineEnding.detect_of_not_mem hreturn, LineEnding.detect_withReturns hfeed]
  refine BlockTable.flatMap_source_rewritten (fun s hs l hl => ?_) (fun b hb c hbc => ?_) 0
  · have hmem : l ∈ Line.lines document := by
      rw [← Segment.flatMap_lines_ofDocument]
      exact List.mem_flatMap.mpr ⟨s, hs, hl⟩
    exact ⟨((Line.divided_lines document).whole l hmem).unbroken, Line.ending_ne_crlf hreturn hmem⟩
  · have hb : b ∈ (BlockTable.extract document).blocks := hb
    have hunbroken : b.Unbroken := BlockTable.unbroken_of_mem hb
    have hcondition : ¬ (b.text .lf).BreaksCondition := fun h =>
      hif (h.of_infix (BlockTable.infix_text_of_mem hreturn hb))
    rw [Block.successor?, Block.successor?, hbc.terminated, hbc.replacement?_eq,
      hunbroken.replacement?_crlf hcondition ho]
    split <;> rfl

/-- **A document is transformed alike with either kind of line breaks.**  Let a document without
carriage returns, in which no line break comes directly after `[if`, be transformed without
handlers.  When every line feed gets a carriage return in front of it, the manifest and the open
blocks stay the same.  So does the content, up to the same change, if the document holds a line
break; a document of a single line tells nothing about line breaks, and is transformed alike only
when none comes into its content. -/
theorem transform_withReturns (hreturn : '\r' ∉ document) (hif : ¬ document.BreaksCondition)
    (ho : o.handlers = .empty) :
    let first := transform document o
    let second := transform (withReturns document) o
    second.manifest = first.manifest ∧ second.unterminated = first.unterminated ∧
      (second.content = withReturns first.content ↔ '\n' ∈ document ∨ '\n' ∉ first.content) := by
  intro first second
  refine ⟨manifest_withReturns hreturn, unterminated_withReturns hreturn, ?_⟩
  by_cases hfeed : '\n' ∈ document
  · exact iff_of_true (content_withReturns hreturn hif ho hfeed) (.inl hfeed)
  · have hsame : second = first := by
      show transform (withReturns document) o = first
      rw [withReturns_of_not_mem hfeed]
    rw [hsame, eq_comm, withReturns_eq_self_iff]
    exact (or_iff_right hfeed).symm

end

/-- A script block with a conditional comment, behind a stylesheet block that nothing closes. -/
def guarded : Text :=
  ("<!-- build:css -->\n" ++
    "<!-- build:js app.js defer -->\n" ++
    "<!--[if lt IE 9]><script src=\"a.js\"></script>\n" ++
    "<![endif]-->\n" ++
    "<!-- endbuild -->").toList

set_option maxRecDepth 4000 in
/-- With the other line breaks `guarded` becomes the same document, with these line breaks. -/
theorem transform_withReturns_guarded :
    '\r' ∉ guarded ∧ ¬ guarded.BreaksCondition ∧ Options.default.handlers = .empty ∧
      let first := transform guarded .default
      let second := transform (withReturns guarded) .default
      first.content =
          ("<!-- build:css -->\n" ++
            "<!--[if lt IE 9]>\n" ++
            "<script src=\"app.js\" defer></script>\n" ++
            "<![endif]-->").toList ∧
        second.content = withReturns first.content ∧ second.manifest = first.manifest ∧
        second.unterminated = first.unterminated := by
  have hreturn : '\r' ∉ guarded := by decide
  have hif : ¬ guarded.BreaksCondition := by decide
  obtain ⟨hmanifest, hunterminated, hcontent⟩ :=
    transform_withReturns (o := .default) hreturn hif rfl
  refine ⟨hreturn, hif, rfl, ?_, hcontent.mpr (.inl (by decide)), hmanifest, hunterminated⟩
  show (transform guarded .default).content = _
  rw [content_eq_flatMap_rewrittenSegments]
  decide

/-- A block with a conditional comment on a single line. -/
def inlined : Text :=
  "<!-- build:js a.js --><!--[if IE]><![endif]--><!-- endbuild -->".toList

/-- The ends of the conditional comment come on lines of their own, and nothing in `inlined` tells
which line break to put between them. -/
theorem content_inlined :
    (transform inlined .default).content = "<!--[if IE]>\n\n<![endif]-->".toList := by
  rw [content_eq_flatMap_rewrittenSegments]
  decide

/-- Not every document is transformed alike with the other line breaks. -/
theorem not_all_transformed_alike :
    ¬ ∀ (document : Text) (o : Options), '\r' ∉ document → ¬ document.BreaksCondition →
      o.handlers = .empty →
        (transform (withReturns document) o).content = withReturns (transform document o).content ∧
          (transform (withReturns document) o).manifest = (transform document o).manifest ∧
          (transform (withReturns document) o).unterminated =
            (transform document o).unterminated := by
  intro halike
  have hsame : withReturns inlined = inlined := withReturns_of_not_mem (by decide)
  obtain ⟨hcontent, _⟩ := halike inlined .default (by decide) (by decide) rfl
  rw [hsame, content_inlined] at hcontent
  exact absurd hcontent (by decide)

end BuildBlocks
