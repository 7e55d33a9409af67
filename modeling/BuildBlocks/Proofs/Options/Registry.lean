import BuildBlocks.Proofs.Block.Extraction
import BuildBlocks.Proofs.Directive.Classification
import BuildBlocks.Reference
import BuildBlocks.Template

/-! # For which types a handler can be registered

A registration is refused for the names of built types and for names that no directive can carry.
The names are checked as a whole there, while a directive takes the longest name that stands
behind `build:`; both come to the same names (`exists_parse_bare_iff`).  Hence handlers can be
registered for exactly those types that blocks of documents have beside the built ones, and each
of these handlers is asked about some block (`register_eq_ok_iff`).
-/
namespace BuildBlocks
open Text

/-! ## Built types -/

namespace BlockType
variable {name n : Text}

/-- The names of the types that are built in. -/
def reserved : List Text :=
  ["css".toList, "js".toList, "remove".toList]

theorem ofName_eq_custom_iff : ofName name = .custom n ↔ name ∉ reserved ∧ name = n := by
  rw [ofName, reserved]
  by_cases hcss : name = "css".toList
  · simp [hcss]
  · by_cases hjs : name = "js".toList
    · simp [hjs]
    · by_cases hremove : name = "remove".toList
      · simp [hremove]
      · rw [if_neg hcss, if_neg hjs, if_neg hremove]
        simp only [custom.injEq, List.mem_cons, hcss, hjs, hremove, List.not_mem_nil, or_self,
          not_false_eq_true, true_and]

end BlockType

namespace Options
open BlockType
variable {o o' : Options} {kind name : Text} {handler : Handler}

/-- A registration looks for built types first, and at the characters of the name then. -/
theorem register_eq (o : Options) (kind : Text) (handler : Handler) :
    o.register kind handler =
      if kind ∈ reserved then .error (.reservedType kind)
      else if isName kind then .ok { o with handlers := o.handlers.insert kind handler }
      else .error (.invalidType kind) := by
  rw [register]
  split
  · rename_i n htype
    rw [if_neg (ofName_eq_custom_iff.mp htype).1]
  · rename_i htype
    rw [if_pos]
    by_contra hmem
    exact htype kind (ofName_eq_custom_iff.mpr ⟨hmem, rfl⟩)

theorem register_eq_ok_of (hmem : kind ∉ reserved) (hname : isName kind = true) (o : Options)
    (handler : Handler) :
    o.register kind handler = .ok { o with handlers := o.handlers.insert kind handler } := by
  rw [register_eq, if_neg hmem, if_pos hname]

/-- What a registration that is not refused was asked to do, and does. -/
theorem of_register_eq_ok (h : o.register kind handler = .ok o') :
    kind ∉ reserved ∧ isName kind = true ∧ o'.preview = o.preview ∧
      ∀ name, o'.handlers.get? name = if kind = name then some handler else o.handlers.get? name := by
  rw [register_eq] at h
  split_ifs at h with hmem hname
  obtain rfl := Except.ok.inj h
  exact ⟨hmem, hname, rfl, fun name => SortedMap.get?_alter _ _ _ _⟩

end Options

/-! ## Directives of a type -/

namespace Directive
open BlockType
variable {name : Text}

/-- A line with a directive that says nothing but a type. -/
def bare (name : Text) : Text :=
  "<!-- build:".toList ++ name ++ " -->".toList

theorem bare_eq (name : Text) :
    bare name = "<!-- build:".toList ++ (name ++ " -->".toList) :=
  List.append_assoc _ _ _

/-- The name of a directive is one that directives can carry. -/
theorem isName_kind {line : Text} {d : Directive} (h : parse line = some d) :
    isName d.kind = true := by
  obtain ⟨_, _, _, _, hspelled, _⟩ := parse_eq_some_iff.mp h
  exact hspelled.isName

theorem parse_bare (h : isName name = true) :
    parse (bare name) = some ⟨name, none, none, none⟩ := by
  have hat : at? (bare name) = some ⟨name, none, none, none⟩ := by
    refine at?_eq_some_iff.mpr ⟨"<!--".toList, " ".toList, " -->".toList, List.mem_cons_self,
      fun c hc => ?_, h, fun c hc => ?_, rfl, ?_⟩
    · rw [List.mem_singleton.mp hc]
      rfl
    · rw [← Option.some.inj hc]
      rfl
    · rw [bare_eq]
      rfl
  -- what is read at the start of the line is the leftmost directive
  refine Option.map_eq_some_iff.mpr ⟨([], _), search_eq_some_iff.mpr ⟨bare name, rfl, hat, ?_⟩, rfl⟩
  intro u v huv hv
  exact absurd (List.append_eq_nil_iff.mp huv).2 hv

/-- The names that directives can carry are those that are read back from a line. -/
theorem exists_parse_bare_iff :
    (∃ d, parse (bare name) = some d ∧ d.kind = name) ↔ isName name = true := by
  constructor
  · rintro ⟨d, hd, rfl⟩
    exact isName_kind hd
  · intro h
    exact ⟨_, parse_bare h, rfl⟩

/-- A line with an end marker. -/
def endLine : Text :=
  "<!-- endbuild -->".toList

theorem parse_endLine : parse endLine = none := by
  decide

theorem isEndMarker_endLine : isEndMarker endLine = true := by
  decide

/-- A directive that says nothing but a type, and an end marker behind it. -/
def bareDocument (name : Text) : Text :=
  bare name ++ '\n' :: endLine

theorem texts_bareDocument (h : isName name = true) :
    Line.texts (bareDocument name) = [bare name, endLine] := by
  have hunbroken : '\n' ∉ bare name := by
    have hname : '\n' ∉ name := fun hmem => absurd ((isName_iff.mp h).2 _ hmem) (by decide)
    rw [bare_eq, List.mem_append, List.mem_append]
    rintro (hmem | hmem | hmem)
    · exact absurd hmem (by decide)
    · exact hname hmem
    · exact absurd hmem (by decide)
  have hlast : (bare name).getLast? = some '>' := by
    rw [bare_eq, ← List.append_assoc]
    exact List.getLast?_append_of_ne_nil _ (List.cons_ne_nil _ _)
  have hpiece : Line.ofPiece (bare name) = ⟨bare name, some .lf⟩ := by
    rw [Line.ofPiece, dropReturn, hlast]
    rfl
  have hend : Line.lines endLine = [⟨endLine, none⟩] := by decide
  rw [← Line.map_text_lines, bareDocument, Line.lines_piece_append hunbroken, hpiece, hend]
  rfl

end Directive

namespace BlockTable
open Directive Extraction

/-- Every name that directives can carry is that of a closed block. -/
theorem exists_terminated_bareDocument {name : Text} (h : BlockType.isName name = true) :
    ∃ b ∈ (extract (bareDocument name)).terminated, b.directive.kind = name := by
  have hend : opens endLine = false := by rw [opens, parse_endLine]; rfl
  have hopens : opens (bare name) = true := by rw [opens, parse_bare h]; rfl
  have hopenings : openings (Line.texts (bareDocument name)) = [0] := by
    rw [texts_bareDocument h, openings]
    simp [List.range_succ, hopens, hend]
  have hblocks := forall₂_openedAt_blocks (bareDocument name)
  rw [hopenings] at hblocks
  obtain ⟨b, hb, hopened⟩ := hblocks.flip.exists_of_mem_right List.mem_cons_self
  refine ⟨b, List.mem_filter.mpr ⟨hb, hopened.terminated.mpr ?_⟩, ?_⟩
  · -- the end marker is on one of the two lines, and no directive follows the first one
    have hnone : firstFrom opens (Line.texts (bareDocument name)) (0 + 1) = none := by
      rw [texts_bareDocument h]
      simp [firstFrom, hend]
    have hsome : (firstFrom Directive.isEndMarker (Line.texts (bareDocument name)) 0).isSome := by
      simp [texts_bareDocument h, firstFrom, isEndMarker_endLine]
    obtain ⟨j, hj⟩ := Option.isSome_iff_exists.mp hsome
    exact ⟨j, hj, fun k hk => by rw [hnone] at hk; cases hk⟩
  · have hdirective := hopened.directive
    rw [texts_bareDocument h, List.getElem?_cons_zero, Option.bind_some, parse_bare h] at hdirective
    rw [← Option.some.inj hdirective]

end BlockTable

/-! ## Handlers and the blocks that they are asked about -/

/-- A block of a type that is not built in is what the handler of its type makes of it. -/
theorem Block.reference?_of_handler {b : Block} {o : Options} {handler : Handler}
    (hmem : b.directive.kind ∉ BlockType.reserved)
    (hget : o.handlers.get? b.directive.kind = some handler) (ending : LineEnding) :
    b.reference? ending o = handler (b.context ending) := by
  have htype : b.directive.blockType = .custom b.directive.kind :=
    BlockType.ofName_eq_custom_iff.mpr ⟨hmem, rfl⟩
  simp only [reference?, htype, hget, Option.bind_some]

theorem BlockTable.isName_kind_of_mem {document : Text} {b : Block}
    (hb : b ∈ (extract document).blocks) : BlockType.isName b.directive.kind = true := by
  obtain ⟨i, hopened⟩ := Extraction.exists_openedAt hb
  obtain ⟨line, _, hparse⟩ := Option.bind_eq_some_iff.mp hopened.directive
  exact Directive.isName_kind hparse

/-- **Handlers are for the types that directives can carry.**  A registration succeeds exactly
for a name that is not built in and that is read back from the line of a directive; it is refused
as reserved for the built names, and as invalid for every other one.  The name of any directive
is built in or accepted, the handler of a custom block decides what comes in its place, and for
every name that is accepted there is a document with a closed block about which the handler is
asked. -/
theorem register_eq_ok_iff (o : Options) (name : Text) (handler : Handler) :
    ((∃ o', o.register name handler = .ok o') ↔
      name ∉ BlockType.reserved ∧
        ∃ d, Directive.parse (Directive.bare name) = some d ∧ d.kind = name) ∧
    (name ∈ BlockType.reserved → o.register name handler = .error (.reservedType name)) ∧
    (name ∉ BlockType.reserved →
      (¬ ∃ d, Directive.parse (Directive.bare name) = some d ∧ d.kind = name) →
        o.register name handler = .error (.invalidType name)) ∧
    (∀ line d, Directive.parse line = some d →
      d.kind ∈ BlockType.reserved ∨ ∃ o', o.register d.kind handler = .ok o') ∧
    (∀ document, ∀ b ∈ (BlockTable.extract document).blocks,
      b.directive.kind ∉ BlockType.reserved → ∃ o', o.register b.directive.kind handler = .ok o' ∧
        ∀ ending, b.reference? ending o' = handler (b.context ending)) ∧
    ∀ o', o.register name handler = .ok o' →
      ∃ document, ∃ b ∈ (BlockTable.extract document).terminated, b.directive.kind = name ∧
        ∀ ending, b.reference? ending o' = handler (b.context ending) := by
  simp only [Directive.exists_parse_bare_iff]
  refine ⟨?_, fun hmem => ?_, fun hmem hname => ?_, fun line d hd => ?_,
    fun document b hb hmem => ?_, fun o' h => ?_⟩
  · constructor
    · rintro ⟨o', h⟩
      obtain ⟨hmem, hname, _⟩ := Options.of_register_eq_ok h
      exact ⟨hmem, hname⟩
    · rintro ⟨hmem, hname⟩
      exact ⟨_, Options.register_eq_ok_of hmem hname o handler⟩
  · rw [Options.register_eq, if_pos hmem]
  · rw [Options.register_eq, if_neg hmem, if_neg hname]
  · by_cases hmem : d.kind ∈ BlockType.reserved
    · exact .inl hmem
    · exact .inr ⟨_, Options.register_eq_ok_of hmem (Directive.isName_kind hd) o handler⟩
  · have hregister := Options.register_eq_ok_of hmem (BlockTable.isName_kind_of_mem hb) o handler
    obtain ⟨_, _, _, hget⟩ := Options.of_register_eq_ok hregister
    refine ⟨_, hregister, fun ending => b.reference?_of_handler hmem ?_ ending⟩
    rw [hget, if_pos rfl]
  · obtain ⟨hmem, hname, _, hget⟩ := Options.of_register_eq_ok h
    obtain ⟨b, hb, rfl⟩ := BlockTable.exists_terminated_bareDocument hname
    refine ⟨_, b, hb, rfl, fun ending => b.reference?_of_handler hmem ?_ ending⟩
    rw [hget, if_pos rfl]

end BuildBlocks
