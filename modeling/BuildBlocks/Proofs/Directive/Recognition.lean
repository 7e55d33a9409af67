import BuildBlocks.Directive
import BuildBlocks.Proofs.Document.Division
import BuildBlocks.Proofs.Text.Mark

/-! # On which lines a directive stands

A directive is read part by part, and each part has its own ways out when it is not written as
expected.  None of them makes a difference to whether there is a directive at all: it takes an
opener, `build:` with a name behind it, and a closer anywhere behind that (`isSome_parse_iff`).
So whatever is cut out of a line without a directive has none either.  A text is `Plain` when
all its lines are such lines.
-/
namespace BuildBlocks
open Text

namespace Directive
variable {t rest line : Text}

/-! ## Parts of a directive -/

theorem closer_eq_cons : closer = '-' :: "->".toList := rfl

theorem parenthesized?_eq_some_iff {paths : Text} :
    parenthesized? t = some (paths, rest) ↔
      t = '(' :: (paths ++ ')' :: rest) ∧ paths ≠ [] ∧ ')' ∉ paths := by
  rw [parenthesized?]
  constructor
  · intro h
    split at h
    · cases h
    · rename_i inside hinside
      split at h
      · rename_i paths' rest' hcut
        split at h
        · cases h
        · rename_i hne
          obtain ⟨rfl, rfl⟩ := Prod.mk.inj (Option.some.inj h)
          refine ⟨?_, by simpa using hne, fun hmem => ?_⟩
          · rw [after?_eq_some_iff.mp hinside, eq_append_of_cut? hcut]
            rfl
          · exact not_infix_of_cut? (by simp) hcut ((List.singleton_infix_iff ..).mpr hmem)
      · cases h
  · rintro ⟨rfl, hne, hmem⟩
    have hcut : cut? [')'] (paths ++ ([')'] ++ rest)) = some (paths, rest) :=
      cut?_append rfl (by simp) (by rwa [List.singleton_infix_iff]) rest
    have hafter : after? ['('] ('(' :: (paths ++ ')' :: rest)) =
        some (paths ++ ([')'] ++ rest)) := rfl
    rw [hafter]
    simp only [hcut]
    exact if_neg (by simpa using hne)

/-- Search paths are split off only where a closer is left. -/
theorem infix_splitSearchPaths_iff : closer <:+: (splitSearchPaths t).2 ↔ closer <:+: t := by
  rw [splitSearchPaths]
  split
  · rename_i paths rest hparen
    split
    · rename_i hholds
      have hrest : closer <:+: rest := holds_iff.mp hholds
      have hsuffix : rest <:+ t := by
        obtain ⟨rfl, _⟩ := parenthesized?_eq_some_iff.mp hparen
        exact ⟨'(' :: (paths ++ [')']), by simp⟩
      exact iff_of_true hrest (hrest.trans hsuffix.isInfix)
    · exact Iff.rfl
  · exact Iff.rfl

/-- A target is split off only where a closer is left. -/
theorem infix_splitTarget_iff : closer <:+: (splitTarget t).2 ↔ closer <:+: t := by
  have hsplit : t = t.takeWhile (!isBlank ·) ++ t.dropWhile (!isBlank ·) :=
    List.takeWhile_append_dropWhile.symm
  rw [splitTarget]
  split
  · rename_i c before inside hcut
    -- the target ends before a closer, which is left
    have hrun : closer <:+: t.takeWhile (!isBlank ·) := by
      rw [← isSome_cutLast?_iff, hcut]
      rfl
    refine iff_of_true ?_ (hrun.trans (List.takeWhile_prefix _).isInfix)
    rw [List.append_assoc]
    exact (List.prefix_append closer _).isInfix
  · split
    · rename_i h
      rw [Bool.and_eq_true] at h
      have hrest : closer <:+: t.dropWhile (!isBlank ·) := holds_iff.mp h.2
      exact iff_of_true hrest (hrest.trans (List.dropWhile_suffix _).isInfix)
    · exact Iff.rfl

/-- Behind the name of a type anything goes, as long as a closer comes. -/
theorem isSome_afterKind?_iff {kind : Text} :
    (afterKind? kind t).isSome = true ↔ closer <:+: t := by
  rw [afterKind?]
  simp only [Option.isSome_map]
  rw [isSome_cutLast?_iff, infix_splitTarget_iff, trimStart,
    infix_dropWhile_iff closer_eq_cons (by decide), infix_splitSearchPaths_iff]

theorem afterOpener?_eq_some_iff :
    afterOpener? t = some rest ↔ ∃ opener ∈ openers, t = opener ++ rest := by
  rw [afterOpener?]
  constructor
  · intro h
    obtain ⟨opener, hmem, hafter⟩ := List.exists_of_findSome?_eq_some h
    exact ⟨opener, hmem, after?_eq_some_iff.mp hafter⟩
  · rintro ⟨opener, hmem, rfl⟩
    rw [openers, List.mem_cons, List.mem_singleton] at hmem
    rcases hmem with rfl | rfl
    · rw [openers, List.findSome?_cons, after?_append]
    · -- the other opener starts with another character
      have hother : after? "<!--".toList ("//-".toList ++ rest) = none := rfl
      rw [openers, List.findSome?_cons, hother, List.findSome?_cons, after?_append]

theorem isSome_inComment?_iff :
    (inComment? t).isSome = true ↔ ∃ blanks c rest, (∀ d ∈ blanks, isBlank d = true) ∧
      BlockType.isNameCharacter c = true ∧ closer <:+: rest ∧
      t = blanks ++ ("build:".toList ++ c :: rest) := by
  rw [inComment?]
  constructor
  · intro h
    split at h
    · cases h
    · rename_i behind hafter
      simp only at h
      split at h
      · cases h
      · rename_i hkind
        rw [isSome_afterKind?_iff] at h
        cases behind with
        | nil => exact absurd rfl hkind
        | cons c rest =>
          have hc : BlockType.isNameCharacter c = true := by
            by_contra hc
            rw [List.takeWhile_cons_of_neg hc] at hkind
            exact hkind rfl
          rw [List.dropWhile_cons_of_pos hc, infix_dropWhile_iff closer_eq_cons (by decide)] at h
          refine ⟨indentation t, c, rest, fun d hd => ?_, hc, h, ?_⟩
          · exact List.all_eq_true.mp List.all_takeWhile d hd
          · rw [← after?_eq_some_iff.mp hafter, indentation_append_trimStart]
  · rintro ⟨blanks, c, rest, hblanks, hc, hrest, rfl⟩
    have htrim : trimStart (blanks ++ ("build:".toList ++ c :: rest)) =
        "build:".toList ++ c :: rest :=
      (takeWhile_append_cons hblanks (show isBlank 'b' = false by decide) _).2
    rw [htrim, after?_append]
    simp only
    rwa [List.takeWhile_cons_of_pos hc, if_neg (by simp), isSome_afterKind?_iff,
      List.dropWhile_cons_of_pos hc, infix_dropWhile_iff closer_eq_cons (by decide)]

/-! ## Lines with a directive -/

/-- The least that a directive takes: an opener, `build:` with the first character of a name
behind it, and a closer.  Blanks may come before `build:`, and anything before the closer. -/
inductive Core : Text → Prop
  | mk {opener blanks inside : Text} {c : Char} (hopener : opener ∈ openers)
      (hblanks : ∀ d ∈ blanks, isBlank d = true) (hc : BlockType.isNameCharacter c = true) :
      Core (opener ++ (blanks ++ ("build:".toList ++ c :: (inside ++ closer))))

theorem isSome_at?_iff : (at? t).isSome = true ↔ ∃ core, Core core ∧ core <+: t := by
  rw [at?]
  constructor
  · intro h
    cases hopener : afterOpener? t with
    | none => rw [hopener] at h; cases h
    | some rest =>
      rw [hopener, Option.bind_some, isSome_inComment?_iff] at h
      obtain ⟨opener, hmem, rfl⟩ := afterOpener?_eq_some_iff.mp hopener
      obtain ⟨blanks, c, behind, hblanks, hc, ⟨inside, tail, rfl⟩, rfl⟩ := h
      refine ⟨opener ++ (blanks ++ ("build:".toList ++ c :: (inside ++ closer))),
        .mk hmem hblanks hc, tail, ?_⟩
      simp only [List.append_assoc, List.cons_append]
  · rintro ⟨core, ⟨hmem, hblanks, hc⟩, tail, rfl⟩
    rename_i opener blanks inside c
    rw [List.append_assoc, afterOpener?_eq_some_iff.mpr ⟨opener, hmem, rfl⟩, Option.bind_some,
      isSome_inComment?_iff]
    refine ⟨blanks, c, inside ++ (closer ++ tail), hblanks, hc, ?_, ?_⟩
    · exact (List.prefix_append closer tail).isInfix.trans (List.suffix_append inside _).isInfix
    · simp only [List.append_assoc, List.cons_append]

/-- **A line holds a directive exactly when the core of one stands on it.** -/
theorem isSome_parse_iff : (parse line).isSome = true ↔ ∃ core, Core core ∧ core <:+: line := by
  rw [parse, Option.isSome_map, isSome_search_iff]
  simp only [isSome_at?_iff]
  constructor
  · rintro ⟨u, v, rfl, core, hcore, hstart⟩
    exact ⟨core, hcore, hstart.isInfix.trans (List.suffix_append u v).isInfix⟩
  · rintro ⟨core, hcore, u, v, rfl⟩
    exact ⟨u, core ++ v, (List.append_assoc ..).symm, core, hcore, List.prefix_append core v⟩

/-- Nothing that stands on a line without a directive is one. -/
theorem parse_eq_none_of_infix {part : Text} (h : parse line = none) (hpart : part <:+: line) :
    parse part = none := by
  rw [← Option.not_isSome_iff_eq_none, isSome_parse_iff] at h ⊢
  rintro ⟨core, hcore, hstands⟩
  exact h ⟨core, hcore, hstands.trans hpart⟩

/-- There is no directive without `build:`. -/
theorem parse_eq_none_of_not_isInfix (h : ¬ "build:".toList <:+: line) : parse line = none := by
  rw [← Option.not_isSome_iff_eq_none, isSome_parse_iff]
  rintro ⟨core, ⟨hopener, hblanks, hc⟩, hstands⟩
  rename_i opener blanks inside c
  refine h (List.IsInfix.trans ⟨opener ++ blanks, c :: (inside ++ closer), ?_⟩ hstands)
  simp only [List.append_assoc]

end Directive

/-! ## Texts without directive lines -/

/-- No line of the text holds a directive. -/
def Text.Plain (t : Text) : Prop :=
  ∀ l ∈ Line.lines t, Directive.parse l.text = none

/-- A line break completes no `build:`. -/
theorem not_infix_append_lineBreak {t : Text} (h : ¬ "build:".toList <:+: t)
    (last : Option LineEnding) : ¬ "build:".toList <:+: t ++ last.elim [] LineEnding.text := by
  cases last with
  | none => rwa [Option.elim, List.append_nil]
  | some ending => cases ending <;> exact not_infix_append_cons (by decide) h (by decide)

namespace Text.Plain
open Directive

theorem of_parse_eq_none {t : Text} (h : parse t = none) : Plain t :=
  fun _ hl => parse_eq_none_of_infix h (Line.infix_of_mem_lines hl)

theorem of_not_isInfix {t : Text} (h : ¬ "build:".toList <:+: t) : Plain t :=
  of_parse_eq_none (parse_eq_none_of_not_isInfix h)

/-- In front of a plain text a line without a directive can stand, with any line break. -/
theorem line_append {line t : Text} (hline : '\n' ∉ line) (hparse : parse line = none)
    (ending : LineEnding) (ht : Plain t) : Plain (line ++ ending.text ++ t) := by
  -- a carriage return at the end of the line may count as part of the line break
  obtain ⟨piece, hpiece, hsplit, htext⟩ : ∃ piece, '\n' ∉ piece ∧
      line ++ ending.text = piece ++ ['\n'] ∧ (Line.ofPiece piece).text <:+: line := by
    cases ending with
    | lf => exact ⟨line, hline, rfl, (Line.prefix_dropReturn line).isInfix⟩
    | crlf =>
      refine ⟨line ++ ['\r'], by simpa using hline, by simp [LineEnding.text], ?_⟩
      simp [Line.ofPiece, dropReturn]
  intro l hl
  rw [hsplit, List.append_assoc, List.singleton_append, Line.lines_piece_append hpiece] at hl
  rcases List.mem_cons.mp hl with rfl | hl
  · exact parse_eq_none_of_infix hparse htext
  · exact ht l hl

/-- Lines without directives can be put together with any line breaks. -/
theorem join {lines : List Text} (hlines : ∀ l ∈ lines, '\n' ∉ l ∧ parse l = none)
    (ending : LineEnding) (last : Option LineEnding) :
    Plain (Text.join ending.text lines ++ last.elim [] LineEnding.text) := by
  have hempty : Plain [] := fun _ hl => absurd hl List.not_mem_nil
  induction lines with
  | nil => exact of_not_isInfix (not_infix_append_lineBreak (t := []) (by decide) last)
  | cons l lines ih =>
    obtain ⟨hl, hparse⟩ := hlines l List.mem_cons_self
    have hrest := ih fun m hm => hlines m (List.mem_cons_of_mem _ hm)
    cases lines with
    | cons m lines =>
      rw [Text.join, List.append_assoc]
      exact line_append hl hparse ending hrest
    | nil =>
      cases last with
      | none => simpa [Text.join] using of_parse_eq_none hparse
      | some last => simpa [Text.join] using line_append hl hparse last hempty

end Text.Plain
end BuildBlocks
