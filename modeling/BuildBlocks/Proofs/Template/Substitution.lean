import BuildBlocks.Proofs.Template.Placeholders

/-! # Rendering is one substitution

The pieces of a template write it, so a block whose values are the placeholders themselves gets
the template back.  Conversely pieces whose literals open no brace are read as they were written:
a literal is carried along until the next placeholder ends it (`Renders.of_append`).  Reading goes
over the template only, and so nothing that a value holds is looked at again (`render_parse`).
-/
namespace BuildBlocks
open Text

namespace BlockContext

/-- A block in which every value is the placeholder that asks for it. -/
def ofPlaceholders (line : Nat) : BlockContext where
  content := "\x7bcontent\x7d".toList
  target := "\x7btarget\x7d".toList
  attributes := some "\x7battributes\x7d".toList
  searchPaths := some "\x7bsearch_paths\x7d".toList
  line := line

/-- There every piece is rendered as it is written. -/
theorem render_ofPlaceholders (line : Nat) (piece : Piece) :
    piece.render (ofPlaceholders line) = piece.source := by
  cases piece with
  | literal x => rfl
  | placeholder p => cases p <;> rfl

end BlockContext

namespace Template

variable {x : Text} {pieces : List Piece}

/-! ## One placeholder at a time -/

/-- A text that opens no brace is one literal. -/
theorem read_of_not_mem (hx : '{' ∉ x) : read x = .ok [.literal x] := by
  have hcut : cut? ['{'] x = none := cut?_singleton_eq_none_iff.mpr hx
  rw [read]
  split
  · rfl
  · rename_i before inside hopen
    rw [hcut] at hopen
    cases hopen

/-- A literal that opens no brace reaches up to the placeholder behind it. -/
theorem read_append_placeholder (hx : '{' ∉ x) (p : Placeholder) (rest : Text) :
    read (x ++ ((Piece.placeholder p).source ++ rest)) =
      (read rest).map fun pieces => .literal x :: .placeholder p :: pieces := by
  have hsource : x ++ ((Piece.placeholder p).source ++ rest) =
      x ++ '{' :: (p.name ++ '}' :: rest) := by simp [Piece.source]
  have hopen : cut? ['{'] (x ++ '{' :: (p.name ++ '}' :: rest)) =
      some (x, p.name ++ '}' :: rest) := cut?_singleton_eq_some_iff.mpr ⟨rfl, hx⟩
  have hclose : cut? ['}'] (p.name ++ '}' :: rest) = some (p.name, rest) :=
    cut?_singleton_eq_some_iff.mpr ⟨rfl, not_mem_of_isName p.isName_name⟩
  have hname : Placeholder.ofName? p.name = some p := Placeholder.ofName?_eq_some_iff.mpr rfl
  rw [hsource, read]
  split
  · rename_i hnone
    rw [hopen] at hnone
    cases hnone
  · rename_i before inside hcut
    rw [hopen] at hcut
    obtain ⟨rfl, rfl⟩ := Prod.mk.inj (Option.some.inj hcut)
    split
    · rename_i hnone
      rw [hclose] at hnone
      cases hnone
    · rename_i name after hcut
      rw [hclose] at hcut
      obtain ⟨rfl, rfl⟩ := Prod.mk.inj (Option.some.inj hcut)
      rw [hname]

/-! ## All pieces -/

/-- The literals among the pieces open no brace. -/
def Unopened (pieces : List Piece) : Prop :=
  ∀ x, Piece.literal x ∈ pieces → '{' ∉ x

/-- The text is read, and is rendered for every block as the pieces are. -/
def Renders (t : Text) (pieces : List Piece) : Prop :=
  ∃ found, read t = .ok found ∧ ∀ context,
    found.flatMap (Piece.render context) = pieces.flatMap (Piece.render context)

/-- What is written from pieces renders as they do.  The induction is on the pieces; a literal is
put to the text `x` that has been collected in front of them. -/
theorem Renders.of_append (h : Unopened pieces) (hx : '{' ∉ x) :
    Renders (x ++ pieces.flatMap Piece.source) (.literal x :: pieces) := by
  induction pieces generalizing x with
  | nil =>
    refine ⟨[.literal x], ?_, fun context => rfl⟩
    rw [List.flatMap_nil, List.append_nil]
    exact read_of_not_mem hx
  | cons piece pieces ih =>
    have hlater : Unopened pieces := fun y hy => h y (List.mem_cons_of_mem _ hy)
    rw [List.flatMap_cons]
    cases piece with
    | literal y =>
      have hxy : '{' ∉ x ++ y := by
        intro hmem
        rcases List.mem_append.mp hmem with hmem | hmem
        · exact hx hmem
        · exact h y List.mem_cons_self hmem
      obtain ⟨found, hread, hrender⟩ := ih hlater hxy
      refine ⟨found, ?_, fun context => ?_⟩
      · rw [← hread, List.append_assoc]
        rfl
      · rw [hrender context]
        simp [Piece.render]
    | placeholder p =>
      obtain ⟨found, hread, hrender⟩ := ih hlater (List.not_mem_nil (a := '{'))
      rw [List.nil_append] at hread
      refine ⟨.literal x :: .placeholder p :: found, ?_, fun context => ?_⟩
      · rw [read_append_placeholder hx, hread]
        rfl
      · have hfound : found.flatMap (Piece.render context) =
            pieces.flatMap (Piece.render context) := hrender context
        simp only [List.flatMap_cons, hfound]

/-- **Templates are parsed without loss and rendered by one substitution.**  A template that is
accepted comes back when every placeholder is put for itself.  What is written from placeholders
and literals that open no brace is accepted, and for every block it is the literals with the
values between them, whatever the values hold. -/
theorem render_parse (kind : Text) :
    (∀ t template, parse kind t = .ok template →
      ∀ line, template.render (.ofPlaceholders line) = t) ∧
    ∀ pieces, Unopened pieces → ∃ template,
      parse kind (pieces.flatMap Piece.source) = .ok template ∧
        ∀ context, template.render context = pieces.flatMap (Piece.render context) := by
  constructor
  · intro t template htemplate line
    obtain ⟨hwritten, _⟩ := reads_of_parse htemplate
    calc template.render (.ofPlaceholders line)
        = template.pieces.flatMap Piece.source :=
          List.flatMap_congr fun piece _ => BlockContext.render_ofPlaceholders line piece
      _ = t := hwritten
  · intro pieces hunopened
    obtain ⟨found, hread, hrender⟩ := Renders.of_append hunopened (List.not_mem_nil (a := '{'))
    rw [List.nil_append] at hread
    refine ⟨⟨found⟩, ?_, hrender⟩
    rw [parse, hread]

/-- A style rule without an opening brace, written around two placeholders. -/
def closedRule : List Piece :=
  [.literal "\x7d ".toList, .placeholder .target, .literal "\x7d".toList, .placeholder .content]

/-- A block whose values look like placeholders. -/
def bracedContext : BlockContext where
  content := "\x7btarget\x7d".toList
  target := "\x7bcontent\x7d \x7b".toList
  attributes := none
  searchPaths := none
  line := 1

theorem unopened_closedRule : Unopened closedRule := by
  intro x hx
  simp only [closedRule, List.mem_cons, Piece.literal.injEq, reduceCtorEq, false_or,
    List.not_mem_nil, or_false] at hx
  rcases hx with rfl | rfl <;> decide

theorem render_parse_closedRule :
    Unopened closedRule ∧ ∃ template,
      parse "style".toList "\x7d \x7btarget\x7d\x7d\x7bcontent\x7d".toList = .ok template ∧
        template.render (.ofPlaceholders 1) = "\x7d \x7btarget\x7d\x7d\x7bcontent\x7d".toList ∧
        template.render bracedContext = "\x7d \x7bcontent\x7d \x7b\x7d\x7btarget\x7d".toList := by
  obtain ⟨hlossless, haccepted⟩ := render_parse "style".toList
  obtain ⟨template, htemplate, hrender⟩ := haccepted closedRule unopened_closedRule
  exact ⟨unopened_closedRule, template, htemplate, hlossless _ template htemplate 1,
    hrender bracedContext⟩

end Template
end BuildBlocks
