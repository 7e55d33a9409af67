import BuildBlocks.Proofs.Block.Spans
import BuildBlocks.Proofs.Comment.Outside
import BuildBlocks.Proofs.Document.Concatenation
import BuildBlocks.Proofs.Document.Uniform
import BuildBlocks.Proofs.Manifest.Deletion

/-! # Assets outside of comments

Comments are removed from the inner text of a block before it is cut into lines, so one that takes
in a line break puts what stands in front of it and what stands behind it on one line.  Of this line
only the leftmost attribute names assets.  An attribute that stands outside the comments is still on
a line when these are removed, and its assets are listed if none begins in front of it on that line
(`listed_of_outside`); comments that do not reach into the line in front of it do no harm.
-/
namespace BuildBlocks
open Text

namespace Asset
variable {markup value : Text}

/-- A value in double quotes makes a `src` attribute. -/
theorem written_src (hne : value ≠ []) (hvalue : value.all (!isQuote ·) = true) :
    Written ("src=\"".toList ++ (value ++ ['"'])) value := by
  refine ⟨hne, fun c hc => ?_, "src".toList, by decide, '"', '"', rfl, rfl, rfl⟩
  simpa using List.all_eq_true.mp hvalue c hc

/-- The value stands between a lead of few characters and the closing quote. -/
theorem Written.exists_lead (h : Written markup value) :
    ∃ lead closing, markup = lead ++ (value ++ [closing]) ∧ isQuote closing = true ∧
      4 < lead.length ∧ lead.length < 7 := by
  obtain ⟨_, _, name, hname, opening, closing, _, hclosing, rfl⟩ := h
  refine ⟨name ++ ['=', opening], closing, by simp, hclosing, ?_⟩
  rcases List.mem_cons.mp hname with rfl | hname
  · simp
  · obtain rfl := List.mem_singleton.mp hname
    simp

theorem Written.ne_nil (h : Written markup value) : markup ≠ [] := by
  obtain ⟨lead, closing, rfl, _⟩ := h.exists_lead
  simp

theorem Written.getLast?_ne (h : Written markup value) : markup.getLast? ≠ some '\r' := by
  obtain ⟨lead, closing, rfl, hclosing, _⟩ := h.exists_lead
  have hlast : (lead ++ (value ++ [closing])).getLast? = some closing := by
    rw [← List.append_assoc, List.getLast?_append]
    rfl
  rw [hlast]
  rintro ⟨rfl⟩
  exact absurd hclosing (by decide)

/-- What is read in front of an attribute does not reach beyond it: its value would have to open in
front of the closing quote of the attribute, and holds no quote. -/
theorem Written.attributeAt_append_iff (h : Written markup value) {v : Text} (hv : v ≠ [])
    {back other : Text} :
    AttributeAt (v ++ (markup ++ back)) other ↔ AttributeAt (v ++ markup) other := by
  refine exists_congr fun read => and_congr_right fun hread => ?_
  rw [← List.append_assoc]
  refine ⟨fun hprefix => ?_, fun hprefix => hprefix.trans (List.prefix_append _ _)⟩
  rcases List.prefix_or_prefix_of_prefix hprefix (List.prefix_append _ back) with hinside | hbeyond
  · exact hinside
  · obtain ⟨lead, closing, rfl, hclosing, hlong, _⟩ := h.exists_lead
    obtain ⟨lead', closing', rfl, _, _, hshort⟩ := hread.exists_lead
    have hends : (v ++ (lead ++ value)) ++ [closing] <+: (lead' ++ other) ++ [closing'] := by
      simpa only [List.append_assoc] using hbeyond
    rcases List.prefix_concat_iff.mp hends with hsame | hinside
    · have hread_eq : lead' ++ (other ++ [closing']) = v ++ (lead ++ (value ++ [closing])) := by
        simpa only [List.append_assoc] using hsame.symm
      rw [hread_eq]
    · -- the closing quote would stand in the value that is read
      have hlength : lead'.length ≤ (v ++ (lead ++ value)).length := by
        have hpos := List.length_pos_of_ne_nil hv
        rw [List.length_append, List.length_append]
        omega
      obtain ⟨gap, hgap⟩ := List.prefix_of_prefix_length_le (List.prefix_append lead' other)
        ((List.prefix_append _ [closing]).trans hinside) hlength
      rw [← hgap, List.append_assoc, List.prefix_append_right_inj] at hinside
      have hquote := hread.unquoted closing (hinside.subset (by simp))
      rw [hclosing] at hquote
      cases hquote

/-- So what follows an attribute has no part in whether it is the leftmost one. -/
theorem Written.search_append_iff (h : Written markup value) (start rest : Text) :
    search attributeAt? (start ++ (markup ++ rest)) = some (start, value) ↔
      ∀ u v, u ++ v = start → v ≠ [] → ∀ other, ¬ AttributeAt (v ++ markup) other := by
  have hread : attributeAt? (markup ++ rest) = some value :=
    attributeAt?_eq_some_iff.mpr ⟨markup, h, List.prefix_append _ rest⟩
  rw [search_eq_some_iff]
  constructor
  · rintro ⟨t, hsource, _, hleft⟩ u v huv hv other hother
    obtain rfl := List.append_cancel_left hsource
    exact attributeAt?_eq_none_iff.mp (hleft u v huv hv) other
      ((h.attributeAt_append_iff hv).mpr hother)
  · intro hforemost
    refine ⟨_, rfl, hread, fun u v huv hv => attributeAt?_eq_none_iff.mpr fun other hother => ?_⟩
    exact hforemost u v huv hv other ((h.attributeAt_append_iff hv).mp hother)

end Asset

/-- The leftmost attribute of an inner line that names assets, and where it stands. -/
structure Block.LeadingAttribute (b : Block) where
  /-- The inner lines in front of the one with the attribute. -/
  earlier : List Text
  /-- What stands on the line in front of the attribute. -/
  front : Text
  /-- The attribute. -/
  text : Text
  /-- What stands on the line behind the attribute. -/
  back : Text
  /-- The inner lines that follow. -/
  later : List Text
  /-- The value of the attribute. -/
  value : Text
  innerLines_eq : b.innerLines = earlier ++ (front ++ (text ++ back)) :: later
  written : Asset.Written text value
  found : search Asset.attributeAt? (front ++ (text ++ back)) = some (front, value)

namespace Block.LeadingAttribute
variable {b : Block} (a : b.LeadingAttribute)

/-- The inner text in front of the line with the attribute. -/
def before : Text :=
  a.earlier.flatMap (· ++ ['\n'])

/-- The inner text behind the attribute. -/
def behind : Text :=
  a.back ++ a.later.flatMap (['\n'] ++ ·)

/-- The attribute stands outside the comments that are removed from the block. -/
def Outside : Prop :=
  Comment.Outside (a.before ++ a.front) a.text a.behind

/-- No comment that is removed reaches into the line up to the end of the attribute. -/
def Undisturbed : Prop :=
  Comment.Outside a.before (a.front ++ a.text) a.behind

/-- What stands in front of the attribute on the line that it is on when comments are removed. -/
def start : Text :=
  lastLine (Comment.remains (a.before ++ a.front) (a.text ++ a.behind))

/-- On that line no attribute begins in front of it. -/
def Foremost : Prop :=
  ∀ u v, u ++ v = a.start → v ≠ [] → ∀ other, ¬ Asset.AttributeAt (v ++ a.text) other

theorem join_innerLines :
    join ['\n'] b.innerLines = a.before ++ (a.front ++ (a.text ++ a.behind)) := by
  rw [a.innerLines_eq, join_append_cons, before, behind, List.append_assoc, List.append_assoc]

/-- On each inner line on which an attribute is found there is one. -/
theorem exists_of_search {earlier later : List Text} {line front value : Text}
    (hlines : b.innerLines = earlier ++ line :: later)
    (h : search Asset.attributeAt? line = some (front, value)) :
    ∃ a : b.LeadingAttribute, a.earlier = earlier ∧ a.later = later ∧
      a.front ++ (a.text ++ a.back) = line ∧ a.front = front ∧ a.value = value := by
  obtain ⟨t, rfl, hread, _⟩ := search_eq_some_iff.mp h
  obtain ⟨markup, hwritten, back, rfl⟩ := Asset.attributeAt?_eq_some_iff.mp hread
  exact ⟨⟨earlier, front, markup, back, later, value, hlines, hwritten, h⟩, rfl, rfl, rfl, rfl, rfl⟩

variable {a} {document : Text}

theorem Undisturbed.outside (h : a.Undisturbed) : a.Outside :=
  (Comment.Outside.of_append h).1

/-- Comments that do not reach into the line leave its start as it is. -/
theorem Undisturbed.start_eq (h : a.Undisturbed) (hfront : '\n' ∉ a.front) : a.start = a.front := by
  have hne : a.front ++ a.text ≠ [] := List.append_ne_nil_of_right_ne_nil _ a.written.ne_nil
  have hbefore : Comment.remains a.before (a.front ++ a.text ++ a.behind) = [] ∨
      (Comment.remains a.before (a.front ++ a.text ++ a.behind)).getLast? = some '\n' := by
    rcases List.eq_nil_or_concat a.earlier with hnil | ⟨lines, line, hlines⟩
    · left
      rw [Comment.remains, before, hnil]
      rfl
    · right
      refine h.getLast?_remains hne ?_ (by decide)
      simp [before, hlines]
  rw [List.append_assoc] at hbefore
  rw [start, (Comment.Outside.of_append h).2, lastLine_append hbefore hfront]

/-- Then no attribute begins further left, as none did before. -/
theorem Undisturbed.foremost (h : a.Undisturbed) (hfront : '\n' ∉ a.front) : a.Foremost := by
  rw [Foremost, h.start_eq hfront]
  exact (a.written.search_append_iff a.front a.back).mp a.found

/-- When comments are removed the attribute is on a line behind its start. -/
theorem exists_mem_strippedLines (htext : '\n' ∉ a.text) (h : a.Outside) :
    ∃ rest, a.start ++ (a.text ++ rest) ∈ b.strippedLines := by
  obtain ⟨rest, hstrip⟩ := h.strip_eq
  rw [Block.strippedLines, a.join_innerLines, ← List.append_assoc, hstrip]
  exact Line.exists_mem_texts_append htext a.written.ne_nil a.written.getLast?_ne _ rest

end Block.LeadingAttribute

/-- **When comments hide no asset.**  The leftmost attribute of an inner line of a closed block, if
it stands outside the comments that are removed, is on a line of what is left.  There it comes
behind what is left of the text in front of it, and it is found when no attribute begins further
left; none does when no comment reaches into its own line in front of it.  If it is found, the entry
of the block lists all pieces of its value that are not blank. -/
theorem listed_of_outside {document : Text} {b : Block}
    (hb : b ∈ (BlockTable.extract document).terminated) (a : b.LeadingAttribute)
    (houtside : a.Outside) :
    (∃ rest, a.start ++ (a.text ++ rest) ∈ b.strippedLines ∧
      (search Asset.attributeAt? (a.start ++ (a.text ++ rest)) = some (a.start, a.value) ↔
        a.Foremost)) ∧
    (a.Undisturbed → a.Foremost) ∧
    (a.Foremost → ∃ e,
      (∀ o, (transform document o).manifest.get? b.key.kind b.key.manifestTarget = some e) ∧
        ∀ piece ∈ splitOn ',' a.value, trim piece ≠ [] → trim piece ∈ e.assets) := by
  have hline : a.front ++ (a.text ++ a.back) ∈ b.innerLines := by
    rw [a.innerLines_eq]
    exact List.mem_append_right _ List.mem_cons_self
  have hfeeds : '\n' ∉ a.front ++ (a.text ++ a.back) :=
    BlockTable.not_mem_of_mem_innerLines (List.mem_of_mem_filter hb) hline
  rw [List.mem_append, List.mem_append, not_or, not_or] at hfeeds
  obtain ⟨hfront, htext, _⟩ := hfeeds
  obtain ⟨rest, hmem⟩ := Block.LeadingAttribute.exists_mem_strippedLines htext houtside
  have hfound := a.written.search_append_iff a.start rest
  refine ⟨⟨rest, hmem, hfound⟩, fun h => h.foremost hfront, fun hforemost => ?_⟩
  obtain ⟨e, he, hlisted⟩ := Manifest.exists_get?_compile hb
  refine ⟨e, fun _ => he, fun piece hpiece hne => hlisted _ ?_⟩
  have hnamed : Asset.ofLine (a.start ++ (a.text ++ rest)) = Asset.ofValue a.value := by
    rw [Asset.ofLine, hfound.mpr hforemost]
  rw [b.ofInnerLines_eq]
  refine List.mem_flatMap.mpr ⟨_, hmem, ?_⟩
  rw [hnamed]
  exact List.mem_filter.mpr ⟨List.mem_map_of_mem hpiece, by simpa using hne⟩

/-- The script in front of the comment of `joined`. -/
def firstScript : Text :=
  "<script src=\"a.js\"></script>".toList

/-- The script behind the comment of `joined`. -/
def secondScript : Text :=
  "<script src=\"b.js\"></script>".toList

/-- Two scripts with a comment between them that takes in the line break. -/
def joined : Text :=
  "<!-- build:js app.js -->\n".toList ++
    (firstScript ++ " <!-- first\n".toList) ++
    ("second --> ".toList ++ secondScript) ++
    "\n<!-- endbuild -->\n".toList

/-- The block of `joined`. -/
def joinedBlock : Block where
  key := ⟨"js".toList, some "app.js".toList, none, none⟩
  directive := ⟨"js".toList, none, some "app.js".toList, none⟩
  lines := ["<!-- build:js app.js -->".toList, firstScript ++ " <!-- first".toList,
    "second --> ".toList ++ secondScript, "<!-- endbuild -->".toList]
  span := ⟨0, 122⟩
  lineNumber := 1
  terminated := true

theorem extract_joined : BlockTable.extract joined = ⟨[joinedBlock], .lf⟩ := by
  decide +kernel

theorem mem_terminated_joined : joinedBlock ∈ (BlockTable.extract joined).terminated := by
  rw [extract_joined]
  decide

theorem parts_joinedBlock :
    Comment.parts (join ['\n'] joinedBlock.innerLines) =
      [.plain (firstScript ++ [' ']), .removed " first\nsecond ".toList,
        .plain (' ' :: secondScript)] := by
  decide +kernel

/-- The attribute in front of the comment of `joined`. -/
def firstAttribute : joinedBlock.LeadingAttribute where
  earlier := []
  front := "<script ".toList
  text := "src=\"".toList ++ ("a.js".toList ++ ['"'])
  back := "></script> <!-- first".toList
  later := ["second --> ".toList ++ secondScript]
  value := "a.js".toList
  innerLines_eq := rfl
  written := Asset.written_src (by decide) (by decide)
  found := by decide

/-- The attribute behind the comment of `joined`. -/
def secondAttribute : joinedBlock.LeadingAttribute where
  earlier := [firstScript ++ " <!-- first".toList]
  front := "second --> <script ".toList
  text := "src=\"".toList ++ ("b.js".toList ++ ['"'])
  back := "></script>".toList
  later := []
  value := "b.js".toList
  innerLines_eq := rfl
  written := Asset.written_src (by decide) (by decide)
  found := by decide

theorem undisturbed_firstAttribute : firstAttribute.Undisturbed := by
  have hparts := parts_joinedBlock
  rw [firstAttribute.join_innerLines, ← List.append_assoc firstAttribute.front] at hparts
  exact Comment.outside_of_parts [] [] "></script> ".toList rfl rfl hparts rfl

theorem outside_secondAttribute : secondAttribute.Outside := by
  have hparts := parts_joinedBlock
  rw [secondAttribute.join_innerLines, ← List.append_assoc] at hparts
  exact Comment.outside_of_parts
    [.plain (firstScript ++ [' ']), .removed " first\nsecond ".toList]
    " <script ".toList "></script>".toList rfl rfl hparts rfl

/-- The script in front of the comment is listed. -/
theorem listed_joined :
    joinedBlock ∈ (BlockTable.extract joined).terminated ∧ firstAttribute.Outside ∧
      ∃ e, (transform joined .default).manifest.get? "js".toList "app.js".toList = some e ∧
        "a.js".toList ∈ e.assets := by
  have houtside : firstAttribute.Outside := undisturbed_firstAttribute.outside
  obtain ⟨_, hforemost, hlisted⟩ := listed_of_outside mem_terminated_joined firstAttribute houtside
  obtain ⟨e, he, hassets⟩ := hlisted (hforemost undisturbed_firstAttribute)
  exact ⟨mem_terminated_joined, houtside, e, he .default,
    hassets "a.js".toList (by decide) (by decide)⟩

/-- Not every attribute that stands outside the comments has its assets listed. -/
theorem not_all_outside_listed :
    ¬ ∀ (document : Text) (b : Block), b ∈ (BlockTable.extract document).terminated →
      ∀ a : b.LeadingAttribute, a.Outside →
        ∃ e, (transform document .default).manifest.get? b.key.kind b.key.manifestTarget = some e ∧
          ∀ piece ∈ splitOn ',' a.value, trim piece ≠ [] → trim piece ∈ e.assets := by
  intro hall
  obtain ⟨e, he, hlisted⟩ :=
    hall joined joinedBlock mem_terminated_joined secondAttribute outside_secondAttribute
  have hstrip : Comment.strip (join ['\n'] joinedBlock.innerLines) =
      firstScript ++ ' ' :: ' ' :: secondScript := by
    rw [Comment.strip, parts_joinedBlock]
    rfl
  have hnamed : Asset.ofInnerLines joinedBlock.innerLines = ["a.js".toList] := by
    rw [Asset.ofInnerLines, hstrip]
    decide
  have hmem : "b.js".toList ∈ e.assets := hlisted "b.js".toList (by decide) (by decide)
  rw [Manifest.assets_of_get?_compile he, extract_joined, List.mem_eraseDups] at hmem
  obtain ⟨b, hb, hasset⟩ := List.mem_flatMap.mp hmem
  obtain rfl := List.mem_singleton.mp (List.mem_of_mem_filter (List.mem_of_mem_filter hb))
  rw [hnamed] at hasset
  exact absurd hasset (by decide)

end BuildBlocks
