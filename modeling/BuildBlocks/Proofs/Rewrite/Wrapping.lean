import BuildBlocks.Proofs.ConditionalComment.Recognition
import BuildBlocks.Proofs.Rewrite.Frame

/-! # Conditional comments that survive

A reference is put between the two ends of the conditional comment that its block holds.  In front
of the opener stand blanks only, and the closer stands behind the reference at the latest, so the
same opener is recognised again, whatever the reference says (`find_wrapped`).
-/
namespace BuildBlocks
open Text

namespace ConditionalComment

/-- An opener that was recognised is so again behind blanks, in front of any text with a closer. -/
theorem exists_find_of_find {t blanks : Text} {c : ConditionalComment} (hc : find t = some c)
    (hblanks : ∀ d ∈ blanks, isBlank d = true) (front after : Text) :
    ∃ closer, find (blanks ++ (c.opener ++ (front ++ (c.closer ++ after)))) =
      some ⟨c.opener, closer⟩ := by
  obtain ⟨_, _, _, _, head, condition, inside, _, hread⟩ := find_eq_some_iff.mp hc
  have hcloses : Closes (c.closer ++ after) :=
    ⟨c.closer, hread.isClosing, List.prefix_append _ _⟩
  obtain ⟨closer, hat⟩ := hread.at?_opener_append front hcloses
  refine ⟨closer, ?_⟩
  rw [find_blanks_append hblanks, find, search_of_read hat]
  rfl

end ConditionalComment

/-- What comes in the place of a block with a conditional comment has the same opener. -/
theorem Block.Replaces.exists_find {b : Block} {ending : LineEnding} {o : Options} {text : Text}
    {c : ConditionalComment} (h : b.Replaces ending o text) (ho : o.preview = false)
    (hc : ConditionalComment.find (b.text ending) = some c) :
    ∃ closer, ConditionalComment.find text = some ⟨c.opener, closer⟩ := by
  cases h with
  | preview _ hpreview =>
    rw [ho] at hpreview
    cases hpreview
  | plain _ _ hnone =>
    rw [hc] at hnone
    cases hnone
  | @conditional reference _ _ _ hc' =>
    obtain rfl := Option.some.inj (hc.symm.trans hc')
    have hindent : ∀ d ∈ b.indent, isBlank d = true :=
      fun d hd => List.all_eq_true.mp List.all_takeWhile d hd
    obtain ⟨closer, hfind⟩ := ConditionalComment.exists_find_of_find hc hindent
      (ending.text ++ (b.indent ++ (reference ++ (ending.text ++ b.indent)))) []
    refine ⟨closer, ?_⟩
    rw [← hfind]
    simp only [join, List.append_assoc, List.append_nil]

/-- **Which conditional comments are recognised, and that they survive.**  A conditional comment is
found exactly where one starts; it is the leftmost one, its opener ends at the first `]>`, and its
closer is the first one behind that.  When a block with a conditional comment is replaced by a
reference, a conditional comment with the same opener is found in what replaces it. -/
theorem find_wrapped :
    (∀ t : Text, (∃ c, ConditionalComment.find t = some c) ↔
      ∃ before rest, t = before ++ rest ∧ ConditionalComment.Starts rest) ∧
    (∀ (t : Text) (c : ConditionalComment), ConditionalComment.find t = some c ↔
      ∃ before rest, t = before ++ rest ∧ Earliest ConditionalComment.Starts t before ∧
        ∃ head condition inside after, c.ReadAs rest head condition inside after) ∧
    ∀ (b : Block) (ending : LineEnding) (o : Options) (text : Text) (c : ConditionalComment),
      o.preview = false → b.replacement? ending o = some text →
        ConditionalComment.find (b.text ending) = some c →
          ∃ closer, ConditionalComment.find text = some ⟨c.opener, closer⟩ := by
  refine ⟨fun t => ConditionalComment.exists_find_iff,
    fun t c => ConditionalComment.find_eq_some_iff, fun b ending o text c ho htext hc => ?_⟩
  exact (Block.replaces_of_replacement? htext).exists_find ho hc

/-- A document with a closer among the attributes of its block, and with a conditional comment in
capitals. -/
def hedged : Text :=
  "  <!-- build:js a.js <![endif]--> -->\n".toList ++ "<!--[IF\tIE]>\n".toList ++
    "<script></script>\n".toList ++ "<![ENDIF]-->\n".toList ++ "<!-- endbuild -->".toList

/-- The block of `hedged`. -/
def hedgedBlock : Block where
  key := ⟨"js".toList, some "a.js".toList, some "<![endif]-->".toList, none⟩
  directive := ⟨"js".toList, none, some "a.js".toList, some "<![endif]-->".toList⟩
  lines := ["  <!-- build:js a.js <![endif]--> -->".toList, "<!--[IF\tIE]>".toList,
    "<script></script>".toList, "<![ENDIF]-->".toList, "<!-- endbuild -->".toList]
  span := ⟨0, 99⟩
  lineNumber := 1
  terminated := true

/-- What replaces `hedgedBlock`. -/
def hedgedText : Text :=
  "  <!--[IF\tIE]>\n".toList ++ "  <script src=\"a.js\" <![endif]-->></script>\n".toList ++
    "  <![ENDIF]-->".toList

set_option maxRecDepth 8000 in
theorem find_wrapped_hedged :
    hedgedBlock ∈ (BlockTable.extract hedged).terminated ∧ Options.default.preview = false ∧
      hedgedBlock.replacement? .lf .default = some hedgedText ∧
      ConditionalComment.find (hedgedBlock.text .lf) =
        some ⟨"<!--[IF\tIE]>".toList, "<![ENDIF]-->".toList⟩ ∧
      ∃ closer, ConditionalComment.find hedgedText = some ⟨"<!--[IF\tIE]>".toList, closer⟩ := by
  have hb : hedgedBlock ∈ (BlockTable.extract hedged).terminated := by decide
  have htext : hedgedBlock.replacement? .lf .default = some hedgedText := by decide
  have hc : ConditionalComment.find (hedgedBlock.text .lf) =
      some ⟨"<!--[IF\tIE]>".toList, "<![ENDIF]-->".toList⟩ := by decide
  exact ⟨hb, rfl, htext, hc, find_wrapped.2.2 hedgedBlock .lf .default hedgedText _ rfl htext hc⟩

end BuildBlocks
