import BuildBlocks.Proofs.CommandLine.Effects

/-! # The two commands on one document

Showing a manifest and writing it beside a transformed document go through the same preparation,
except that only the latter can ask for a preview.  A preview changes neither whether the
preparation succeeds, nor the manifest, nor the blocks that are reported as open
(`Prepares.agree`), so the two commands agree on all three (`commands_agree`).
-/
namespace BuildBlocks
open Text

namespace CommandLine
variable {tree after : FileTree} {cwd : Place} {input : Text} {s s' : Settings}

/-! ## Lines of text -/

/-- The line of text that a notice is, if it is no event. -/
def Notice.line? : Notice → Option Text
  | .line t => some t
  | .event _ => none

/-- The lines of text among what the user is told, in order. -/
def Report.lines (r : Report) : List Text :=
  r.notices.filterMap Notice.line?

/-- The lines about the blocks of a document that nothing closes. -/
def warnings (input document : Text) : List Text :=
  (BlockTable.extract document).unterminated.map fun b => warning input ⟨b.lineNumber, b.key.kind⟩

/-- The lines about the files that are written. -/
def writtenLines (s : Settings) : List Text :=
  (s.output.map ("Wrote ".toList ++ ·)).toList ++
    (s.manifest.map ("Wrote manifest to ".toList ++ ·)).toList

theorem filterMap_line?_events (events : List Event) :
    (events.map Notice.event).filterMap Notice.line? = [] := by
  rw [List.filterMap_map]
  exact List.filterMap_eq_nil_iff.2 fun _ _ => rfl

theorem filterMap_line?_lines {α : Type} (f : α → Text) (xs : List α) :
    (xs.map fun x => Notice.line (f x)).filterMap Notice.line? = xs.map f := by
  rw [List.filterMap_map]
  exact congrFun List.filterMap_eq_map xs

theorem filterMap_line?_configNotices (c : Config) :
    (configNotices c).filterMap Notice.line? = [] := by
  unfold configNotices
  cases c.path <;> rfl

/-- Of what is told about a document, only the blocks left open make lines. -/
theorem filterMap_line?_prepared (c : Config) (input document : Text) (o : Options) :
    (configNotices c ++ transformNotices input document o).filterMap Notice.line? =
      warnings input document := by
  unfold transformNotices
  rw [List.filterMap_append, List.filterMap_append, filterMap_line?_configNotices,
    filterMap_line?_events, filterMap_line?_lines]
  exact List.map_map

theorem filterMap_line?_writtenNotices (s : Settings) :
    (writtenNotices s).filterMap Notice.line? = writtenLines s := by
  unfold writtenNotices writtenLines
  cases s.output <;> cases s.manifest <;> rfl

theorem lines_failed (output : Text) (notices : List Notice) (e : RunError) :
    (failed output notices e).lines = notices.filterMap Notice.line? ++ [errorLine e] :=
  List.filterMap_append

/-! ## Agreement -/

/-- The configuration of a transformation is the one for its manifest, up to the preview. -/
theorem configurationOf_transform (hconfig : s'.config = s.config) :
    configurationOf tree cwd .transform s =
      (configurationOf tree cwd .manifest s').map (·.withPreview? (previewOf .transform s)) := by
  rw [configurationOf_eq, configurationOf_eq, hconfig]
  cases Config.chosen tree cwd s.config <;> rfl

/-- Both commands fail to prepare for the same reason, having told the user nothing but events, or
both are prepared with the same document. -/
theorem Prepares.agree {notices notices' : List Notice}
    {answer answer' : Except RunError Transformed}
    (h : Prepares tree cwd .transform input s notices answer)
    (h' : Prepares tree cwd .manifest input s' notices' answer')
    (hconfig : s'.config = s.config) :
    (∃ e, answer = .error e ∧ answer' = .error e ∧ notices' = notices ∧
      notices.filterMap Notice.line? = []) ∨
    ∃ document t t', tree.read cwd input = .ok document ∧ answer = .ok t ∧ answer' = .ok t' ∧
      manifestText t' = manifestText t ∧
      notices.filterMap Notice.line? = warnings input document ∧
      notices'.filterMap Notice.line? = warnings input document := by
  have hsame : configurationOf tree cwd .transform s =
      (configurationOf tree cwd .manifest s').map (·.withPreview? (previewOf .transform s)) :=
    configurationOf_transform hconfig
  cases h' with
  | unconfigured hc' =>
    rw [hc'] at hsame
    cases h with
    | unconfigured hc =>
      obtain rfl := Except.error.inj (hc.symm.trans hsame)
      exact .inl ⟨_, rfl, rfl, rfl, rfl⟩
    | unread hc | done hc => cases hc.symm.trans hsame
  | @unread c' _ hc' hread' =>
    rw [hc'] at hsame
    cases h with
    | unconfigured hc => cases hc.symm.trans hsame
    | unread hc hread =>
      obtain rfl := Except.ok.inj (hc.symm.trans hsame)
      obtain rfl := Except.error.inj (hread.symm.trans hread')
      exact .inl ⟨_, rfl, rfl, rfl, filterMap_line?_configNotices c'⟩
    | done hc ho hread => cases hread.symm.trans hread'
  | @done c' o' document hc' ho' hread' =>
    rw [hc'] at hsame
    cases h with
    | unconfigured hc => cases hc.symm.trans hsame
    | unread hc hread => cases hread.symm.trans hread'
    | @done c o _ hc ho hread =>
      obtain rfl := Except.ok.inj (hread.symm.trans hread')
      -- The options only decide what takes the place of blocks.
      exact .inr ⟨_, transform _ o, transform _ o', hread, rfl, rfl, rfl,
        filterMap_line?_prepared _ input _ o, filterMap_line?_prepared c' input _ o'⟩

/-- **The commands agree.**  When transforming a document succeeds, so does showing its manifest:
what is shown is the text left in the manifest's file, with the same warnings about blocks that
nothing closes.  When showing the manifest fails, transforming fails with the same report and
leaves the tree as it is. -/
theorem commands_agree (tree : FileTree) (cwd : Place) (input : Text) (s s' : Settings)
    (hconfig : s'.config = s.config) :
    ∃ report after report',
      (run (FileTree.host cwd) (some (.run .transform input s))).run tree = (report, after) ∧
      (run (FileTree.host cwd) (some (.run .manifest input s'))).run tree = (report', tree) ∧
      (report.exitCode = 0 →
        report'.exitCode = 0 ∧
        (∀ path, s.manifest = some path → after.read cwd path = .ok report'.output) ∧
        ∃ document, tree.read cwd input = .ok document ∧
          report'.lines = warnings input document ∧
          report.lines = warnings input document ++ writtenLines s) ∧
      (report'.exitCode = 1 →
        report = report' ∧ after = tree ∧ ∃ e, report'.lines = [errorLine e]) := by
  obtain ⟨report, after, hrun, hends⟩ := exists_transformEnds tree cwd input s
  obtain ⟨report', hrun', hends'⟩ := exists_manifestEnds tree cwd input s'
  refine ⟨report, after, report', hrun, hrun', fun hexit => ?_, fun hexit' => ?_⟩
  · cases hends with
    | unprepared h | unwritten h | unlisted h => cases hexit
    | finished h hstored hlisted =>
      cases hends' with
      | unprepared h' =>
        rcases h.agree h' hconfig with ⟨e, he, -⟩ | ⟨_, _, _, _, _, he, -⟩
        · cases he
        · cases he
      | shown h' =>
        rcases h.agree h' hconfig with
          ⟨e, he, -⟩ | ⟨document, t, t', hread, ht, ht', hmanifest, hlines, hlines'⟩
        · cases he
        · obtain rfl := Except.ok.inj ht
          obtain rfl := Except.ok.inj ht'
          refine ⟨rfl, fun path hpath => ?_, document, hread, hlines', ?_⟩
          · rw [hpath] at hlisted
            rw [hlisted.read_eq, hmanifest]
          · unfold Report.lines
            rw [List.filterMap_append, hlines, filterMap_line?_writtenNotices]
  · cases hends' with
    | shown h' => cases hexit'
    | unprepared h' =>
      cases hends with
      | unprepared h =>
        rcases h.agree h' hconfig with ⟨e, he, he', hnotices, hnone⟩ | ⟨_, _, _, _, he, -⟩
        · obtain rfl := Except.error.inj he
          obtain rfl := Except.error.inj he'
          subst hnotices
          exact ⟨rfl, rfl, _, by rw [lines_failed, hnone]; rfl⟩
        · cases he
      | unwritten h | unlisted h | finished h =>
        rcases h.agree h' hconfig with ⟨_, he, -⟩ | ⟨_, _, _, _, _, he, -⟩
        · cases he
        · cases he

/-! ## A document that makes room for its manifest -/

/-- A document with one block that is closed and one that is not. -/
def draft : Text :=
  "<!-- build:js app.js -->\n".toList ++ "<script src=\"a.js\"></script>\n".toList ++
    "<!-- endbuild -->\n".toList ++ "<!-- build:css -->\n".toList

/-- The tree with nothing but the document. -/
def draftTree : FileTree :=
  ⟨[(["a.html".toList], .file (some draft))]⟩

/-- The settings that name the document. -/
def listingSettings : Settings :=
  { Settings.empty with input := some "a.html".toList }

/-- The document is transformed in a preview, with both results going to its own file. -/
def draftSettings : Settings :=
  { listingSettings with
    output := some "a.html".toList, manifest := some "a.html".toList, preview := true }

/-- What is shown of the document beforehand is what is in its file thereafter. -/
theorem commands_agree_draft :
    readRequest (["transform", "a.html", "-o", "a.html", "-m", "a.html", "--noconcat"].map
      String.toList) = some (.run .transform "a.html".toList draftSettings) ∧
    readRequest (["manifest", "a.html"].map String.toList) =
      some (.run .manifest "a.html".toList listingSettings) ∧
    ∃ report after report',
      (run (FileTree.host []) (some (.run .transform "a.html".toList draftSettings))).run
        draftTree = (report, after) ∧
      (run (FileTree.host []) (some (.run .manifest "a.html".toList listingSettings))).run
        draftTree = (report', draftTree) ∧
      report.exitCode = 0 ∧ report'.exitCode = 0 ∧
      after.read [] "a.html".toList = .ok report'.output ∧
      report'.lines =
        ["Warning: a.html:4: build:css block has no endbuild, left unchanged".toList] := by
  obtain ⟨report, after, report', hrun, hrun', hagree, -⟩ :=
    commands_agree draftTree [] "a.html".toList draftSettings listingSettings rfl
  have hexit : report.exitCode = 0 := by
    have : ((run (FileTree.host []) (some (.run .transform "a.html".toList draftSettings))).run
        draftTree).1.exitCode = 0 := by decide
    rwa [hrun] at this
  obtain ⟨hexit', hread, document, hdocument, hlines, -⟩ := hagree hexit
  obtain rfl : draft = document := Except.ok.inj hdocument
  exact ⟨by decide, by decide, report, after, report', hrun, hrun', hexit, hexit',
    hread _ rfl, hlines.trans (by decide)⟩

end CommandLine
end BuildBlocks
