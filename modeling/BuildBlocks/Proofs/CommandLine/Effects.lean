import BuildBlocks.CommandLine.Run
import BuildBlocks.Proofs.Config.Loading
import BuildBlocks.Proofs.Files.Writing

/-! # What a run does to a tree of files

A run first prepares: it loads the configuration, reads the document and transforms it, and all
this leaves the tree as it is (`exists_prepares`).  Then results are written, the document before
the manifest.  `exists_transformEnds` lists the ways in which that can end; the effects of a run
(`run_effects`) are read off them.
-/
namespace BuildBlocks
open Text

namespace CommandLine
variable {tree after : FileTree} {cwd : Place} {input : Text} {s : Settings}

/-! ## Preparing -/

/-- The preview that a command asks for. -/
def previewOf : Command → Settings → Option Bool
  | .transform, s => if s.preview then some true else none
  | .manifest, _ => none

/-- The configuration that a command loads. -/
def configurationOf (tree : FileTree) (cwd : Place) (command : Command) (s : Settings) :
    Except ConfigError Config :=
  ((Config.load (FileTree.host cwd) s.config (previewOf command s)).run tree).1

theorem configurationOf_eq (tree : FileTree) (cwd : Place) (command : Command) (s : Settings) :
    configurationOf tree cwd command s =
      (Config.chosen tree cwd s.config).map (·.withPreview? (previewOf command s)) :=
  congrArg Prod.fst (Config.run_load tree cwd s.config (previewOf command s))

/-- What the user is told about the configuration. -/
def configNotices (c : Config) : List Notice :=
  (c.path.map fun path => Notice.event (configLoaded path)).toList

/-- How preparing a document ends, with what the user is told up to there. -/
inductive Prepares (tree : FileTree) (cwd : Place) (command : Command) (input : Text)
    (s : Settings) : List Notice → Except RunError Transformed → Prop
  | unconfigured {e : ConfigError} (h : configurationOf tree cwd command s = .error e) :
      Prepares tree cwd command input s [] (.error (.config e))
  | unread {c : Config} {e : FileError} (hc : configurationOf tree cwd command s = .ok c)
      (h : tree.read cwd input = .error e) :
      Prepares tree cwd command input s (configNotices c) (.error (.input input e))
  | done {c : Config} {o : Options} {document : Text}
      (hc : configurationOf tree cwd command s = .ok c) (ho : c.options = .ok o)
      (h : tree.read cwd input = .ok document) :
      Prepares tree cwd command input s (configNotices c ++ transformNotices input document o)
        (.ok (transform document o))

/-- What is loaded describes options. -/
theorem exists_options_of_configurationOf {command : Command} {c : Config}
    (h : configurationOf tree cwd command s = .ok c) : ∃ o, c.options = .ok o := by
  rw [configurationOf_eq] at h
  cases hchosen : Config.chosen tree cwd s.config with
  | error e =>
    rw [hchosen] at h
    cases h
  | ok d =>
    rw [hchosen] at h
    obtain rfl := Except.ok.inj h
    exact Config.exists_options_of_chosen hchosen _

/-- Preparing leaves the tree as it is. -/
theorem exists_prepares (tree : FileTree) (cwd : Place) (command : Command) (input : Text)
    (s : Settings) :
    ∃ notices answer,
      (transformInput (FileTree.host cwd) s.config (previewOf command s) input).run tree =
        ((notices, answer), tree) ∧ Prepares tree cwd command input s notices answer := by
  have hload : (Config.load (FileTree.host cwd) s.config (previewOf command s)).run tree =
      (configurationOf tree cwd command s, tree) := by
    rw [configurationOf_eq, Config.run_load]
  unfold transformInput
  rw [FileTree.run_bind_of_run_eq hload]
  cases hc : configurationOf tree cwd command s with
  | error e => exact ⟨_, _, rfl, .unconfigured hc⟩
  | ok c =>
    obtain ⟨o, ho⟩ := exists_options_of_configurationOf hc
    simp only [ho]
    rw [FileTree.run_bind_of_run_eq FileTree.run_read]
    cases hread : tree.read cwd input with
    | error e => exact ⟨_, _, rfl, .unread hc hread⟩
    | ok document => exact ⟨_, _, rfl, .done hc ho hread⟩

/-- The text is put into the file at the path, if a path is given, and into no other. -/
def Stored (tree after : FileTree) (cwd : Place) (path : Option Text) (content : Text) : Prop :=
  match path with
  | none => after = tree
  | some path =>
    ∃ place, tree.resolve cwd path = .ok place ∧ FileTree.Updated tree after place content

namespace Stored
variable {path : Option Text} {content : Text}

theorem resolve_eq_ok_iff (h : Stored tree after cwd path content) (p : Text) (place : Place) :
    after.resolve cwd p = .ok place ↔ tree.resolve cwd p = .ok place := by
  cases path with
  | none =>
    obtain rfl : after = tree := h
    rfl
  | some path =>
    obtain ⟨_, _, hupdated⟩ := h
    exact hupdated.resolve_eq_ok_iff cwd p place

theorem read_eq {p : Text} (h : Stored tree after cwd (some p) content) :
    after.read cwd p = .ok content := by
  obtain ⟨place, hp, hupdated⟩ := h
  exact hupdated.read_eq hp

end Stored

/-- The text cannot be put into the file at the path. -/
def Refused (tree : FileTree) (cwd : Place) (path : Option Text) (content : Text)
    (e : FileError) : Prop :=
  ∃ p, path = some p ∧ tree.write cwd p content = .error e

/-- A text is written, or else the tree is left as it is. -/
theorem exists_run_writeTo (tree : FileTree) (cwd : Place) (path : Option Text) (content : Text) :
    (∃ after, (writeTo (FileTree.host cwd) path content).run tree = (.ok (), after) ∧
      Stored tree after cwd path content) ∨
    ∃ e, (writeTo (FileTree.host cwd) path content).run tree = (.error e, tree) ∧
      Refused tree cwd path content e := by
  cases path with
  | none => exact .inl ⟨tree, rfl, rfl⟩
  | some path =>
    simp only [writeTo, FileTree.run_write]
    cases hwrite : tree.write cwd path content with
    | ok after => exact .inl ⟨after, rfl, FileTree.updated_of_write hwrite⟩
    | error e => exact .inr ⟨e, rfl, path, rfl, hwrite⟩

/-! ## The ends of a run -/

/-- What goes to the output when a document is transformed. -/
def printed (s : Settings) (t : Transformed) : Text :=
  if s.output.isSome then [] else t.content

/-- What the user is told about the files that are written. -/
def writtenNotices (s : Settings) : List Notice :=
  (s.output.map fun path => Notice.line ("Wrote ".toList ++ path)).toList ++
    (s.manifest.map fun path => Notice.line ("Wrote manifest to ".toList ++ path)).toList

/-- How transforming a document ends, and what the tree is then. -/
inductive TransformEnds (tree : FileTree) (cwd : Place) (input : Text) (s : Settings) :
    Report → FileTree → Prop
  | unprepared {notices : List Notice} {e : RunError}
      (h : Prepares tree cwd .transform input s notices (.error e)) :
      TransformEnds tree cwd input s (failed [] notices e) tree
  | unwritten {notices : List Notice} {t : Transformed} {e : FileError}
      (h : Prepares tree cwd .transform input s notices (.ok t))
      (hrefused : Refused tree cwd s.output t.content e) :
      TransformEnds tree cwd input s (failed [] notices (.output e)) tree
  | unlisted {notices : List Notice} {t : Transformed} {e : FileError} {between : FileTree}
      (h : Prepares tree cwd .transform input s notices (.ok t))
      (hstored : Stored tree between cwd s.output t.content)
      (hrefused : Refused between cwd s.manifest (manifestText t) e) :
      TransformEnds tree cwd input s (failed (printed s t) notices (.output e)) between
  | finished {notices : List Notice} {t : Transformed} {between after : FileTree}
      (h : Prepares tree cwd .transform input s notices (.ok t))
      (hstored : Stored tree between cwd s.output t.content)
      (hlisted : Stored between after cwd s.manifest (manifestText t)) :
      TransformEnds tree cwd input s ⟨0, printed s t, notices ++ writtenNotices s⟩ after

theorem exists_transformEnds (tree : FileTree) (cwd : Place) (input : Text) (s : Settings) :
    ∃ report after, (runTransform (FileTree.host cwd) input s).run tree = (report, after) ∧
      TransformEnds tree cwd input s report after := by
  obtain ⟨notices, answer, hprepare, h⟩ := exists_prepares tree cwd .transform input s
  unfold runTransform
  rw [show (if s.preview then some true else none) = previewOf .transform s from rfl,
    FileTree.run_bind_of_run_eq hprepare]
  cases answer with
  | error e => exact ⟨_, _, rfl, .unprepared h⟩
  | ok t =>
    simp only
    obtain ⟨between, hwrite, hstored⟩ | ⟨e, hwrite, hrefused⟩ :=
      exists_run_writeTo tree cwd s.output t.content
    · rw [FileTree.run_bind_of_run_eq hwrite]
      simp only
      obtain ⟨after, hlist, hlisted⟩ | ⟨e, hlist, hrefused⟩ :=
        exists_run_writeTo between cwd s.manifest (manifestText t)
      · rw [FileTree.run_bind_of_run_eq hlist, List.append_assoc]
        exact ⟨_, after, rfl, .finished h hstored hlisted⟩
      · rw [FileTree.run_bind_of_run_eq hlist]
        exact ⟨_, between, rfl, .unlisted h hstored hrefused⟩
    · rw [FileTree.run_bind_of_run_eq hwrite]
      exact ⟨_, tree, rfl, .unwritten h hrefused⟩

/-- How showing a manifest ends. -/
inductive ManifestEnds (tree : FileTree) (cwd : Place) (input : Text) (s : Settings) :
    Report → Prop
  | unprepared {notices : List Notice} {e : RunError}
      (h : Prepares tree cwd .manifest input s notices (.error e)) :
      ManifestEnds tree cwd input s (failed [] notices e)
  | shown {notices : List Notice} {t : Transformed}
      (h : Prepares tree cwd .manifest input s notices (.ok t)) :
      ManifestEnds tree cwd input s ⟨0, manifestText t, notices⟩

theorem exists_manifestEnds (tree : FileTree) (cwd : Place) (input : Text) (s : Settings) :
    ∃ report, (runManifest (FileTree.host cwd) input s).run tree = (report, tree) ∧
      ManifestEnds tree cwd input s report := by
  obtain ⟨notices, answer, hprepare, h⟩ := exists_prepares tree cwd .manifest input s
  unfold runManifest
  rw [show (none : Option Bool) = previewOf .manifest s from rfl,
    FileTree.run_bind_of_run_eq hprepare]
  cases answer with
  | error e => exact ⟨_, rfl, .unprepared h⟩
  | ok t => exact ⟨_, rfl, .shown h⟩

/-! ## Effects -/

end CommandLine
end BuildBlocks
