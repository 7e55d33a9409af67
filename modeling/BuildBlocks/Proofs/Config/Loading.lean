import BuildBlocks.Config.Load
import BuildBlocks.Proofs.Files.Writing

/-! # Loading on a tree of files

On a tree of files a configuration is a function of the tree (`run_load`): looking for it and
reading it leave the tree as it is.  What is loaded can be turned into options, and a preview that
the caller asks for changes nothing but the preview (`options_withPreview?`).
-/
namespace BuildBlocks
open Text

namespace Config

/-! ## Options -/

theorem registerTemplate_withPreview (o : Options) (preview : Bool) (kind template : Text) :
    registerTemplate (o.withPreview preview) kind template =
      (registerTemplate o kind template).map (·.withPreview preview) := by
  unfold registerTemplate
  cases Template.parse kind template with
  | error e => rfl
  | ok t =>
    unfold Options.register
    cases BlockType.ofName kind with
    | custom name =>
      simp only
      by_cases hname : BlockType.isName kind = true
      · rw [if_pos hname, if_pos hname]
        rfl
      · rw [if_neg hname, if_neg hname]
        rfl
    | _ => rfl

theorem registerAll_withPreview (o : Options) (preview : Bool) (templates : List (Text × Text)) :
    registerAll (o.withPreview preview) templates =
      (registerAll o templates).map (·.withPreview preview) := by
  induction templates generalizing o with
  | nil => rfl
  | cons e templates ih =>
    obtain ⟨kind, template⟩ := e
    rw [registerAll, registerAll, registerTemplate_withPreview]
    cases registerTemplate o kind template with
    | error e => rfl
    | ok o' => exact ih o'

/-- Whether there are options does not depend on the preview, and neither do the handlers. -/
theorem options_withPreview? (c : Config) (preview : Option Bool) :
    (c.withPreview? preview).options =
      c.options.map (·.withPreview (preview.getD c.preview)) :=
  registerAll_withPreview (Options.default.withPreview c.preview) _ _

theorem exists_options_of_fault? {c : Config} (h : c.fault? = none) : ∃ o, c.options = .ok o := by
  unfold fault? at h
  split at h
  · cases h
  · split at h
    · exact ⟨_, ‹_›⟩
    · cases h

/-! ## The configuration of a tree -/

/-- The configuration in the file at a path. -/
def inFile (tree : FileTree) (cwd : Place) (path : Text) : Except ConfigError Config :=
  match tree.read cwd path with
  | .error e => .error (.unreadable e)
  | .ok document => ofText path document

/-- The configuration of a tree for the directory `cwd`: the one that was asked for, or the one in
the nearest directory. -/
def chosen (tree : FileTree) (cwd : Place) : Option Text → Except ConfigError Config
  | some path => if tree.pathExists cwd path then inFile tree cwd path else .error (.notFound path)
  | none =>
    match (((FileTree.ancestors cwd).map FileTree.pathOf).map pathIn).find?
        (tree.pathExists cwd) with
    | some path => inFile tree cwd path
    | none => .ok default

variable (tree : FileTree) (cwd : Place)

theorem run_loadFile (path : Text) :
    (loadFile (FileTree.host cwd) path).run tree = (inFile tree cwd path, tree) := by
  unfold loadFile inFile
  rw [FileTree.run_bind_of_run_eq FileTree.run_read]
  cases tree.read cwd path <;> rfl

theorem run_discover (directories : List Text) :
    (discover (FileTree.host cwd) directories).run tree =
      ((directories.map pathIn).find? (tree.pathExists cwd), tree) := by
  induction directories with
  | nil => rfl
  | cons directory rest ih =>
    rw [discover, FileTree.run_bind_of_run_eq FileTree.run_pathExists, List.map_cons,
      List.find?_cons]
    cases tree.pathExists cwd (pathIn directory) with
    | true => rfl
    | false => exact ih

theorem run_loadChosen (asked : Option Text) :
    (loadChosen (FileTree.host cwd) asked).run tree = (chosen tree cwd asked, tree) := by
  unfold loadChosen
  cases asked with
  | some path =>
    simp only [chosen]
    rw [FileTree.run_bind_of_run_eq FileTree.run_pathExists]
    cases tree.pathExists cwd path with
    | true => exact run_loadFile tree cwd path
    | false => rfl
  | none =>
    simp only [chosen]
    rw [FileTree.run_bind_of_run_eq FileTree.run_directories,
      FileTree.run_bind_of_run_eq (run_discover tree cwd _)]
    cases (((FileTree.ancestors cwd).map FileTree.pathOf).map pathIn).find?
        (tree.pathExists cwd) with
    | some path => exact run_loadFile tree cwd path
    | none => rfl

/-- Loading is a function of the tree, and leaves it as it is. -/
theorem run_load (asked : Option Text) (preview : Option Bool) :
    (load (FileTree.host cwd) asked preview).run tree =
      ((chosen tree cwd asked).map (·.withPreview? preview), tree) := by
  unfold load
  rw [FileTree.run_bind_of_run_eq (run_loadChosen tree cwd asked)]
  cases chosen tree cwd asked <;> rfl

variable {tree cwd}

/-- What is loaded describes options, whatever preview the caller asks for. -/
theorem exists_options_of_chosen {asked : Option Text} {c : Config}
    (h : chosen tree cwd asked = .ok c) (preview : Option Bool) :
    ∃ o, (c.withPreview? preview).options = .ok o := by
  have hfile : ∀ path, inFile tree cwd path = .ok c → ∃ o, c.options = .ok o := by
    intro path hpath
    unfold inFile ofText at hpath
    split at hpath
    · cases hpath
    · split at hpath
      · cases hpath
      · rename_i d hd
        split at hpath
        · rename_i hfault
          obtain rfl := Except.ok.inj hpath
          exact exists_options_of_fault? (c := d) hfault
        · cases hpath
  have hoptions : ∃ o, c.options = .ok o := by
    unfold chosen at h
    split at h
    · split at h
      · exact hfile _ h
      · cases h
    · split at h
      · exact hfile _ h
      · obtain rfl := Except.ok.inj h
        exact ⟨_, rfl⟩
  obtain ⟨o, ho⟩ := hoptions
  exact ⟨_, by rw [options_withPreview?, ho]; rfl⟩

end Config
end BuildBlocks
