import BuildBlocks.Config.Basic

/-!
# The host of a command

What a command needs of the system that it runs on: files, and the directories in which it
was started.  Commands are written against this interface, so that the same command runs on
the files of the machine and on a tree of files held as a value.
-/
namespace BuildBlocks

/-- The system that a command runs on, with `m` for what its operations do. -/
structure Host (m : Type → Type) where
  /-- Whether anything stands at a path. -/
  pathExists : Text → m Bool
  /-- The text of the file at a path. -/
  read : Text → m (Except FileError Text)
  /-- Puts a text into the file at a path, which is made if need be. -/
  write : (path : Text) → (content : Text) → m (Except FileError Unit)
  /-- The working directory and the directories above it, from the nearest on. -/
  directories : m (List Text)

end BuildBlocks
