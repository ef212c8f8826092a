import CallDoc.Command.Matching
import CallDoc.Command.Perform

/-!
The command on a tree of files, with the patterns of `Glob` and nothing logged. These are the
surroundings that the command line hands to it; what is shown of the command holds in any.
-/
namespace CallDoc.Command

/-- A tree of files and a standard input as surroundings. -/
def surroundings (tree : FileTree) (input : Text) : Surroundings (List Text) where
  files := tree.system
  matching pattern :=
    match Glob.error? pattern with
    | some e => .error e.message
    | none => .ok (Glob.matching tree pattern)
  input := .ok input
  readingLog _ := []
  typeLog _ := []

/-- Does what the task asks with the files of a tree. -/
def run (tree : FileTree) (input : Text) (task : Task) : Outcome :=
  perform (surroundings tree input) task

end CallDoc.Command
