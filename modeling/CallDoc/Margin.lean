import CallDoc.Section.Heading
import CallDoc.Text.Lines

/-!
Documentation as it stands in a source file: all lines but the first are indented like the
code around them. `cleanMargin` takes that margin away, and the empty lines at both ends.

When the first line is a section heading with a colon and no later line is indented less
than the first one below it, the margin stays: without it the section would have no body.
-/
namespace CallDoc

open Text

/-- The lines with tabs expanded and nothing left of those that hold only blanks. -/
def sourceLines (t : Text) : List Text :=
  (splitOn '\n' t).map fun line =>
    let line := expandTabs line
    if blank line then [] else line

/-- The heading in the first line has its body at the margin. -/
def keepsMargin (first : Text) (below : List Text) : Bool :=
  (Heading.ofColonLine? first).isSome && firstIndent? below == margin? below

/-- The text without its margin. -/
def cleanMargin (t : Text) : Text :=
  match sourceLines t with
  | [] => []
  | line :: below =>
    let first := trimStart line
    let body := if keepsMargin first below then below else dedent below
    unlines (stripEmpty (first :: body))

end CallDoc
