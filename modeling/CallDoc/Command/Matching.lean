import CallDoc.Command.FileTree
import CallDoc.Command.Glob

/-!
The paths that match a pattern. The pattern is taken apart at its slashes, and each part is
matched against the names at one place of the tree; a part of two stars stands for any
number of directories.
-/
namespace CallDoc.Glob

open Text

/-- The path that a pattern starts from, and its parts. A slash at the end closes the last
part. -/
def parts (pattern : Text) : Text × List Text :=
  let parts := (Path.start pattern).2
  let closed := if 1 < parts.length && parts.getLast? == some [] then parts.dropLast else parts
  (if (Path.start pattern).1.isEmpty then ['.'] else ['/'], closed)

/-- The fault of a pattern that is refused, in the whole of it or else in one part. -/
def error? (pattern : Text) : Option PatternError :=
  (firstError? pattern).or ((parts pattern).2.findSome? firstError?)

/-- The part stands for any number of directories. -/
def isDeep (part : Text) : Bool := part = ['*', '*']

/-- The dots that a part matches. It has to start with a dot itself. -/
def dots (part : Text) : List Text :=
  if part.head? = some '.' then
    [['.', '.'], ['.']].filter (matchTokens (tokens part))
  else []

/-- The paths one step from `path` on that match a part. A part that is not a pattern need
not be listed anywhere. -/
def step (tree : FileTree) (part path : Text) : List Text :=
  if isWild part then
    if tree.isDirectory path then
      (dots part).map (Path.join path) ++
        ((tree.names path).filter (matchTokens (tokens part))).map (Path.entry path)
    else []
  else
    let next := Path.entry path part
    let found := if Path.isDots part then tree.isDirectory path else (tree.at? next).isSome
    if found then [next] else []

mutual

/-- The paths from `path` on that match the parts of a pattern. -/
def search (tree : FileTree) : (parts : List Text) → (path : Text) → List Text
  | [], path => [path]
  | part :: more, path =>
    if isDeep part then (tree.descendants path).flatMap (searchAt tree more)
    else (step tree part path).flatMap (search tree more)

/-- The paths from `path` on that match the parts, the first of which `path` itself has to
match by its name. -/
def searchAt (tree : FileTree) : (parts : List Text) → (path : Text) → List Text
  | [], path => if tree.isDirectory path then [path] else []
  | part :: more, path =>
    if isDeep part then searchAt tree more path
    else if (Path.name? path).any (matchTokens (tokens part)) then search tree more path
    else []

end

/-- The paths that match a pattern. One that ends in a slash matches only directories. -/
def matching (tree : FileTree) (pattern : Text) : List Text :=
  let found := search tree (parts pattern).2 (parts pattern).1
  if pattern.getLast? = some '/' then found.filter tree.isDirectory else found

end CallDoc.Glob
