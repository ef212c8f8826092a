import CallDoc.Command.FileSystem

/-!
A tree of files without links, as a file system. A path is followed component by component, so a
step back counts only behind a directory that is there, and a slash behind a file leads nowhere.
What a path leads to is known by its steps.
-/
namespace CallDoc

open Text

/-- What stands at a place. -/
inductive Place
  | directory (steps : List Text)
  | file (content : Text)
  deriving DecidableEq, Repr

structure FileTree where
  /-- The contents of files by their steps. -/
  files : List (List Text × Text)
  /-- The steps of directories. One that a file lies below need not be among them. -/
  directories : List (List Text)

namespace FileTree

/-- What follows `lead` in a list that goes on after it. -/
def below? : (lead : List Text) → List Text → Option (List Text)
  | [], [] => none
  | [], rest => some rest
  | _ :: _, [] => none
  | a :: lead, b :: rest => if a = b then below? lead rest else none

/-- The ways from a directory to what lies below it. -/
def inside (tree : FileTree) (steps : List Text) : List (List Text) :=
  ((tree.files.map Prod.fst ++ tree.directories).filterMap (below? steps)).filter fun way =>
    way.head?.all Path.isName

/-- What stands at the steps of an entry. -/
def entry? (tree : FileTree) (steps : List Text) : Option Place :=
  match tree.files.lookup steps with
  | some content => some (.file content)
  | none =>
    if tree.directories.contains steps || !(tree.inside steps).isEmpty then
      some (.directory steps)
    else none

/-- What a component leads to from a directory. -/
def enter? (tree : FileTree) (steps : List Text) (component : Text) : Option Place :=
  if component.isEmpty || Path.isDots component then
    some (.directory (Path.advance steps component))
  else tree.entry? (Path.advance steps component)

/-- What the components lead to, one after the other. A file leads no further. -/
def follow? (tree : FileTree) : Place → List Text → Option Place
  | place, [] => some place
  | .file _, _ :: _ => none
  | .directory steps, c :: more => (tree.enter? steps c).bind fun place => tree.follow? place more

/-- What a path leads to. -/
def at? (tree : FileTree) (path : Text) : Option Place :=
  if path.isEmpty then none
  else tree.follow? (.directory (Path.start path).1) (Path.start path).2

/-- The text of a file. -/
def read? (tree : FileTree) (path : Text) : Option Text :=
  match tree.at? path with
  | some (.file content) => some content
  | _ => none

def isDirectory (tree : FileTree) (path : Text) : Bool :=
  match tree.at? path with
  | some (.directory _) => true
  | _ => false

/-- The ways from a path to what lies below it, where it is a directory. -/
def ways (tree : FileTree) (path : Text) : List (List Text) :=
  match tree.at? path with
  | some (.directory steps) => tree.inside steps
  | _ => []

/-- The names in a directory, in order. -/
def names (tree : FileTree) (path : Text) : List Text :=
  ((tree.ways path).filterMap List.head?).eraseDups.mergeSort fun a b => !before b a

/-- The paths of all that lies below a directory. -/
def descendants (tree : FileTree) (path : Text) : List Text :=
  let stops := (tree.ways path).flatMap fun way =>
    (List.range way.length).map fun n => way.take (n + 1)
  stops.eraseDups.map fun way => way.foldl Path.entry path

theorem isName_of_mem_names {tree : FileTree} {path name : Text} (h : name ∈ tree.names path) :
    Path.isName name = true := by
  obtain ⟨way, hway, hname⟩ := List.mem_filterMap.1 (List.mem_eraseDups.1 (List.mem_mergeSort.1 h))
  unfold ways at hway
  split at hway
  · have hfirst := (List.mem_filter.1 hway).2
    rwa [hname, Option.all_some] at hfirst
  · cases hway

/-- The tree as a file system. -/
def system (tree : FileTree) : FileSystem (List Text) where
  file? path := (tree.read? path).map fun _ => Path.steps path
  isDirectory := tree.isDirectory
  names path := .ok (tree.names path)
  read path := match tree.read? path with
    | some content => .ok content
    | none => .error "No such file or directory (os error 2)".toList
  named h _ hname := isName_of_mem_names (Except.ok.inj h ▸ hname)
  unique hsame ha hb := by
    obtain ⟨_, -, rfl⟩ := Option.map_eq_some_iff.1 ha
    obtain ⟨_, -, rfl⟩ := Option.map_eq_some_iff.1 hb
    rw [Path.steps_eq_place, Path.steps_eq_place, Path.place, hsame, Path.place]

theorem isPlain_system (tree : FileTree) : tree.system.IsPlain [] := by
  intro p q a hp hq
  obtain ⟨_, -, rfl⟩ := Option.map_eq_some_iff.1 hp
  obtain ⟨_, -, hsteps⟩ := Option.map_eq_some_iff.1 hq
  rw [← Path.steps_eq_place, ← Path.steps_eq_place, hsteps]

end FileTree
end CallDoc
