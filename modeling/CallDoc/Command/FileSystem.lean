import CallDoc.Command.Path

/-!
What the command can see of the files around it. Paths are followed outside of it, through links as
well, so that paths of different components may lead to one file. What is known of the answers is
that a file is told by the components of any path to it, and that the names in a directory are
names of entries.
-/
namespace CallDoc

/-- The files around the command. -/
structure FileSystem (ι : Type) where
  /-- The file that a path leads to, if it leads to one. -/
  file? : Text → Option ι
  isDirectory : Text → Bool
  /-- The names in a directory, or why it cannot be listed. -/
  names : Text → Except Text (List Text)
  /-- The text of a file, or why it cannot be read. -/
  read : Text → Except Text Text
  /-- The dots that stand for a directory and the one above are not listed. -/
  named : ∀ {path found}, names path = .ok found → ∀ name ∈ found, Path.isName name = true
  /-- Slashes beside each other and dots in the middle lead nowhere else. -/
  unique : ∀ {p q a b}, Path.components p = Path.components q →
    file? p = some a → file? q = some b → a = b

namespace FileSystem

variable {ι : Type}

def isFile (system : FileSystem ι) (path : Text) : Bool := (system.file? path).isSome

/-- The entries of a directory, with its path before their names. -/
def entries (system : FileSystem ι) (path : Text) : Except Text (List Text) :=
  (system.names path).map fun names => names.map (Path.join path)

theorem file?_congr {system : FileSystem ι} {p q : Text} (hp : system.isFile p = true)
    (hq : system.isFile q = true) (h : Path.components p = Path.components q) :
    system.file? p = system.file? q := by
  obtain ⟨a, ha⟩ := Option.isSome_iff_exists.1 hp
  obtain ⟨b, hb⟩ := Option.isSome_iff_exists.1 hq
  rw [ha, hb, system.unique h ha hb]

/-- No link is followed: what paths from a current directory lead to is told by their places. -/
def IsPlain (system : FileSystem ι) (cwd : List Text) : Prop :=
  ∀ ⦃p q a⦄, system.file? p = some a → system.file? q = some a → Path.place cwd p = Path.place cwd q

end FileSystem
end CallDoc
