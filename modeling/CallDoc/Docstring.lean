import CallDoc.Doc.Declare
import CallDoc.Margin
import CallDoc.Markup.Parse
import CallDoc.Section.Canonical

/-!
Reading documentation from the text that stands in a source file: its margin is taken
away, its sections become field lists, the result is read as markup, and the fields are
collected from the block tree.
-/
namespace CallDoc

/-- How documentation is read. -/
structure DocReader where
  conventions : Conventions
  /-- The roles that stand for their plain content. -/
  roles : List Text
  deriving DecidableEq, Repr

namespace DocReader

def standard : DocReader := ⟨⟨true, true⟩, Role.usual⟩

/-- Reads sections as prose. -/
def raw : DocReader := ⟨⟨false, false⟩, Role.usual⟩

/-- The text with its sections written as field lists. -/
def canonical (reader : DocReader) (t : Text) : Text :=
  reader.conventions.normalize (cleanMargin t)

/-- The documentation in a text. -/
def readText (reader : DocReader) (t : Text) : Except Error Doc := do
  Doc.ofBlocks (← Block.parse reader.roles (reader.canonical t))

/-- The documentation of a callable, which may have none. -/
def read (reader : DocReader) (t? : Option Text) : Except Error Doc :=
  match t? with
  | none => .ok .empty
  | some t => reader.readText t

end DocReader
end CallDoc
