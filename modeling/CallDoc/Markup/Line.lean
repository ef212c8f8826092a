import CallDoc.Text.Lines

/-!
Numbered lines. The parts of a document are cut out as lists of lines that keep their
numbers in the whole, while their indentation is taken away.
-/
namespace CallDoc

structure Line where
  number : Nat
  /-- The characters of the line, without blanks at its end. -/
  text : Text
  deriving DecidableEq, Repr

namespace Line

def isBlank (line : Line) : Bool := Text.blank line.text

def isIndented (line : Line) : Bool := 0 < Text.indent line.text

/-- The lines of a text, counted from zero. -/
def ofText (t : Text) : List Line :=
  (Text.trimmedLines t).mapIdx fun number text => ⟨number, text⟩

/-- The lines that belong to the one before them because they are indented, with the blank
lines among them but not those behind them, and the lines that follow. -/
def hanging (lines : List Line) : List Line × List Line :=
  let body := Text.dropEndWhile isBlank
    (lines.takeWhile fun line => line.isBlank || line.isIndented)
  (body, lines.drop body.length)

/-- The common indent of the lines that are not blank. -/
def margin (lines : List Line) : Nat :=
  (((lines.filter fun line => !line.isBlank).map fun line => Text.indent line.text).min?).getD 0

/-- The lines without their common indent. -/
def dedent (lines : List Line) : List Line :=
  let margin := margin lines
  lines.map fun line => { line with text := Text.trimEnd (line.text.drop margin) }

/-- A body of which the first line stands behind a marker, and the others below it. -/
def bodyBelow (first : Line) (below : List Line) : List Line :=
  (if first.isBlank then [] else [first]) ++ dedent below

/-- The size of a list of lines in which every line counts for `each` besides its characters. -/
def size (each : Nat) (lines : List Line) : Nat :=
  lines.foldr (fun line total => line.text.length + each + total) 0

/-- The size in which an empty line counts too. -/
def weight (lines : List Line) : Nat := size 1 lines

theorem hanging_fst_sublist (lines : List Line) : (hanging lines).1.Sublist lines :=
  (Text.dropEndWhile_sublist _ _).trans (List.takeWhile_sublist _)

theorem hanging_snd_sublist (lines : List Line) : (hanging lines).2.Sublist lines :=
  List.drop_sublist ..

end Line
end CallDoc
