import CallDoc.Text.Basic

/-!
Lists of lines: cutting a text into lines, margins, and padding. A margin counts
characters and is taken from the non-empty lines alone, since an empty line has no
place of its own in a layout.
-/
namespace CallDoc.Text

/-- The line without the carriage return at its end, if there is one. -/
def dropReturn (t : Text) : Text := (before? ['\r'] t).getD t

/-- The lines around newlines, of which the last has none behind it and is no line when it
is empty. -/
def closeLines : List Text → List Text
  | [] => []
  | [last] => if last.isEmpty then [] else [last]
  | line :: rest => dropReturn line :: closeLines rest

/-- The lines of a text. Each newline ends a line together with a carriage return
before it; text after the last newline is a line of its own. -/
def lines (t : Text) : List Text := closeLines (splitOn '\n' t)

/-- The lines without blanks at their ends. -/
def trimmedLines (t : Text) : List Text := (lines t).map trimEnd

/-- As `expandTabs`, for a text that starts in the given column. -/
def expandFrom (column : Nat) : Text → Text
  | [] => []
  | c :: t =>
    if c = '\t' then spaces (8 - column % 8) ++ expandFrom (column + (8 - column % 8)) t
    else c :: expandFrom (column + 1) t

/-- A tab fills the line up to the next multiple of eight columns. -/
def expandTabs (t : Text) : Text := expandFrom 0 t

/-- The indent of the first non-empty line, if there is one. -/
def firstIndent? (lines : List Text) : Option Nat :=
  (lines.find? fun l => !l.isEmpty).map indent

/-- The smallest indent of the non-empty lines, if there is one. -/
def margin? (lines : List Text) : Option Nat :=
  ((lines.filter fun l => !l.isEmpty).map indent).min?

/-- The lines with their margin removed. -/
def dedent (lines : List Text) : List Text :=
  let margin := (margin? lines).getD 0
  lines.map fun l => l.drop margin

/-- Every line moved to the right, empty ones too. -/
def pad (n : Nat) (lines : List Text) : List Text := lines.map fun l => spaces n ++ l

/-- The lines without the empty ones at both ends. -/
def stripEmpty (lines : List Text) : List Text :=
  (dropEndWhile List.isEmpty lines).dropWhile List.isEmpty

/-- The line has more than `n` characters and the first `n` are blank. -/
def isIndented (n : Nat) (line : Text) : Bool :=
  (line.take n).all isBlank && n < line.length

end CallDoc.Text
