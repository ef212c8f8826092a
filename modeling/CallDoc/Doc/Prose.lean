import CallDoc.Markup.Block
import CallDoc.Text.Alphabetic
import CallDoc.Text.LetterCase

/-!
Prose rebuilt from a block tree. Every piece of prose is led in by the markers and the
indents of the lists, quotes and admonitions around it. A marker is shown once, before the
first piece of its item; after that its width is filled with spaces, so that the lines of
an item stay below each other. The line numbers decide where an empty line goes between
two pieces.
-/
namespace CallDoc

open Text

namespace Display

/-- What a terminal takes as the start of emphasized text, and so on. -/
def italic : Text := "\x1b[3m".toList

def bold : Text := "\x1b[1m".toList

def underline : Text := "\x1b[4m".toList

def reset : Text := "\x1b[0m".toList

end Display

/-- The span as shown: with display marks around it, unless it is plain. -/
def Span.shown : Span → Text
  | text content | literal content => content
  | emphasis content => Display.italic ++ content ++ Display.reset
  | strong content => Display.bold ++ content ++ Display.reset
  | reference content => Display.underline ++ content ++ Display.reset
  | hyperlink content uri => content ++ " (".toList ++ uri ++ [')']

def Span.shownAll (spans : List Span) : Text := spans.flatMap Span.shown

/-- A piece of the description, with the number of its line. -/
inductive Chunk
  | prose (line : Nat) (text : Text)
  /-- Something left out, for which an empty line is kept. -/
  | skipped (line : Nat)
  /-- A field, which shows nothing but bounds the gap before it. -/
  | field (line : Nat)
  deriving DecidableEq, Repr

namespace Chunk

def line : Chunk → Nat
  | prose line _ | skipped line | field line => line

def prose? : Chunk → Option Text
  | prose _ text => some text
  | _ => none

/-- The newlines between a piece of prose and the chunk after it: one, or two where the
document has a blank line. -/
def gap (line : Nat) (text : Text) (next : Chunk) : Text :=
  if line + text.count '\n' + 1 < next.line then ['\n', '\n'] else ['\n']

/-- The chunks as one text. -/
def join : List Chunk → Text
  | [] => []
  | prose line text :: more =>
    text ++ (more.head?.elim [] (gap line text)) ++ join more
  | skipped _ :: more => '\n' :: join more
  | field _ :: more => join more

/-- The description without newlines at its ends. -/
def description (chunks : List Chunk) : Text := stripWhere (· == '\n') (join chunks)

def summary (chunks : List Chunk) : Text := (chunks.findSome? prose?).getD []

end Chunk

/-- Every run of letters starts with a capital and goes on without one. -/
def isTitleCase (afterLetter : Bool) : Text → Bool
  | [] => true
  | c :: t =>
    if isAlphabetic c then
      !(if afterLetter then isUppercase c else isLowercase c) && isTitleCase true t
    else isTitleCase false t

/-- The indent of quotes, literal text and the bodies of admonitions. -/
def quoteIndent : Text := spaces 4

/-- What stands before a piece of prose: the markers and indents of all that it lies in, the
innermost first. -/
abbrev Lead := List Text

namespace Lead

def text (lead : Lead) : Text := lead.reverse.flatten

/-- Spaces as wide as the lead. -/
def indent (lead : Lead) : Text := lead.flatMap fun mark => spaces mark.length

/-- The lead after a piece of prose has shown its markers. -/
def spent (lead : Lead) : Lead := lead.map fun mark => spaces mark.length

end Lead

/-- A piece of prose behind `lead`, which is spent by it. -/
def showProse (lead : Lead) (line : Nat) (text : Text) : List Chunk × Lead :=
  ([.prose line (lead.text ++ hang lead.indent text)], lead.spent)

/-- A title as it heads a piece of prose: in lower case if it is in title case. -/
def titleShown (title : Text) : Text :=
  (if isTitleCase false title then lowercase title else title) ++ [':']

namespace Block

mutual

/-- The chunks of a block behind `lead`, and what leads in the prose after it. -/
def chunks (lead : Lead) : Block → List Chunk × Lead
  | paragraph line spans => showProse lead line (Span.shownAll spans)
  | doctest line text => showProse lead line text
  | rubric line spans => showProse lead line (titleShown (Span.shownAll spans))
  | literal line text => ([.prose line (quoteIndent ++ hang quoteIndent text)], lead)
  | quote _ children =>
    let inner := chunksOfAll (quoteIndent :: lead) children
    (inner.1, inner.2.tail)
  | admonition line label children =>
    let head := showProse lead line (label ++ [':'])
    let inner := chunksOfAll (quoteIndent :: head.2) children
    (head.1 ++ inner.1, inner.2.tail)
  | bullets _ bullet items =>
    chunksOfItems lead (List.replicate items.length [bullet, ' ']) items
  | enumerated _ sequence bracket start items =>
    chunksOfItems lead (sequence.labels bracket start items.length) items
  | field line _ _ _ _ => ([.field line], lead)
  | comment line _ => ([.skipped line], lead)

def chunksOfAll (lead : Lead) : List Block → List Chunk × Lead
  | [] => ([], lead)
  | block :: more =>
    let head := chunks lead block
    let tail := chunksOfAll head.2 more
    (head.1 ++ tail.1, tail.2)

/-- The chunks of list items, each behind its own label; an item without one is not shown. -/
def chunksOfItems (lead : Lead) (labels : List Text) :
    List (List Block) → List Chunk × Lead
  | [] => ([], lead)
  | item :: more =>
    match labels with
    | [] => ([], lead)
    | label :: labels =>
      let inner := chunksOfAll (label :: lead) item
      let tail := chunksOfItems inner.2.tail labels more
      (inner.1 ++ tail.1, tail.2)

end

/-- The prose of a list of blocks. -/
def describe (blocks : List Block) : Text := Chunk.description (chunksOfAll [] blocks).1

/-- The first piece of that prose. -/
def summarize (blocks : List Block) : Text := Chunk.summary (chunksOfAll [] blocks).1

end Block
end CallDoc
