import CallDoc.Text.LetterCase

/-!
The headings of sections. A heading is recognized in any case, and decides what becomes of
the section below it.
-/
namespace CallDoc

/-- The two conventions for sections: a heading with a colon above an indented body, and a
heading that is underlined. -/
inductive Convention
  | google
  | numpy
  deriving DecidableEq, Repr

inductive Heading
  | parameters
  | keywordArguments
  | otherParameters
  | attributes
  | methods
  | raises
  | returns
  | seeAlso
  | warns
  | yields
  /-- A section of prose under a label. -/
  | rubric (label : Text)
  | admonition (name : Text)
  deriving DecidableEq, Repr

namespace Heading

/-- The headings by their names in lower case. -/
def named : List (Text × Heading) :=
  [("args".toList, parameters), ("arguments".toList, parameters),
    ("parameters".toList, parameters), ("keyword args".toList, keywordArguments),
    ("keyword arguments".toList, keywordArguments),
    ("other parameters".toList, otherParameters), ("attributes".toList, attributes),
    ("example".toList, rubric "Example".toList), ("examples".toList, rubric "Examples".toList),
    ("methods".toList, methods), ("notes".toList, rubric "Notes".toList),
    ("raises".toList, raises), ("references".toList, rubric "References".toList),
    ("return".toList, returns), ("returns".toList, returns), ("see also".toList, seeAlso),
    ("warns".toList, warns), ("yield".toList, yields), ("yields".toList, yields),
    ("attention".toList, admonition "attention".toList),
    ("caution".toList, admonition "caution".toList),
    ("danger".toList, admonition "danger".toList), ("error".toList, admonition "error".toList),
    ("hint".toList, admonition "hint".toList),
    ("important".toList, admonition "important".toList),
    ("note".toList, admonition "note".toList), ("tip".toList, admonition "tip".toList),
    ("todo".toList, admonition "todo".toList),
    ("warning".toList, admonition "warning".toList),
    ("warnings".toList, admonition "warning".toList)]

/-- The heading of a title in any case. -/
def ofTitle? (title : Text) : Option Heading := named.lookup (Text.lowercase title)

/-- The heading in a line that ends in a colon. -/
def ofColonLine? (line : Text) : Option Heading := (Text.before? [':'] line).bind ofTitle?

end Heading
end CallDoc
