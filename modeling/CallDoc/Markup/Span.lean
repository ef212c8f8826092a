import CallDoc.Text.Basic

/-!
Spans of inline markup, and the roles that interpreted text can name.
-/
namespace CallDoc

inductive Span
  | text (content : Text)
  | emphasis (content : Text)
  | strong (content : Text)
  | reference (content : Text)
  /-- Text kept as it stands, between two backquotes on each side. -/
  | literal (content : Text)
  | hyperlink (content uri : Text)
  deriving DecidableEq, Repr

namespace Span

/-- The spans with text in front of them. Neighbouring texts are one span, and no span has
an empty text. -/
def consText (t : Text) : List Span → List Span
  | .text u :: spans => .text (t ++ u) :: spans
  | spans => if t.isEmpty then spans else .text t :: spans

def cons : Span → List Span → List Span
  | .text t, spans => consText t spans
  | span, spans => span :: spans

end Span

namespace Role

/-- What a standard role makes of its content. -/
def standard? (role : Text) : Option (Text → Span) :=
  if role = "emphasis".toList then some .emphasis
  else if role = "strong".toList then some .strong
  else if ["literal".toList, "code".toList].contains role then some .literal
  else if ["title-reference".toList, "title".toList, "t".toList].contains role then
    some .reference
  else if ["math".toList, "sub".toList, "subscript".toList, "sup".toList,
      "superscript".toList, "abbreviation".toList, "ab".toList, "acronym".toList,
      "ac".toList].contains role then some .text
  else none

def listed : List String :=
  ["abbr", "command", "dfn", "file", "guilabel", "kbd", "mailheader", "makevar", "manpage",
    "menuselection", "mimetype", "newsgroup", "program", "regexp", "samp", "pep", "rfc",
    "py:mod", "py:func", "py:data", "py:const", "py:class", "py:meth", "py:attr", "py:exc",
    "py:obj"]

/-- The roles that stand for their plain content unless configured otherwise. A role of a
domain can be written without the domain's name. -/
def usual : List Text :=
  listed.flatMap fun role =>
    role.toList :: ((Text.splitFirst? ':' role.toList).map Prod.snd).toList

end Role
end CallDoc
