import CallDoc.Doc.Basic
import CallDoc.Doc.Prose
import CallDoc.Json
import CallDoc.Text.Lines

/-!
Reports on documentation, as text for a terminal or as one line of JSON.
-/
namespace CallDoc

open Text

inductive ReportFormat
  /-- Text, with display marks unless it is plain. -/
  | text (plain : Bool)
  | json
  deriving DecidableEq, Repr

namespace ReportFormat

/-- The format of the given name. -/
def ofName? (name : Text) (plain : Bool) : Option ReportFormat :=
  if name = "text".toList ∨ name = "txt".toList then some (text plain)
  else if name = "json".toList then some json
  else none

/-- What is said of a format that does not exist. -/
def unknown (name : Text) : Text :=
  "unknown format: ".toList ++ name ++ ". Use text or json".toList

end ReportFormat

namespace Doc

/-- The text without display marks, which are removed one kind after the other. -/
def withoutMarks (t : Text) : Text :=
  [Display.italic, Display.bold, Display.underline, Display.reset].foldl
    (fun t mark => erase mark t) t

/-- One parameter: its name and type, and its text indented below. -/
def paramLines (name : Text) (doc : ParamDoc) : List Text :=
  let type := doc.type.elim [] fun type => " (".toList ++ type ++ [')']
  (spaces 2 ++ name ++ type) ::
    (lines (doc.text.getD [])).map fun line => if line.isEmpty then [] else spaces 6 ++ line

/-- The parts of a report that have something to say. -/
def reportParts (doc : Doc) : List Text :=
  let prose := if doc.description.isEmpty then [] else [doc.description]
  let params :=
    if doc.params.isEmpty then []
    else [unlines ("Parameters:".toList ::
      doc.params.flatMap fun (name, param) => paramLines name param)]
  let raises :=
    if doc.raises.isEmpty then []
    else [unlines ("Raises:".toList :: doc.raises.map (spaces 2 ++ ·))]
  prose ++ params ++ raises

/-- The report as text. Documentation that says nothing has an empty one. -/
def textReport (plain : Bool) (doc : Doc) : Text :=
  let whole := joinWith ['\n', '\n'] doc.reportParts
  let shown := if plain then withoutMarks whole else whole
  if shown.isEmpty then [] else shown ++ ['\n']

def jsonOption (t? : Option Text) : Text := t?.elim Json.null Json.string

def jsonParam (doc : ParamDoc) : Text :=
  Json.object [("text".toList, jsonOption doc.text), ("type_token".toList, jsonOption doc.type)]

/-- The report as one line of JSON, with the name of the source. -/
def jsonReport (source : Text) (doc : Doc) : Text :=
  Json.object [("source".toList, Json.string source),
    ("summary".toList, Json.string doc.summary),
    ("description".toList, Json.string doc.description),
    ("params".toList, Json.object (doc.params.map fun (name, param) => (name, jsonParam param))),
    ("raises".toList, Json.array (doc.raises.map Json.string))] ++ ['\n']

/-- The report in the given format. -/
def report (format : ReportFormat) (source : Text) (doc : Doc) : Text :=
  match format with
  | .text plain => doc.textReport plain
  | .json => doc.jsonReport source

end Doc
end CallDoc
