import CallDoc.Section.Item
import CallDoc.Text.Lines

/-!
Laying out the items of sections as field lists and admonitions. A description hangs below
the text of its marker; a list or a literal block starts on a line of its own, so that it
keeps its shape there.
-/
namespace CallDoc.Section

open Text

def isRomanDigit (capital : Bool) (c : Char) : Bool :=
  (if capital then "IVXLCDM".toList else "ivxlcdm".toList).contains c

/-- The token of an enumerated item: digits, `#`, Roman digits of one case, or a letter. -/
def isCounter (token : Text) : Bool :=
  token == ['#'] ||
    (!token.isEmpty && (token.all isWordDigit || token.all (isRomanDigit false) ||
      token.all (isRomanDigit true))) ||
    (token.length == 1 && token.all isLetter)

/-- A line that begins an item of a bullet list. -/
def isBulleted : Text → Bool
  | c :: t => (c == '*' || c == '+' || c == '-') && openStart t
  | [] => false

/-- A line that begins an item of a list counted as `(n)` or `n.`. -/
def isEnumerated (line : Text) : Bool :=
  let token? := match line with
    | '(' :: t => splitFirst? ')' t
    | _ => splitFirst? '.' line
  token?.any fun (token, after) => isCounter token && openStart after

/-- The lines begin a list, or a term with its definition below it. -/
def isList : List Text → Bool
  | [] => false
  | first :: more =>
    isBulleted first || isEnumerated first ||
      (!more.isEmpty && !endsWith "::".toList first &&
        indent first < (firstIndent? more).getD (indent first))

/-- The lines behind `lead`, the first right behind it and the others below its end. -/
def hangLines (lead : Text) : List Text → List Text
  | [] => [lead]
  | first :: more =>
    trimEnd (lead ++ first) ::
      more.map fun line => if line.isEmpty then [] else spaces lead.length ++ line

/-- A description made safe to hang behind a marker. -/
def hangable (description : List Text) : List Text :=
  if isList description then [] :: description
  else
    match description with
    | first :: more =>
      if endsWith "::".toList first then
        if indent first < (firstIndent? more).getD 0 then [] :: description
        else [] :: first :: pad 4 more
      else description
    | [] => []

/-- A description without empty lines at its ends, and nothing when it has only those. -/
def described (item : Item) : List Text := stripEmpty item.description

/-- A field with a name: `:role name:`. -/
def fieldMark (role name : Text) : Text := ':' :: role ++ ' ' :: name ++ [':']

/-- The fields of one parameter: its description, and its type if it has one. -/
def paramFields (role typeRole : Text) (item : Item) : List Text :=
  let field :=
    if (described item).isEmpty then [fieldMark role item.name]
    else hangLines (fieldMark role item.name ++ [' ']) (hangable (described item))
  let type := if item.type.isEmpty then [] else [fieldMark typeRole item.name ++ ' ' :: item.type]
  field ++ type

/-- The parameters of a section, with an empty line after them. -/
def paramList (role typeRole : Text) (items : List Item) : List Text :=
  items.flatMap (paramFields role typeRole) ++ [[]]

/-- A type in emphasis, unless it has markup of its own. -/
def emphasizedType (type : Text) : Text :=
  if type.contains '\x60' then type else '*' :: type ++ ['*']

/-- The name and the type of an item as prose. -/
def itemHead (name type : Text) : Text :=
  let strong := "**".toList ++ name ++ "**".toList
  if name.isEmpty then
    if type.isEmpty then [] else emphasizedType type
  else if type.isEmpty then strong
  else strong ++ " (".toList ++ emphasizedType type ++ [')']

/-- An item as prose: name, type and description. -/
def itemProse (name type : Text) (description : List Text) : List Text :=
  let head := itemHead name type
  match hangable (stripEmpty description) with
  | [] => [head]
  | first :: more =>
    let head := if head.isEmpty then [] else head ++ " -- ".toList
    if first.isEmpty then head :: first :: more else (head ++ first) :: more

/-- The lines with an empty one after them, unless they are none or end with one. -/
def closeField (lines : List Text) : List Text :=
  if lines.getLast?.any fun line => !line.isEmpty then lines ++ [[]] else lines

/-- Each text behind the first lead or, after the first, behind the other one. -/
def hangItems (lead others : Text) : List (List Text) → List Text
  | [] => []
  | first :: more => hangLines lead first ++ more.flatMap (hangLines others)

/-- A field that holds one item, or a bullet list of several. -/
def fieldOfItems (title : Text) (items : List Item) : List Text :=
  let mark := ':' :: title ++ [':']
  let prose := items.map fun item => itemProse item.name item.type item.description
  closeField <|
    if 1 < items.length then
      hangItems (mark ++ " * ".toList) (spaces mark.length ++ " * ".toList) prose
    else hangItems (mark ++ [' ']) (mark ++ [' ']) prose

/-- Returned values: one with its type in a field of its own, or a bullet list of several. -/
def returnFields : List Item → List Text
  | [] => []
  | [item] =>
    let field := hangLines ":returns: ".toList (itemProse item.name [] item.description)
    closeField <|
      if item.type.isEmpty then field else field ++ [":rtype: ".toList ++ item.type, []]
  | items =>
    closeField <| hangItems ":returns: * ".toList "          * ".toList
      (items.map fun item => itemProse item.name item.type item.description)

/-- Attributes: a field for the description and one for the type. -/
def attributeFields (items : List Item) : List Text :=
  items.flatMap (fun item =>
    hangLines (fieldMark "ivar".toList item.name ++ [' ']) item.description ++
      if item.type.isEmpty then []
      else [fieldMark "vartype".toList item.name ++ ' ' :: item.type]) ++ [[]]

/-- Methods, each a directive with its description as content. -/
def methodDirectives (items : List Item) : List Text :=
  items.flatMap fun item =>
    (".. method:: ".toList ++ item.name) ::
      (if item.description.isEmpty then [] else [] :: pad 3 item.description) ++ [[]]

/-- The name of an error: the target of a cross reference, or what is written. -/
def errorName (type : Text) : Text :=
  match objectName? type with
  | some (⟨some _, name⟩, _) => name
  | _ => type

/-- One error; its description stays a single entry, with newlines inside. -/
def errorField (item : Item) : Text :=
  let name := errorName item.type
  let name := if name.isEmpty then [] else ' ' :: name
  let description :=
    if (described item).isEmpty then [] else ' ' :: joinWith "\n    ".toList (described item)
  ":raises".toList ++ name ++ ':' :: description

def errorFields (items : List Item) : List Text :=
  if items.isEmpty then [] else items.map errorField ++ [[]]

/-- An admonition, on one line if it has no more. -/
def admonition (name : Text) (lines : List Text) : List Text :=
  let mark := ".. ".toList ++ name ++ "::".toList
  match stripEmpty lines with
  | [] => [mark, []]
  | [line] => [mark ++ ' ' :: trim line, []]
  | lines => [mark, []] ++ pad 3 (dedent lines) ++ [[]]

/-- A section of prose under its label. -/
def rubric (label : Text) (lines : List Text) : List Text :=
  let lines := dedent (stripEmpty lines)
  [".. rubric:: ".toList ++ label, []] ++ if lines.isEmpty then [] else lines ++ [[]]

end CallDoc.Section
