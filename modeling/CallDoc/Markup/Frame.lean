import CallDoc.Markup.Block
import CallDoc.Markup.Line
import CallDoc.Text.LetterCase
import CallDoc.Text.WordCharacter

/-!
Frames: the blocks of a list of lines before their contents are read. Where a block ends
and which lines are its body depends on the lines alone, so cutting a document into frames
cannot fail; the contents of the frames are read afterwards.
-/
namespace CallDoc

open Text

/-- A block whose text and bodies have not been read yet. -/
inductive Frame
  | paragraph (line : Nat) (text : Text)
  | bullets (line : Nat) (bullet : Char) (items : List (List Line))
  | enumerated (line : Nat) (sequence : Sequence) (bracket : Bracket) (start : Nat)
      (items : List (List Line))
  | literal (line : Nat) (text : Text)
  | doctest (line : Nat) (text : Text)
  | quote (line : Nat) (body : List Line)
  | field (line : Nat) (role : FieldRole) (name : Text) (type : Option Text) (body : List Line)
  | rubric (line : Nat) (title : Text)
  | admonition (line : Nat) (label : Text) (body : List Line)
  | comment (line : Nat) (text : Text)
  deriving Repr

namespace Frame

/-- The bodies in a frame, each a list of lines of its own. -/
def bodies : Frame → List (List Line)
  | bullets _ _ items | enumerated _ _ _ _ items => items
  | quote _ body | field _ _ _ _ body | admonition _ _ body => [body]
  | _ => []

/-- The text before the colon that closes a field's header, and the text after it. That
colon is not escaped, and stands at the end of the line or before a blank. -/
def splitHeader? (previous : Char) : Text → Option (Text × Text)
  | [] => none
  | c :: t =>
    if c = ':' && previous != '\x5c' && openStart t then some ([], t)
    else (splitHeader? c t).map fun (header, rest) => (c :: header, rest)

/-- The header of a field and the text behind it, as in `:param x: The x.` -/
def fieldHeader? : Text → Option (Text × Text)
  | ':' :: inner =>
    if startsBlank inner || inner.head? == some ':' then none
    else
      match splitHeader? ':' inner with
      | some (header, rest) => if endsBlank header then none else some (header, trimStart rest)
      | none => none
  | _ => none

/-- A name without its escapes and the stars before it. -/
def plainName (name : Text) : Text :=
  (name.filter fun c => c != '\x5c').dropWhile fun c => c == '*'

/-- The role, the type and the name in a field's header. Only the text of a parameter has a
place for a type. -/
def readHeader? (header : Text) : Option (FieldRole × Option Text × Text) :=
  match words header with
  | [role, name] => some (FieldRole.ofWord role, none, plainName name)
  | [role, type, name] =>
    if FieldRole.ofWord role = .param then some (.param, some type, plainName name) else none
  | _ => none

/-- The bullet at the start of an item. -/
def bullet? : Text → Option Char
  | c :: t => if (c = '*' ∨ c = '+' ∨ c = '-') ∧ openStart t then some c else none
  | [] => none

/-- The number of characters before the text of a bullet item. -/
def bulletOffset (text : Text) : Nat := 1 + Text.indent text.tail

/-- A directive's name up to the two colons that end it, and its argument. -/
def splitDirective? : Text → Option (Text × Text)
  | [] => none
  | c :: t =>
    match (after? "::".toList (c :: t)).filter openStart with
    | some argument => some ([], trim argument)
    | none =>
      if isWordCharacter c || ":.+-".toList.contains c then
        (splitDirective? t).map fun (name, argument) => (c :: name, argument)
      else none

/-- The name of a directive and its argument, as in `note:: Mind the gap.` -/
def directive? : Text → Option (Text × Text)
  | c :: t =>
    if isLetterOrDigit c then
      (splitDirective? t).map fun (name, argument) => (c :: name, argument)
    else none
  | [] => none

/-- The directives that are admonitions by their own name. -/
def admonitions : List Text :=
  ["attention".toList, "caution".toList, "danger".toList, "error".toList, "hint".toList,
    "important".toList, "note".toList, "tip".toList, "todo".toList, "warning".toList,
    "seealso".toList]

/-- The code of a code directive: its content without the options and the blank lines that
come first. -/
def code (content : List Line) : Text :=
  let lines := (Line.dedent content).dropWhile fun line => (fieldHeader? line.text).isSome
  unlines ((lines.dropWhile Line.isBlank).map Line.text)

/-- The frame of a directive with the given content below it. -/
def ofDirective (line : Line) (name argument : Text) (content : List Line) : Frame :=
  let name := lowercase name
  if name = "rubric".toList then .rubric line.number argument
  else if ["code".toList, "code-block".toList, "sourcecode".toList].contains name then
    .literal line.number (code content)
  else if name = "admonition".toList then
    .admonition line.number argument (Line.dedent content)
  else if admonitions.contains name then
    .admonition line.number (if name = "seealso".toList then "see also".toList else name)
      (Line.bodyBelow ⟨line.number, argument⟩ content)
  else .comment line.number line.text

def isExplicit (text : Text) : Bool := text == "..".toList || startsWith ".. ".toList text

/-- A directive or a comment. -/
def ofExplicit (line : Line) (content : List Line) : Frame :=
  match directive? (trimStart (line.text.drop 2)) with
  | some (name, argument) => ofDirective line name argument content
  | none => .comment line.number (unlines ((line :: content).map Line.text))

/-- The items of a list from the one on `line` on, and the lines after the list. What
stands below an item and is indented belongs to it; `next? n` gives the place of the text
in a line that begins item number `n`. -/
def items (next? : Nat → Text → Option Nat) (count offset : Nat) (line : Line)
    (below : List Line) : List (List Line) × List Line :=
  let item := Line.bodyBelow { line with text := line.text.drop offset } (Line.hanging below).1
  match _h : (Line.hanging below).2.dropWhile Line.isBlank with
  | [] => ([item], (Line.hanging below).2)
  | next :: more =>
    match next? count next.text with
    | none => ([item], (Line.hanging below).2)
    | some offset =>
      let others := items next? (count + 1) offset next more
      (item :: others.1, others.2)
termination_by below.length
decreasing_by
  have hdrop := (List.dropWhile_sublist (l := (Line.hanging below).2) Line.isBlank).length_le
  have hafter := (Line.hanging_snd_sublist below).length_le
  rw [_h, List.length_cons] at hdrop
  omega

theorem items_eq (next? : Nat → Text → Option Nat) (count offset : Nat) (line : Line)
    (below : List Line) :
    items next? count offset line below =
      let item := Line.bodyBelow { line with text := line.text.drop offset } (Line.hanging below).1
      match (Line.hanging below).2.dropWhile Line.isBlank with
      | [] => ([item], (Line.hanging below).2)
      | next :: more =>
        match next? count next.text with
        | none => ([item], (Line.hanging below).2)
        | some offset =>
          (item :: (items next? (count + 1) offset next more).1,
            (items next? (count + 1) offset next more).2) := by
  rw [items]
  dsimp only
  split <;> rename_i h <;> simp only [h]

/-- An enumerator starts a list unless a line that does not continue it follows at once. -/
def startsList (marker : Marker) (sequence : Sequence) (start : Nat) (below : List Line) :
    Bool :=
  match below with
  | [] => true
  | next :: _ =>
    next.isBlank || next.isIndented ||
      (Marker.ofLine? next.text).any fun m => m.continues marker sequence (numberAfter start 1)

/-- The marker of a list that starts on a line, with the sequence and the first ordinal. -/
def enumerator? (text : Text) (below : List Line) : Option (Marker × Sequence × Nat) :=
  match Marker.ofLine? text with
  | none => none
  | some marker =>
    match marker.firstItem? with
    | none => none
    | some (sequence, start) =>
      if startsList marker sequence start below then some (marker, sequence, start) else none

/-- The place of the text in a line that continues a bullet list. -/
def nextBullet? (bullet : Char) (_ : Nat) (text : Text) : Option Nat :=
  if bullet? text = some bullet then some (bulletOffset text) else none

/-- The place of the text in a line that continues an enumerated list. -/
def nextNumber? (first : Marker) (sequence : Sequence) (start count : Nat) (text : Text) :
    Option Nat :=
  ((Marker.ofLine? text).filter fun m =>
    m.continues first sequence (numberAfter start count)).map Marker.textOffset

/-- A paragraph's text and whether a literal block follows it. Of the two colons that
announce the block one stays, unless a blank stands before them. -/
def announcesLiteral (text : Text) : Text × Bool :=
  match before? "::".toList text with
  | none => (text, false)
  | some lead =>
    if lead.isEmpty then ([], true)
    else if endsBlank lead then (trimEnd lead, true)
    else (lead ++ [':'], true)

/-- The frames of a paragraph that starts on `line`. -/
def ofParagraph (line : Line) (below : List Line) : List Frame × List Line :=
  let lines := line :: below.takeWhile fun line => !line.isBlank
  let after := below.dropWhile fun line => !line.isBlank
  if startsWith ">>>".toList line.text then
    ([.doctest line.number (unlines (lines.map Line.text))], after)
  else
    let (text, announced) := announcesLiteral (unlines (lines.map fun line => trim line.text))
    let prose := if text.isEmpty then [] else [.paragraph line.number text]
    if announced then
      match after.dropWhile Line.isBlank with
      | next :: more =>
        if next.isIndented then
          let (body, rest) := Line.hanging more
          let verbatim := (Line.dedent (next :: body)).map Line.text
          (prose ++ [.literal next.number (unlines verbatim)], rest)
        else (prose, after)
      | [] => (prose, after)
    else (prose, after)

/-- The frames of the block that starts on `line`, and the lines after it. -/
def first (line : Line) (below : List Line) : List Frame × List Line :=
  let (body, after) := Line.hanging below
  if line.isIndented then ([.quote line.number (Line.dedent (line :: body))], after)
  else if isExplicit line.text then ([ofExplicit line body], after)
  else
    match fieldHeader? line.text with
    | some (header, rest) =>
      match readHeader? header with
      | some (role, type, name) =>
        ([.field line.number role name type (Line.bodyBelow ⟨line.number, rest⟩ body)], after)
      | none => ([], after)
    | none =>
      match bullet? line.text with
      | some bullet =>
        let (items, rest) := items (nextBullet? bullet) 1 (bulletOffset line.text) line below
        ([.bullets line.number bullet items], rest)
      | none =>
        match enumerator? line.text below with
        | some (marker, sequence, start) =>
          let (items, rest) :=
            items (nextNumber? marker sequence start) 1 marker.textOffset line below
          ([.enumerated line.number sequence marker.bracket start items], rest)
        | none => ofParagraph line below

theorem items_sublist (next? : Nat → Text → Option Nat) (count offset : Nat) (line : Line)
    (below : List Line) : (items next? count offset line below).2.Sublist below := by
  fun_induction items next? count offset line below with
  | case1 => exact Line.hanging_snd_sublist _
  | case2 => exact Line.hanging_snd_sublist _
  | case3 count offset line below item next more hnext offset' hplace others ih =>
    have hmore : more.Sublist (next :: more) := List.sublist_cons_self ..
    have hdrop : (next :: more).Sublist (Line.hanging below).2 :=
      hnext ▸ List.dropWhile_sublist Line.isBlank
    exact ((ih.trans hmore).trans hdrop).trans (Line.hanging_snd_sublist below)

theorem ofParagraph_sublist (line : Line) (below : List Line) :
    (ofParagraph line below).2.Sublist below := by
  have hafter := List.dropWhile_sublist (l := below) fun line => !line.isBlank
  simp only [ofParagraph]
  split
  · exact hafter
  · split
    · split
      · rename_i next more hnext
        split
        · have hmore : more.Sublist (next :: more) := List.sublist_cons_self ..
          exact ((Line.hanging_snd_sublist more).trans
            (hmore.trans (hnext ▸ List.dropWhile_sublist Line.isBlank))).trans hafter
        · exact hafter
      · exact hafter
    · exact hafter

/-- The lines after a block are among those below its first line. -/
theorem first_sublist (line : Line) (below : List Line) :
    (first line below).2.Sublist below := by
  have hafter := Line.hanging_snd_sublist below
  simp only [first]
  split
  · exact hafter
  · split
    · exact hafter
    · split
      · split <;> exact hafter
      · split
        · exact items_sublist ..
        · split
          · exact items_sublist ..
          · exact ofParagraph_sublist line below

/-- The frames of a list of lines. -/
def cut : List Line → List Frame
  | [] => []
  | line :: below =>
    if line.isBlank then cut below
    else (first line below).1 ++ cut (first line below).2
termination_by lines => lines.length
decreasing_by
  · simp
  · exact Nat.lt_succ_of_le (first_sublist line below).length_le

end Frame
end CallDoc
