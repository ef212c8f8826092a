import CallDoc.Section.Layout

/-!
The entries of a See Also section: names of objects, alone, with a description behind a
colon, or several with commas between them. They become cross references. A section with
an entry that is no name is left as it is.
-/
namespace CallDoc.Section

open Text

/-- An object with the lines that describe it. -/
structure Related where
  object : ObjectName
  description : List Text

/-- The entries read so far, and the one whose description may still go on. Both lists have
what was read last in front. -/
structure RelatedScan where
  entries : List Related
  current : Option Text
  description : List Text

namespace RelatedScan

def empty : RelatedScan := ⟨[], none, []⟩

/-- The entry for a text that must begin with a name. -/
def begin? (text : Text) (description : List Text) : Option Related :=
  (objectName? text).map fun (object, _) => ⟨object, description⟩

/-- The current entry is complete. -/
def finish? (scan : RelatedScan) : Option RelatedScan :=
  match scan.current with
  | none => some scan
  | some text =>
    (begin? text scan.description.reverse).map fun e => ⟨e :: scan.entries, none, []⟩

/-- What stands before the rest of a line that begins with a name and a colon, and what
stands behind that colon. -/
def named? (line : Text) : Option (Text × Text) :=
  (objectName? line).bind fun (_, rest) =>
    match trim rest with
    | ':' :: _ =>
      (splitFirst? ':' rest).map fun (_, description) =>
        (line.take (line.length - rest.length), trim description)
    | _ => none

/-- The scan with one more line. -/
def step? (scan : RelatedScan) (line : Text) : Option RelatedScan :=
  if blank line then some scan
  else
    match named? line with
    | some (text, description) =>
      scan.finish?.map fun scan =>
        { scan with
          current := some text
          description := if description.isEmpty then [] else [description] }
    | none =>
      if line.head? != some ' ' then
        scan.finish?.bind fun scan =>
          if line.contains ',' then
            (((splitOn ',' line).filter fun t => !blank t).mapM (begin? · [])).map fun more =>
              { scan with entries := more.reverse ++ scan.entries }
          else some { scan with current := some line }
      else if scan.current.isSome then
        some { scan with description := trim line :: scan.description }
      else some scan

end RelatedScan

/-- The entries of a section, if all of them are names. -/
def related? (lines : List Text) : Option (List Related) :=
  ((lines.foldlM RelatedScan.step? .empty).bind RelatedScan.finish?).map fun scan =>
    scan.entries.reverse

/-- The cross reference to an object. -/
def ObjectName.link (object : ObjectName) : Text :=
  ':' :: object.role.getD "obj".toList ++ ":\x60".toList ++ object.name ++ ['\x60']

/-- The line below the link to an entry that is described. -/
def Related.below (entry : Related) : List Text :=
  if entry.description.isEmpty then [] else [spaces 4 ++ joinWith [' '] entry.description]

/-- The links of consecutive entries without a description share a line. -/
def relatedLines (entries : List Related) : List Text :=
  (entries.splitBy fun a b => a.description.isEmpty && b.description.isEmpty).flatMap fun group =>
    [] :: joinWith ", ".toList (group.map fun e => e.object.link) :: group.flatMap Related.below

/-- The section as an admonition with links. -/
def relatedAdmonition (entries : List Related) : List Text :=
  if entries.isEmpty then []
  else admonition "seealso".toList (relatedLines entries)

end CallDoc.Section
