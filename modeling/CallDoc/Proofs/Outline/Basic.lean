import CallDoc.Proofs.Markup.Document
import CallDoc.Proofs.Section.Items

/-!
What documentation says, apart from how it is put down: a summary, and groups of parameters
and errors that are described in plain prose. It can be put down as a field list, in sections
with a colon behind their headings, and in sections with their headings underlined.
-/
namespace CallDoc

open Text Section

/-- What identifiers, and identifiers with dots between them, are made of. -/
def Text.isName (t : Text) : Bool :=
  t.head?.any (fun c => isLetter c || c == '_') &&
    t.all fun c => isLetterOrDigit c || c == '_' || c == '.'

namespace Outline

/-- A parameter or an error: its name, which can have stars before it, a type, and lines of
prose of which all but the first are written `hang` columns further to the right. -/
structure Entry where
  stars : Nat
  name : Text
  type? : Option Text
  first : Text
  more : List Text
  hang : Nat
  starred : stars ≤ 2
  named : isName name = true
  typed : ∀ type, type? = some type → isProse type = true
  prose : ∀ line ∈ first :: more, isProse line = true
  hangs : 0 < hang

inductive Kind
  | params
  | errors
  deriving DecidableEq, Repr

/-- The titles of sections, in lower case. -/
def Kind.titles : Kind → List Text
  | .params => ["args".toList, "arguments".toList, "parameters".toList, "keyword args".toList,
      "keyword arguments".toList]
  | .errors => ["raises".toList]

def Kind.role : Kind → Text
  | .params => "param".toList
  | .errors => "raises".toList

/-- Entries that are put down below one heading. The underline counts where headings have
one, and the indent where they end in a colon. -/
structure Group where
  kind : Kind
  title : Text
  underline : Text
  indent : Nat
  entries : List Entry
  titled : lowercase title ∈ kind.titles
  underlined : 2 ≤ underline.length ∧ ∀ c ∈ underline, isUnderlineCharacter c = true
  indented : 0 < indent
  nonempty : entries ≠ []
  /-- Errors have neither stars nor types. -/
  plain : kind = .errors → ∀ e ∈ entries, e.stars = 0 ∧ e.type? = none

namespace Entry

def lines (e : Entry) : List Text := e.first :: e.more

def spelling (e : Entry) : Text := List.replicate e.stars '*' ++ e.name

/-- The field of an entry, and the one of its type. -/
def fields (role typeRole name : Text) (pad : Nat) (e : Entry) : List Field :=
  ⟨role, name, pad, e.lines⟩ :: e.type?.toList.map fun type => ⟨typeRole, name, 1, [type]⟩

/-- The name, with the type between two marks if there is one. -/
def typedName (before after : Text) (e : Entry) : Text :=
  match e.type? with
  | none => e.spelling
  | some type => e.spelling ++ before ++ type ++ after

/-- The entry as an item of a section: `name (type): description`, or `name : type` with the
description below. -/
def draft (n : Nat) (e : Entry) : Convention → Draft
  | .google =>
    ⟨spaces n ++ (e.typedName " (".toList [')'] ++ ": ".toList ++ e.first),
      pad (n + e.hang) e.more⟩
  | .numpy => ⟨e.typedName " : ".toList [], pad e.hang e.lines⟩

end Entry

namespace Group

def fields (g : Group) : List Field :=
  g.entries.flatMap fun e => e.fields g.kind.role "type".toList e.spelling e.hang

def heading (g : Group) : Convention → List Text
  | .google => [g.title ++ [':']]
  | .numpy => [g.title, g.underline]

/-- The items of the section, with empty lines below the last one. -/
def body (convention : Convention) (gap : List Text) (g : Group) : List Text :=
  (g.entries.flatMap fun e => (e.draft g.indent convention).lines) ++ gap

def lines (convention : Convention) (g : Group) : List Text :=
  g.heading convention ++ g.body convention []

/-- The parameters of the group. -/
def params (g : Group) : List Entry := if g.kind = .params then g.entries else []

/-- The errors of the group. -/
def errors (g : Group) : List Entry := if g.kind = .errors then g.entries else []

end Group
end Outline

/-- The contents of a docstring. No two parameters have one name. -/
structure Outline where
  summary : List Text
  groups : List Outline.Group
  prose : IsProseLines summary
  distinct : ((groups.flatMap Outline.Group.params).map Outline.Entry.name).Nodup

namespace Outline

/-- The table with one more parameter. -/
def Entry.record (table : ParamDocs) (e : Entry) : ParamDocs :=
  table.insert e.name ⟨some (unlines e.lines), e.type?⟩

/-- What is to be read from the outline, however it is put down. -/
def doc (o : Outline) : Doc where
  summary := unlines o.summary
  description := unlines o.summary
  params := (o.groups.flatMap Group.params).foldl Entry.record []
  raises := (o.groups.flatMap Group.errors).map Entry.name

/-- The fields of each group with an empty line before them. -/
def spaced (fields : Group → List Field) (groups : List Group) : List (Option Field) :=
  groups.flatMap fun g => none :: (fields g).map some

/-- The fields with the empty lines between them. All groups are set apart, or only the first
of them from the summary. -/
def pieces (apart : Bool) (o : Outline) : List (Option Field) :=
  if apart then spaced Group.fields o.groups
  else if o.groups = [] then []
  else none :: (o.groups.flatMap Group.fields).map some

/-- The summary with a field list below it. -/
def fieldLines (apart : Bool) (o : Outline) : List Text :=
  o.summary ++ Field.written (o.pieces apart)

/-- The summary with sections below it. -/
def sectionLines (convention : Convention) (o : Outline) : List Text :=
  o.summary ++ o.groups.flatMap fun g => [] :: g.lines convention

end Outline
end CallDoc
