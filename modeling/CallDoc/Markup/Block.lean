import CallDoc.Markup.Span
import CallDoc.Numeral.Marker

/-!
The block tree of a document. Every block carries the number of the line it starts on.
-/
namespace CallDoc

/-- What a field of a field list is about. -/
inductive FieldRole
  /-- The text of a parameter. -/
  | param
  /-- The type of a parameter. -/
  | type
  /-- An error that a call can raise. -/
  | raises
  | other (word : Text)
  deriving DecidableEq, Repr

namespace FieldRole

/-- The role that a word at the start of a field's header names. -/
def ofWord (word : Text) : FieldRole :=
  if ["param".toList, "parameter".toList, "arg".toList, "argument".toList, "key".toList,
      "keyword".toList].contains word then param
  else if ["type".toList, "kwtype".toList].contains word then type
  else if ["raises".toList, "raise".toList, "except".toList,
      "exception".toList].contains word then raises
  else other word

def word : FieldRole → Text
  | param => "param".toList
  | type => "type".toList
  | raises => "raises".toList
  | other word => word

end FieldRole

inductive Block
  | paragraph (line : Nat) (spans : List Span)
  | bullets (line : Nat) (bullet : Char) (items : List (List Block))
  | enumerated (line : Nat) (sequence : Sequence) (bracket : Bracket) (start : Nat)
      (items : List (List Block))
  /-- Text that is shown as it stands. -/
  | literal (line : Nat) (text : Text)
  /-- A recorded session, shown as it stands. -/
  | doctest (line : Nat) (text : Text)
  | quote (line : Nat) (children : List Block)
  /-- One entry of a field list; `type` is the type between the role and the name. -/
  | field (line : Nat) (role : FieldRole) (name : Text) (type : Option Text) (body : List Block)
  /-- A heading without a section of its own. -/
  | rubric (line : Nat) (spans : List Span)
  | admonition (line : Nat) (label : Text) (children : List Block)
  /-- A comment, a hyperlink target or an unknown directive. -/
  | comment (line : Nat) (text : Text)
  deriving Repr

/-- The number of the line that the block starts on. -/
def Block.line : Block → Nat
  | paragraph line _ | bullets line _ _ | enumerated line _ _ _ _ | literal line _
  | doctest line _ | quote line _ | field line _ _ _ _ | rubric line _ | admonition line _ _
  | comment line _ => line

end CallDoc
