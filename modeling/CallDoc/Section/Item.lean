import CallDoc.Section.Heading
import CallDoc.Text.WordCharacter

/-!
The first lines of items in a section: `name (type): description` and `name : type`. They
are split at the first lone colon, which is a colon that has no other colon beside it and
lies outside cross references such as `:class:` with its target in backquotes.
-/
namespace CallDoc.Section

open Text

def isRoleSeparator (c : Char) : Bool :=
  c == '-' || c == '_' || c == '+' || c == ':' || c == '.'

/-- Words of ASCII letters and digits with one separator between neighbours. -/
def isRolePath : (afterWord : Bool) → Text → Bool
  | afterWord, [] => afterWord
  | afterWord, c :: t =>
    if isLetterOrDigit c then isRolePath true t
    else afterWord && isRoleSeparator c && isRolePath false t

/-- The cross reference that the text starts with, and the text after it. The target is on one
line. -/
def crossReference? : Text → Option (Text × Text)
  | ':' :: t =>
    let role := t.takeWhile fun c => isLetterOrDigit c || isRoleSeparator c
    match t.dropWhile fun c => isLetterOrDigit c || isRoleSeparator c with
    | '\x60' :: c :: target =>
      if (before? [':'] role).any (isRolePath false) then
        ((splitFirst? '\x60' target).filter fun (target, _) => '\n' ∉ c :: target).map
          fun (target, rest) => (':' :: role ++ '\x60' :: c :: target ++ ['\x60'], rest)
      else none
    | _ => none
  | _ => none

/-- A cross reference is a part of the text. -/
theorem crossReference?_eq {t reference rest : Text}
    (h : crossReference? t = some (reference, rest)) : t = reference ++ rest := by
  unfold crossReference? at h
  split at h
  · rename_i t
    dsimp only at h
    split at h
    · rename_i c target hdrop
      split at h
      · obtain ⟨⟨u, v⟩, hu, he⟩ := Option.map_eq_some_iff.1 h
        simp only [Prod.mk.injEq] at he
        obtain ⟨rfl, rfl⟩ := he
        have hsplit := List.takeWhile_append_dropWhile
          (p := fun c => isLetterOrDigit c || isRoleSeparator c) (l := t)
        rw [hdrop, splitFirst?_eq (Option.filter_eq_some_iff.1 hu).1] at hsplit
        simp only [List.cons_append, List.append_assoc, List.nil_append]
        rw [hsplit]
      · cases h
    · cases h
  · cases h

theorem crossReference?_ne_nil {t reference rest : Text}
    (h : crossReference? t = some (reference, rest)) : reference ≠ [] := by
  unfold crossReference? at h
  split at h
  · dsimp only at h
    split at h
    · split at h
      · obtain ⟨⟨u, v⟩, hu, he⟩ := Option.map_eq_some_iff.1 h
        simp only [Prod.mk.injEq] at he
        obtain ⟨rfl, rfl⟩ := he
        simp
      · cases h
    · cases h
  · cases h

/-- The next character outside cross references, when it follows at once. -/
def nextPlain? (t : Text) : Option Char :=
  if (crossReference? t).isSome then none else t.head?

/-- The two sides of the first lone colon. The character before the text counts as a
neighbour; the edge of a cross reference does not. -/
def splitLoneColon? (previous? : Option Char) : Text → Option (Text × Text)
  | [] => none
  | c :: t =>
    match _h : crossReference? (c :: t) with
    | some (reference, rest) =>
      (splitLoneColon? none rest).map fun (before, after) => (reference ++ before, after)
    | none =>
      if c = ':' ∧ previous? ≠ some ':' ∧ nextPlain? t ≠ some ':' then some ([], t)
      else (splitLoneColon? (some c) t).map fun (before, after) => (c :: before, after)
termination_by t => t.length
decreasing_by
  · have hlen := congrArg List.length (crossReference?_eq _h)
    have hne := List.length_pos_iff.2 (crossReference?_ne_nil _h)
    simp only [List.length_append] at hlen
    omega
  · simp

/-- The trimmed sides of the first lone colon of a line, or the trimmed line alone. -/
def partition (line : Text) : Text × Option Text :=
  match splitLoneColon? none line with
  | some (before, after) => (trim before, some (trim after))
  | none => (trim line, none)

/-- The name and the type in `name (type)`. The type reaches from the first parenthesis
behind a name to the last closing one, and is not blank. -/
def typedName? (text : Text) : Option (Text × Text) :=
  match splitLast? ')' text with
  | some (c :: t, _) =>
    (splitFirst? '(' t).bind fun (name, type) =>
      if blank type then none else some (trimEnd (c :: name), trim type)
  | _ => none

/-- Stars before a name would be markup; they are escaped. -/
def escapeStars : Text → Text
  | '*' :: '*' :: t => "\\*\\*".toList ++ t
  | '*' :: t => "\\*".toList ++ t
  | t => t

/-- An entry of a section: a name, a type, and the lines of a description. -/
structure Item where
  name : Text
  type : Text
  description : List Text
  deriving DecidableEq, Repr

/-- How the first line of an item is read. -/
structure ItemForm where
  /-- There is a place for a type. -/
  typed : Bool
  /-- What stands alone is the type. -/
  prefersType : Bool

/-- The item that a line begins; of its description it holds what the line says. -/
def Item.ofLine (convention : Convention) (form : ItemForm) (line : Text) : Item :=
  let item : Item :=
    match convention with
    | .google =>
      let (before, after?) := partition line
      let (name, type) := ((typedName? before).filter fun _ => form.typed).getD (before, [])
      ⟨name, type, [after?.getD []]⟩
    | .numpy =>
      if form.typed then
        let (name, type?) := partition line
        ⟨name, type?.getD [], []⟩
      else ⟨trim line, [], []⟩
  let name := escapeStars item.name
  if form.prefersType && item.type.isEmpty then { item with name := [], type := name }
  else { item with name := name }

theorem Item.ofLine_description_length (convention : Convention) (form : ItemForm)
    (line : Text) : (Item.ofLine convention form line).description.length ≤ 1 := by
  cases convention <;> simp only [Item.ofLine] <;> split <;> simp <;> split <;> simp

/-- The item says nothing at all. -/
def Item.isEmpty (item : Item) : Bool :=
  item.name.isEmpty && item.type.isEmpty && item.description.isEmpty

def isObjectCharacter (c : Char) : Bool :=
  isLetterOrDigit c || c == '_' || c == '.' || c == '-'

/-- The name of an object, plain or as the target of a role. -/
structure ObjectName where
  role : Option Text
  name : Text

/-- The name of an object in a text that does not start with a blank. -/
def plainObjectName? : Text → Option (ObjectName × Text)
  | ':' :: t =>
    let role := t.takeWhile isWordCharacter
    match after? ":\x60".toList (t.dropWhile isWordCharacter) with
    | none => none
    | some t =>
      let name := t.takeWhile isObjectCharacter
      match t.dropWhile isObjectCharacter with
      | '\x60' :: rest =>
        if role.isEmpty || name.isEmpty then none else some (⟨some role, name⟩, rest)
      | _ => none
  | t =>
    let name := t.takeWhile isObjectCharacter
    if name.isEmpty then none else some (⟨none, name⟩, t.dropWhile isObjectCharacter)

/-- The name of an object at the start of a line, blanks around it skipped, and the rest of
the line. -/
def objectName? (line : Text) : Option (ObjectName × Text) :=
  (plainObjectName? (trimStart line)).map fun (object, rest) => (object, trimStart rest)

end CallDoc.Section
