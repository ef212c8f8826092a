import CallDoc.Error
import CallDoc.Markup.Span

/-!
Inline markup. A start-string stands at the start of the text, after a blank or after an
opening punctuation mark, and before a character that is not blank; an end-string stands
after such a character, and at the end of the text or before a blank or a closing
punctuation mark. What does not close is plain text. A backslash takes the meaning from
the character after it, and removes a blank.

Every reader here returns the text that follows what it read; `found_shorter` says that a
span never leaves as much text as there was.
-/
namespace CallDoc.Inline

open Text

/-- What a start-string can follow. -/
def openers : Text := "\x27\x22([\x7b<-/:".toList

/-- What can follow an end-string. -/
def closers : Text := "\x27\x22)]\x7d>-/:.,;!?\\".toList

def startAllowed (previous? : Option Char) : Bool :=
  previous?.all fun c => isBlank c || openers.contains c

def endAllowed (after : Text) : Bool :=
  after.head?.all fun c => isBlank c || closers.contains c

/-- The content up to the end-string `mark`, and the text after it. -/
def close? (mark : Text) (previous : Char) : Text → Option (Text × Text)
  | [] => none
  | c :: t =>
    let ends := (after? mark (c :: t)).filter fun rest =>
      !isBlank previous && previous != '\x5c' && endAllowed rest
    match ends with
    | some rest => some ([], rest)
    | none => (close? mark c t).map fun (content, rest) => (c :: content, rest)

/-- As `close?`, behind the start-string: the content has a first character. -/
def enclosed? (mark : Text) : Text → Option (Text × Text)
  | [] => none
  | c :: t =>
    if isBlank c then none
    else (close? mark c t).map fun (content, rest) => (c :: content, rest)

/-- The content without its escaping backslashes. -/
def unescape : Text → Text
  | [] => []
  | ['\x5c'] => []
  | '\x5c' :: c :: t => c :: unescape t
  | c :: t => c :: unescape t

/-- The number of underscores, at most two, that the text starts with. -/
def underscores (t : Text) : Nat := ((t.take 2).takeWhile (· == '_')).length

/-- The content of interpreted text, the number of underscores that mark it as a
reference, and the text after them. -/
def closeInterpreted? (previous : Char) : Text → Option (Text × Nat × Text)
  | [] => none
  | c :: t =>
    if c = '\x60' && !isBlank previous && endAllowed (t.drop (underscores t)) then
      some ([], underscores t, t.drop (underscores t))
    else
      (closeInterpreted? c t).map fun (content, marks, rest) => (c :: content, marks, rest)

/-- A reference to a target elsewhere, which is plain text, or to the target it holds. -/
def referenceSpan (content : Text) : Span :=
  match (before? ['>'] (trimEnd content)).bind (splitLast? '<') with
  | some (label, uri) =>
    if (trim label).isEmpty then .text (trim uri) else .hyperlink (trim label) (trim uri)
  | none => .text content

/-- A span, the last character of its markup, and the text after it. -/
structure Found where
  span : Span
  last : Char
  rest : Text

/-- Interpreted text behind its opening backquote. -/
def interpreted? : Text → Option Found
  | [] => none
  | c :: t =>
    if isBlank c then none
    else (closeInterpreted? c t).map fun (content, marks, rest) =>
      if marks = 0 then ⟨.reference (c :: content), '\x60', rest⟩
      else ⟨referenceSpan (c :: content), '_', rest⟩

def isRoleCharacter (c : Char) : Bool := isLetterOrDigit c || "_.:+-".toList.contains c

/-- The name of a role behind its opening colon, and the text after the backquote that opens
its content. A colon stands between the two. -/
def roleName? (t : Text) : Option (Text × Text) :=
  match t.dropWhile isRoleCharacter with
  | '\x60' :: inner =>
    ((before? [':'] (t.takeWhile isRoleCharacter)).filter fun name => !name.isEmpty).map
      fun name => (name, inner)
  | _ => none

/-- The content of a role up to its closing backquote, and the text after it. -/
def roleContent? : Text → Option (Text × Text)
  | [] => none
  | c :: t =>
    if c = '\x60' && endAllowed t then some ([], t)
    else (roleContent? t).map fun (content, rest) => (c :: content, rest)

/-- The span of a role with its content, when the role is known. -/
def roleSpan (roles : List Text) (role content : Text) : Except Error Span :=
  match Role.standard? role with
  | some make => .ok (make content)
  | none => if roles.contains role then .ok (.text content) else .error (.unknownRole role)

/-- Text with a role, behind its opening colon. -/
def role (roles : List Text) (t : Text) : Except Error (Option Found) :=
  match roleName? t with
  | none => .ok none
  | some (name, inner) =>
    match roleContent? inner with
    | none => .ok none
    | some (content, rest) =>
      (roleSpan roles name content).map fun span => some ⟨span, '\x60', rest⟩

/-- The span that starts where the text does. The longer start-strings go first, and when
one of them is not closed, the shorter one that it begins with is not tried. -/
def find (roles : List Text) (t : Text) : Except Error (Option Found) :=
  match after? "\x60\x60".toList t with
  | some inner => .ok ((enclosed? "\x60\x60".toList inner).map fun (content, rest) =>
      ⟨.literal content, '\x60', rest⟩)
  | none =>
    match after? "**".toList t with
    | some inner => .ok ((enclosed? "**".toList inner).map fun (content, rest) =>
        ⟨.strong (unescape content), '*', rest⟩)
    | none =>
      match t with
      | '*' :: inner => .ok ((enclosed? "*".toList inner).map fun (content, rest) =>
          ⟨.emphasis (unescape content), '*', rest⟩)
      | '\x60' :: inner => .ok (interpreted? inner)
      | ':' :: inner => role roles inner
      | _ => .ok none

/-- The span that starts here, if one may start after the previous character. -/
def findAfter (roles : List Text) (previous? : Option Char) (t : Text) :
    Except Error (Option Found) :=
  if startAllowed previous? then find roles t else .ok none

theorem close?_length {mark : Text} {previous : Char} {t content rest : Text}
    (h : close? mark previous t = some (content, rest)) : rest.length ≤ t.length := by
  induction t generalizing previous content with
  | nil => simp [close?] at h
  | cons c t ih =>
    simp only [close?] at h
    split at h
    · rename_i r hr
      obtain ⟨-, rfl⟩ := Prod.mk.inj (Option.some.inj h)
      have ha := after?_eq_some_iff.1 (Option.filter_eq_some_iff.1 hr).1
      have := congrArg List.length ha
      simp only [List.length_append] at this
      omega
    · obtain ⟨⟨u, v⟩, hu, he⟩ := Option.map_eq_some_iff.1 h
      simp only [Prod.mk.injEq] at he
      obtain ⟨-, rfl⟩ := he
      have := ih hu
      simp only [List.length_cons]
      omega

theorem enclosed?_length {mark t content rest : Text}
    (h : enclosed? mark t = some (content, rest)) : rest.length ≤ t.length := by
  cases t with
  | nil => simp [enclosed?] at h
  | cons c t =>
    simp only [enclosed?] at h
    split at h
    · cases h
    · obtain ⟨⟨u, v⟩, hu, he⟩ := Option.map_eq_some_iff.1 h
      simp only [Prod.mk.injEq] at he
      obtain ⟨-, rfl⟩ := he
      have := close?_length hu
      simp only [List.length_cons]
      omega

theorem closeInterpreted?_length {previous : Char} {t content rest : Text} {marks : Nat}
    (h : closeInterpreted? previous t = some (content, marks, rest)) :
    rest.length ≤ t.length := by
  induction t generalizing previous content with
  | nil => simp [closeInterpreted?] at h
  | cons c t ih =>
    simp only [closeInterpreted?] at h
    split at h
    · simp only [Option.some.injEq, Prod.mk.injEq] at h
      obtain ⟨-, -, rfl⟩ := h
      simp only [List.length_drop, List.length_cons]
      omega
    · obtain ⟨⟨u, n, v⟩, hu, he⟩ := Option.map_eq_some_iff.1 h
      simp only [Prod.mk.injEq] at he
      obtain ⟨-, rfl, rfl⟩ := he
      have := ih hu
      simp only [List.length_cons]
      omega

theorem interpreted?_length {t : Text} {found : Found} (h : interpreted? t = some found) :
    found.rest.length ≤ t.length := by
  cases t with
  | nil => simp [interpreted?] at h
  | cons c t =>
    simp only [interpreted?] at h
    split at h
    · cases h
    · obtain ⟨⟨u, n, v⟩, hu, he⟩ := Option.map_eq_some_iff.1 h
      have := closeInterpreted?_length hu
      simp only at he
      split at he <;> subst he <;> simp only [List.length_cons] <;> omega

theorem roleName?_length {t name rest : Text} (h : roleName? t = some (name, rest)) :
    rest.length ≤ t.length := by
  unfold roleName? at h
  split at h
  · rename_i inner hinner
    obtain ⟨_, -, he⟩ := Option.map_eq_some_iff.1 h
    obtain ⟨-, rfl⟩ := Prod.mk.inj he
    have hdrop := (List.dropWhile_sublist (l := t) isRoleCharacter).length_le
    rw [hinner, List.length_cons] at hdrop
    omega
  · cases h

theorem roleContent?_length {t content rest : Text}
    (h : roleContent? t = some (content, rest)) : rest.length ≤ t.length := by
  induction t generalizing content with
  | nil => simp [roleContent?] at h
  | cons c t ih =>
    simp only [roleContent?] at h
    split at h
    · obtain ⟨-, rfl⟩ := Prod.mk.inj (Option.some.inj h)
      simp
    · obtain ⟨⟨u, v⟩, hu, he⟩ := Option.map_eq_some_iff.1 h
      simp only [Prod.mk.injEq] at he
      obtain ⟨-, rfl⟩ := he
      have := ih hu
      simp only [List.length_cons]
      omega

theorem role_length {roles : List Text} {t : Text} {found : Found}
    (h : role roles t = .ok (some found)) : found.rest.length ≤ t.length := by
  simp only [role] at h
  split at h
  · cases h
  · rename_i name inner hname
    split at h
    · cases h
    · rename_i content rest hcontent
      cases hspan : roleSpan roles name content with
      | error e => rw [hspan] at h; cases h
      | ok span =>
        rw [hspan] at h
        simp only [Except.map, Except.ok.injEq, Option.some.injEq] at h
        subst h
        exact Nat.le_trans (roleContent?_length hcontent) (roleName?_length hname)

/-- A span takes at least one character. -/
theorem found_shorter {roles : List Text} {previous? : Option Char} {t : Text} {found : Found}
    (h : findAfter roles previous? t = .ok (some found)) : found.rest.length < t.length := by
  simp only [findAfter] at h
  split at h
  · simp only [find] at h
    split at h
    · rename_i inner hinner
      simp only [Except.ok.injEq] at h
      obtain ⟨⟨u, v⟩, hu, rfl⟩ := Option.map_eq_some_iff.1 h
      have hlen := congrArg List.length (after?_eq_some_iff.1 hinner)
      have := enclosed?_length hu
      simp only [List.length_append] at hlen
      simp at hlen ⊢
      omega
    · split at h
      · rename_i inner hinner
        simp only [Except.ok.injEq] at h
        obtain ⟨⟨u, v⟩, hu, rfl⟩ := Option.map_eq_some_iff.1 h
        have hlen := congrArg List.length (after?_eq_some_iff.1 hinner)
        have := enclosed?_length hu
        simp only [List.length_append] at hlen
        simp at hlen ⊢
        omega
      · split at h
        · simp only [Except.ok.injEq] at h
          obtain ⟨⟨u, v⟩, hu, rfl⟩ := Option.map_eq_some_iff.1 h
          have := enclosed?_length hu
          simp only [List.length_cons]
          omega
        · simp only [Except.ok.injEq] at h
          have := interpreted?_length h
          simp only [List.length_cons]
          omega
        · have := role_length h
          simp only [List.length_cons]
          omega
        · cases h
  · cases h

/-- A trailing underscore after a word, which makes the word a reference. -/
def endsReference (previous? : Option Char) (after : Text) : Bool :=
  previous?.any isLetterOrDigit && endAllowed after

/-- The spans of a text that comes after the given character. -/
def scan (roles : List Text) (previous? : Option Char) : Text → Except Error (List Span)
  | [] => .ok []
  | c :: t =>
    if c = '\x5c' then
      match t with
      | [] => .ok (Span.consText ['\x5c'] [])
      | d :: t =>
        if isBlank d then scan roles (some d) t
        else (scan roles (some d) t).map (Span.consText [d])
    else
      match _h : findAfter roles previous? (c :: t) with
      | .error e => .error e
      | .ok (some found) => (scan roles (some found.last) found.rest).map found.span.cons
      | .ok none =>
        if c = '_' && endsReference previous? t then scan roles (some c) t
        else (scan roles (some c) t).map (Span.consText [c])
termination_by t => t.length
decreasing_by
  · simp only [List.length_cons]
    omega
  · simp only [List.length_cons]
    omega
  · exact found_shorter _h
  · exact Nat.lt_succ_self t.length
  · exact Nat.lt_succ_self t.length

/-- The spans of a paragraph's text. -/
def parse (roles : List Text) (t : Text) : Except Error (List Span) := scan roles none t

end CallDoc.Inline
