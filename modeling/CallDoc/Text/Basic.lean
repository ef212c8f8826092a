/-!
Text as a list of characters, and the few operations on it that the whole
library shares: blanks, trimming, cutting at a separator, cutting off a known
beginning or end. All of them recurse on the text, and none depends on an
encoding except `utf8Width`, which says so.
-/
namespace CallDoc

/-- Documentation text, a name or a command-line token. -/
abbrev Text := List Char

namespace Text

/-- The characters of the Unicode property `White_Space`. -/
def isBlank (c : Char) : Bool :=
  let n := c.toNat
  (9 ≤ n && n ≤ 13) || n == 0x20 || n == 0x85 || n == 0xA0 || n == 0x1680 ||
    (0x2000 ≤ n && n ≤ 0x200A) || n == 0x2028 || n == 0x2029 || n == 0x202F ||
    n == 0x205F || n == 0x3000

/-- The width of the blanks a line starts with. -/
def indent (t : Text) : Nat := (t.takeWhile isBlank).length

/-- The list without its longest ending that satisfies `p`. -/
def dropEndWhile {α : Type} (p : α → Bool) (l : List α) : List α :=
  l.foldr (fun a rest => if rest.isEmpty && p a then [] else a :: rest) []

theorem dropEndWhile_sublist {α : Type} (p : α → Bool) (l : List α) :
    (dropEndWhile p l).Sublist l := by
  induction l with
  | nil => exact List.Sublist.slnil
  | cons a l ih =>
    rw [dropEndWhile, List.foldr_cons]
    split
    · exact List.nil_sublist _
    · exact ih.cons_cons a

theorem dropEndWhile_length_le {α : Type} (p : α → Bool) (l : List α) :
    (dropEndWhile p l).length ≤ l.length :=
  (dropEndWhile_sublist p l).length_le

def trimStart (t : Text) : Text := t.dropWhile isBlank

def trimEnd (t : Text) : Text := dropEndWhile isBlank t

def trim (t : Text) : Text := trimStart (trimEnd t)

/-- Nothing but blanks. -/
def blank (t : Text) : Bool := t.all isBlank

/-- The text starts with a blank or ends before its first character. -/
def openStart : Text → Bool
  | [] => true
  | c :: _ => isBlank c

def startsBlank : Text → Bool
  | [] => false
  | c :: _ => isBlank c

def endsBlank (t : Text) : Bool := t.getLast?.any isBlank

/-- What follows `lead`, when the text starts with it. -/
def after? : (lead : Text) → Text → Option Text
  | [], t => some t
  | _ :: _, [] => none
  | a :: lead, b :: t => if a = b then after? lead t else none

theorem after?_eq_some_iff {lead t rest : Text} : after? lead t = some rest ↔ t = lead ++ rest := by
  induction lead generalizing t with
  | nil => simp [after?]
  | cons a lead ih =>
    cases t with
    | nil => simp [after?]
    | cons b t => by_cases h : a = b <;> simp [after?, h, ih, eq_comm]

def startsWith (lead t : Text) : Bool := (after? lead t).isSome

/-- What precedes `tail`, when the text ends with it. -/
def before? (tail t : Text) : Option Text :=
  (after? tail.reverse t.reverse).map List.reverse

theorem before?_eq_some_iff {tail t lead : Text} :
    before? tail t = some lead ↔ t = lead ++ tail := by
  simp only [before?, Option.map_eq_some_iff, after?_eq_some_iff]
  constructor
  · rintro ⟨rest, h, rfl⟩
    simpa using congrArg List.reverse h
  · rintro rfl
    exact ⟨lead.reverse, by simp, by simp⟩

def endsWith (tail t : Text) : Bool := (before? tail t).isSome

/-- The pieces with one more character in front of the first of them. -/
def extendFirst (c : Char) : List Text → List Text
  | [] => [[c]]
  | piece :: pieces => (c :: piece) :: pieces

/-- The pieces between the separators, one more than there are separators. -/
def splitOn (sep : Char) : Text → List Text
  | [] => [[]]
  | c :: t => if c = sep then [] :: splitOn sep t else extendFirst c (splitOn sep t)

/-- The two sides of the first separator. -/
def splitFirst? (sep : Char) : Text → Option (Text × Text)
  | [] => none
  | c :: t =>
    if c = sep then some ([], t)
    else (splitFirst? sep t).map fun (before, after) => (c :: before, after)

/-- The two sides with the separator between them are the text. -/
theorem splitFirst?_eq {sep : Char} {t before after : Text}
    (h : splitFirst? sep t = some (before, after)) : t = before ++ sep :: after := by
  induction t generalizing before with
  | nil => simp [splitFirst?] at h
  | cons c t ih =>
    simp only [splitFirst?] at h
    split at h
    · rename_i hc
      simp only [Option.some.injEq, Prod.mk.injEq] at h
      obtain ⟨rfl, rfl⟩ := h
      simp [hc]
    · obtain ⟨⟨u, v⟩, hu, he⟩ := Option.map_eq_some_iff.1 h
      simp only [Prod.mk.injEq] at he
      obtain ⟨rfl, rfl⟩ := he
      simp [ih hu]

/-- The two sides of the last separator. -/
def splitLast? (sep : Char) (t : Text) : Option (Text × Text) :=
  (splitFirst? sep t.reverse).map fun (after, before) => (before.reverse, after.reverse)

/-- The maximal runs without a blank. -/
def words : Text → List Text
  | [] => []
  | c :: t =>
    if isBlank c then words t
    else if openStart t then [c] :: words t
    else extendFirst c (words t)

/-- The pieces with `sep` between neighbours. -/
def joinWith (sep : Text) (pieces : List Text) : Text := sep.intercalate pieces

theorem splitOn_ne_nil (sep : Char) (t : Text) : splitOn sep t ≠ [] := by
  cases t with
  | nil => simp [splitOn]
  | cons c t =>
    simp only [splitOn]
    split
    · simp
    · cases splitOn sep t <;> simp [extendFirst]

/-- Cutting a text into pieces loses only the separators. -/
theorem joinWith_splitOn (sep : Char) (t : Text) : joinWith [sep] (splitOn sep t) = t := by
  induction t with
  | nil => rfl
  | cons c t ih =>
    obtain ⟨piece, pieces, h⟩ := List.exists_cons_of_ne_nil (splitOn_ne_nil sep t)
    rw [h] at ih
    simp only [splitOn, h]
    split
    · rename_i hc
      simpa [joinWith, List.intercalate, hc] using ih
    · rw [extendFirst]
      cases pieces with
      | nil => simpa [joinWith, List.intercalate] using ih
      | cons next pieces => simpa [joinWith, List.intercalate] using ih

def unlines (lines : List Text) : Text := joinWith ['\n'] lines

/-- The text with `pad` put in front of every line but the first. -/
def hang (pad t : Text) : Text := t.flatMap fun c => if c = '\n' then '\n' :: pad else [c]

def spaces (n : Nat) : Text := List.replicate n ' '

/-- Every character at one of the two ends that satisfies `p` is dropped. -/
def stripWhere (p : Char → Bool) (t : Text) : Text := (dropEndWhile p t).dropWhile p

/-- As `erase`, where the first `skip` characters belong to an occurrence already found. -/
def eraseFrom (pattern : Text) : (skip : Nat) → Text → Text
  | _, [] => []
  | skip + 1, _ :: t => eraseFrom pattern skip t
  | 0, c :: t =>
    if startsWith pattern (c :: t) then eraseFrom pattern (pattern.length - 1) t
    else c :: eraseFrom pattern 0 t

/-- The text without the occurrences of `pattern`, found from left to right. -/
def erase (pattern t : Text) : Text := if pattern.isEmpty then t else eraseFrom pattern 0 t

def isDigit (c : Char) : Bool := '0' ≤ c && c ≤ '9'

def isLower (c : Char) : Bool := 'a' ≤ c && c ≤ 'z'

def isUpper (c : Char) : Bool := 'A' ≤ c && c ≤ 'Z'

/-- The small letter of an ASCII capital; every other character stays. -/
def asciiSmall (c : Char) : Char := if isUpper c then Char.ofNat (c.toNat + 32) else c

/-- The capital of a small ASCII letter; every other character stays. -/
def asciiCapital (c : Char) : Char := if isLower c then Char.ofNat (c.toNat - 32) else c

/-- An ASCII letter. -/
def isLetter (c : Char) : Bool := isLower c || isUpper c

/-- An ASCII letter or digit. -/
def isLetterOrDigit (c : Char) : Bool := isLetter c || isDigit c

def ofNat (n : Nat) : Text := Nat.toDigits 10 n

def ofInt : Int → Text
  | .ofNat n => ofNat n
  | .negSucc n => '-' :: ofNat (n + 1)

/-- The number of bytes of the text in UTF-8. -/
def utf8Width (t : Text) : Nat := t.foldr (fun c width => c.utf8Size + width) 0

/-- Order by code points, the shorter text first when one starts the other. -/
def before : Text → Text → Bool
  | [], [] => false
  | [], _ :: _ => true
  | _ :: _, [] => false
  | a :: s, b :: t => a < b || (a == b && before s t)

end Text
end CallDoc
