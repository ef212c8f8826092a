import CallDoc.Numeral.Sequence

/-!
Markers of enumerated lists, read and written. A marker is a token between parentheses, or
before a closing parenthesis or a period, and either `#`, which leaves the counting to the
reader, or a numeral.
-/
namespace CallDoc

inductive Bracket
  /-- Written `(n)`. -/
  | parens
  /-- Written `n)`. -/
  | closing
  /-- Written `n.`. -/
  | period
  deriving DecidableEq, Repr

/-- The token with its brackets. -/
def Bracket.wrap : Bracket → Text → Text
  | parens, token => '(' :: token ++ [')']
  | closing, token => token ++ [')']
  | period, token => token ++ ['.']

/-- A marker at the start of a line. -/
structure Marker where
  bracket : Bracket
  token : Text
  /-- How much of the line precedes the text of the item. -/
  textOffset : Nat
  deriving DecidableEq, Repr

namespace Marker

/-- The bracket and the token at the start of a line, and the text after them. -/
def split? : Text → Option (Bracket × Text × Text)
  | '(' :: t => (Text.splitFirst? ')' t).map fun (token, after) => (.parens, token, after)
  | line =>
    let token := line.takeWhile fun c => c != '.' && c != ')'
    match line.dropWhile fun c => c != '.' && c != ')' with
    | '.' :: after => some (.period, token, after)
    | _ :: after => some (.closing, token, after)
    | [] => none

def isAutoToken (token : Text) : Bool := token == "#".toList

def isToken (token : Text) : Bool :=
  isAutoToken token || (!token.isEmpty && token.all Text.isLetterOrDigit)

/-- The marker of a line. A blank or the end of the line follows it; blanks between it and
the text of the item are counted by their bytes in UTF-8. -/
def ofLine? (line : Text) : Option Marker :=
  match split? line with
  | none => none
  | some (bracket, token, after) =>
    if isToken token && Text.openStart after then
      let gap := if Text.blank after then 1 else Text.utf8Width (after.takeWhile Text.isBlank)
      some ⟨bracket, token, (bracket.wrap token).length + gap⟩
    else none

/-- The marker leaves its number to the reader. -/
def isAuto (m : Marker) : Bool := isAutoToken m.token

/-- The sequences that the first marker of a list is tried with. A lone `i` and numerals of
several letters are Roman, other single letters alphabetic. -/
def candidates (token : Text) : List Sequence :=
  if token = "i".toList then [.lowerRoman]
  else if token = "I".toList then [.upperRoman]
  else if token.length = 1 then [.arabic, .lowerAlpha, .upperAlpha]
  else [.arabic, .lowerRoman, .upperRoman]

/-- The sequence and the ordinal that a list starts with. -/
def firstItem? (m : Marker) : Option (Sequence × Nat) :=
  if m.isAuto then some (.arabic, 1)
  else (candidates m.token).findSome? fun s => (s.ordinal? m.token).map fun n => (s, n)

/-- The ordinal of the marker in a list of the given sequence. -/
def continuing? (m : Marker) (s : Sequence) : Option Nat :=
  if m.isAuto then none else s.ordinal? m.token

/-- The marker is that of item number `expected` of the list that `first` begins. -/
def continues (m first : Marker) (s : Sequence) (expected : Nat) : Bool :=
  m.bracket == first.bracket &&
    if first.isAuto then m.isAuto else m.continuing? s == some expected

end Marker

/-- The number that follows on `count` numbers from `start` on. Numbers are words of 64 bits,
and after the largest of them comes zero. -/
def numberAfter (start count : Nat) : Nat := (start + count) % UInt64.size

theorem numberAfter_eq {start count : Nat} (h : start + count < UInt64.size) :
    numberAfter start count = start + count :=
  Nat.mod_eq_of_lt h

/-- The numerals of `count` items; where the sequence ends, decimal numbers go on. They run up
to the number after the last item, so that there are none once that number starts over. -/
def Sequence.enumerators (s : Sequence) (start count : Nat) : List Text :=
  (List.range' start (numberAfter start count - start)).map fun n =>
    (s.numeral? n).getD (Text.ofNat n)

theorem Sequence.enumerators_eq (s : Sequence) {start count : Nat}
    (h : start + count < UInt64.size) : s.enumerators start count =
      (List.range' start count).map fun n => (s.numeral? n).getD (Text.ofNat n) := by
  rw [enumerators, numberAfter_eq h, Nat.add_sub_cancel_left]

/-- A list whose numbers start over has no numerals. -/
theorem Sequence.enumerators_eq_nil (s : Sequence) {start count : Nat}
    (hstart : start < UInt64.size) (hcount : count < UInt64.size)
    (h : UInt64.size ≤ start + count) : s.enumerators start count = [] := by
  have hover : numberAfter start count = start + count - UInt64.size := by
    rw [numberAfter, Nat.mod_eq_sub_mod h, Nat.mod_eq_of_lt (by omega)]
  have hnone : numberAfter start count - start = 0 := by omega
  rw [enumerators, hnone]
  rfl

/-- The text with blanks after it up to the given width. -/
def Text.padEnd (width : Nat) (t : Text) : Text := t ++ Text.spaces (width - t.length)

/-- What stands before the items of a list: their numerals in brackets and a space, all as
wide as the widest of them. -/
def Sequence.labels (s : Sequence) (bracket : Bracket) (start count : Nat) : List Text :=
  let written := (s.enumerators start count).map fun numeral => bracket.wrap numeral ++ [' ']
  let width := (written.map List.length).foldl max 0
  written.map (Text.padEnd width)

end CallDoc
