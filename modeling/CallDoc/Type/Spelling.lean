import CallDoc.Error
import CallDoc.Numeral.Integer
import CallDoc.Text.Numeric

/-!
Reading type spellings such as `int or str`, `list[float]` and `Literal['a', 1]`.

    spelling := union (" or " union)*
    union    := primary ("|" primary)*
    primary  := "None" | NAME ("[" argument ("," argument)* "]")?
    argument := "..." | literal | union

The words of the generics (`list`, `tuple`, `Optional`, `Union`, `Literal` and their
relatives, with or without `typing.`) get their meaning here; every other name is left
for a namespace to look up.
-/
namespace CallDoc.Spelling

open Text

/-- The text after `token`, blanks before it skipped. -/
def eat? (token t : Text) : Option Text := after? token (trimStart t)

def startsName (c : Char) : Bool := isAlphabetic c || c == '_'

def continuesName (c : Char) : Bool := isAlphanumeric c || c == '_' || c == '.'

/-- A name, blanks before it skipped. -/
def name? (t : Text) : Option (Text × Text) :=
  match trimStart t with
  | [] => none
  | c :: rest =>
    if startsName c then
      some (c :: rest.takeWhile continuesName, rest.dropWhile continuesName)
    else none

/-- A word that is not merely the beginning of a longer one. -/
def word? (word t : Text) : Option Text :=
  match after? word t with
  | none => none
  | some rest => if rest.head?.any fun c => isAlphanumeric c || c == '_' then none else some rest

/-- The digits at the start of the text, with a minus sign before them if there is one. -/
def integerRun : Text → Text
  | '-' :: t => '-' :: t.takeWhile isDigit
  | t => t.takeWhile isDigit

/-- A literal value, when the text starts with one. -/
def literal? (t : Text) : Except SpellingFault (Option (Literal × Text)) :=
  let quote? := t.head?.filter fun c => c == '\x27' || c == '\x22'
  match quote? with
  | some quote =>
    match splitFirst? quote t.tail with
    | some (value, rest) => .ok (some (.str value, rest))
    | none => .error .unterminatedString
  | none =>
    let run := integerRun t
    if run.any isDigit then
      match Numeral.int64? run with
      | some n => .ok (some (.int n, t.drop run.length))
      | none => .error .integerOutOfRange
    else
      match word? "True".toList t with
      | some rest => .ok (some (.bool true, rest))
      | none => .ok ((word? "False".toList t).map fun rest => (.bool false, rest))

/-- One entry between the brackets of a generic. -/
inductive Argument
  | type (hint : Hint)
  | literal (value : Literal)
  | ellipsis

/-- The arguments as types, when all of them are. -/
def typesOf : List Argument → Except SpellingFault (List Hint)
  | [] => .ok []
  | .type hint :: more => (typesOf more).map (hint :: ·)
  | .literal _ :: _ => .error .strayLiteral
  | .ellipsis :: _ => .error .strayEllipsis

/-- The arguments as literal values, when all of them are. -/
def literalsOf : List Argument → Except SpellingFault (List Literal)
  | [] => .ok []
  | .literal value :: more => (literalsOf more).map (value :: ·)
  | _ :: _ => .error .notLiteral

/-- The generics that stand for any number of values of one type. -/
def listGenerics : List Text :=
  ["list".toList, "List".toList, "Sequence".toList, "Iterable".toList, "Collection".toList]

/-- The only type among the arguments of a generic that takes one. -/
def soleType (generic : Text) (arguments : List Argument) : Except SpellingFault Hint :=
  match typesOf arguments with
  | .error fault => .error fault
  | .ok [hint] => .ok hint
  | .ok _ => .error (.oneArgument generic)

/-- The hint that a generic denotes with its arguments. -/
def generic (name : Text) (arguments : List Argument) : Except SpellingFault Hint :=
  let base := (after? "typing.".toList name).getD name
  if base = "Literal".toList then (literalsOf arguments).map .literal
  else if base = "tuple".toList ∨ base = "Tuple".toList then
    match arguments with
    | [.type elem, .ellipsis] => .ok (.varTuple elem)
    | _ => (typesOf arguments).map .tuple
  else if listGenerics.contains base then (soleType base arguments).map .list
  else if base = "Optional".toList then (soleType base arguments).map .optional
  else
    match typesOf arguments with
    | .error fault => .error fault
    | .ok types =>
      if base = "Union".toList then .ok (.unionOf types) else .error (.unknownGeneric name)

mutual

/-- Alternatives with a bar between neighbours. The first argument of this function and of
the four after it bounds the nesting of their calls. -/
def union : Nat → Text → Except SpellingFault (Hint × Text)
  | 0, _ => .error .missingName
  | depth + 1, t => do
    let (first, rest) ← primary depth t
    let (more, rest) ← moreAlternatives depth rest
    return (.unionOf (first :: more), rest)

def moreAlternatives : Nat → Text → Except SpellingFault (List Hint × Text)
  | 0, t => .ok ([], t)
  | depth + 1, t =>
    match eat? "|".toList t with
    | none => .ok ([], t)
    | some rest => do
      let (next, rest) ← primary depth rest
      let (more, rest) ← moreAlternatives depth rest
      return (next :: more, rest)

def primary : Nat → Text → Except SpellingFault (Hint × Text)
  | 0, _ => .error .missingName
  | depth + 1, t =>
    match name? t with
    | none => .error .missingName
    | some (name, rest) =>
      if name = "None".toList ∨ name = "NoneType".toList then .ok (.none, rest)
      else
        match eat? "[".toList rest with
        | none => .ok (.named name, rest)
        | some rest => do
          let (first, rest) ← argument depth rest
          let (more, rest) ← moreArguments depth rest
          match eat? "]".toList rest with
          | none => .error .missingBracket
          | some rest => do
            let hint ← generic name (first :: more)
            return (hint, rest)

def argument : Nat → Text → Except SpellingFault (Argument × Text)
  | 0, _ => .error .missingName
  | depth + 1, t =>
    match eat? "...".toList t with
    | some rest => .ok (.ellipsis, rest)
    | none =>
      match literal? (trimStart t) with
      | .error fault => .error fault
      | .ok (some (value, rest)) => .ok (.literal value, rest)
      | .ok none => do
        let (hint, rest) ← union depth t
        return (.type hint, rest)

def moreArguments : Nat → Text → Except SpellingFault (List Argument × Text)
  | 0, t => .ok ([], t)
  | depth + 1, t =>
    match eat? ",".toList t with
    | none => .ok ([], t)
    | some rest => do
      let (next, rest) ← argument depth rest
      let (more, rest) ← moreArguments depth rest
      return (next :: more, rest)

end

/-- The pieces of a spelling around the word `or`, where it stands outside brackets. -/
def splitOr (depth : Nat) : Text → List Text
  | [] => [[]]
  | c :: t =>
    if c = '[' then extendFirst c (splitOr (depth + 1) t)
    else if c = ']' then extendFirst c (splitOr (depth - 1) t)
    else
      match _h : after? " or ".toList (c :: t) with
      | some rest => if depth = 0 then [] :: splitOr 0 rest else extendFirst c (splitOr depth t)
      | none => extendFirst c (splitOr depth t)
termination_by t => t.length
decreasing_by
  · exact Nat.lt_succ_self t.length
  · exact Nat.lt_succ_self t.length
  · have hlen := congrArg List.length (after?_eq_some_iff.1 _h)
    simp only [List.length_append] at hlen
    exact hlen ▸ Nat.lt_add_of_pos_left (by decide)
  · exact Nat.lt_succ_self t.length
  · exact Nat.lt_succ_self t.length

/-- A piece that is one union from end to end. Each bracket costs a few levels of nesting,
and two for each character is more than enough. -/
def whole (piece : Text) : Except SpellingFault Hint :=
  match union (2 * piece.length + 4) piece with
  | .error fault => .error fault
  | .ok (hint, rest) => if blank rest then .ok hint else .error .trailingInput

end Spelling

/-- The hint that a type spelling denotes. -/
def Hint.ofSpelling (spelling : Text) : Except Error Hint :=
  match (Spelling.splitOr 0 spelling).mapM Spelling.whole with
  | .ok hints => .ok (.unionOf hints)
  | .error fault => .error (.invalidSpelling spelling fault)

end CallDoc
