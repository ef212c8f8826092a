import CallDoc.Text.Basic

/-!
Patterns for file names: `*` stands for any characters, `?` for one, and brackets for one
of those listed in them, or, after an exclamation mark, one that is not.
-/
namespace CallDoc.Glob

/-- A character, or the characters from one to another. -/
inductive CharSet
  | single (c : Char)
  | range (low high : Char)
  deriving DecidableEq, Repr

def CharSet.holds : CharSet → Char → Bool
  | single a, c => a == c
  | range low high, c => low ≤ c && c ≤ high

inductive Token
  | char (c : Char)
  | anyChar
  | anyText
  | oneOf (sets : List CharSet)
  | noneOf (sets : List CharSet)
  deriving DecidableEq, Repr

/-- Why a pattern is refused. -/
inductive Fault
  | tooManyStars
  | strayDoubleStar
  | badBrackets
  deriving DecidableEq, Repr

/-- A fault, and the place of it in the pattern. -/
structure PatternError where
  place : Nat
  fault : Fault
  deriving DecidableEq, Repr

def Fault.message : Fault → Text
  | .tooManyStars => "wildcards are either regular \x60*\x60 or recursive \x60**\x60".toList
  | .strayDoubleStar => "recursive wildcards must form a single path component".toList
  | .badBrackets => "invalid range pattern".toList

def PatternError.message (e : PatternError) : Text :=
  "Pattern syntax error near position ".toList ++ Text.ofNat e.place ++ ": ".toList ++
    e.fault.message

/-- The sets listed between brackets. -/
def charSets : Text → List CharSet
  | low :: '-' :: high :: t => .range low high :: charSets t
  | c :: t => .single c :: charSets t
  | [] => []

/-- The brackets that a text opens with, and the text after them. What they list is not
empty, and its first character may be a closing bracket. -/
def brackets? : Text → Option (Token × Text)
  | '!' :: c :: t =>
    (Text.splitFirst? ']' t).map fun (listed, rest) => (.noneOf (charSets (c :: listed)), rest)
  | '!' :: [] => none
  | c :: t =>
    (Text.splitFirst? ']' t).map fun (listed, rest) => (.oneOf (charSets (c :: listed)), rest)
  | [] => none

/-- The tokens of one component of a path. -/
def tokensWithin : (steps : Nat) → Text → List Token
  | 0, _ => []
  | _, [] => []
  | steps + 1, c :: t =>
    if c = '*' then .anyText :: tokensWithin steps t
    else if c = '?' then .anyChar :: tokensWithin steps t
    else if c = '[' then
      match brackets? t with
      | some (token, rest) => token :: tokensWithin steps rest
      | none => .char c :: tokensWithin steps t
    else .char c :: tokensWithin steps t

def tokens (component : Text) : List Token := tokensWithin component.length component

/-- The token stands for the character. -/
def Token.holds : Token → Char → Bool
  | .char a, c => a == c
  | .anyChar, _ => true
  | .anyText, _ => false
  | .oneOf sets, c => sets.any fun s => s.holds c
  | .noneOf sets, c => !sets.any fun s => s.holds c

/-- For each place in a list, whether it or a later one is true. -/
def anyFrom : List Bool → List Bool
  | [] => []
  | b :: later =>
    let found := anyFrom later
    (b || found.headD false) :: found

/-- Whether the tokens match, for each text that `name` ends in: from the whole of it to the
empty one. A token needs only the answers for the tokens after it, so no part of a name is
matched twice against the same tokens. -/
def matchEnds : List Token → Text → List Bool
  | [], name => name.map (fun _ => false) ++ [true]
  | .anyText :: more, name => anyFrom (matchEnds more name)
  | token :: more, name =>
    List.zipWith (fun c rest => token.holds c && rest) name (matchEnds more name).tail ++ [false]

/-- The tokens match the whole name. -/
def matchTokens (tokens : List Token) (name : Text) : Bool := (matchEnds tokens name).headD false

/-- The component of a path stands for more than itself. -/
def isWild (component : Text) : Bool :=
  component.any fun c => c == '*' || c == '?' || c == '['

/-- The first fault of a text that is read from the given place on; `previous?` is the
character before it. -/
def errorFrom? : (steps : Nat) → (place : Nat) → (previous? : Option Char) → Text →
    Option PatternError
  | 0, _, _, _ => none
  | _, _, _, [] => none
  | steps + 1, place, previous?, c :: t =>
    if c = '*' then
      let stars := 1 + (t.takeWhile (· == '*')).length
      let rest := t.dropWhile (· == '*')
      if 2 < stars then some ⟨place + 2, .tooManyStars⟩
      else if stars = 2 then
        if previous?.any (· != '/') then some ⟨place - 1, .strayDoubleStar⟩
        else if rest.head?.any (· != '/') then some ⟨place + 2, .strayDoubleStar⟩
        else errorFrom? steps (place + 2) (some '*') rest
      else errorFrom? steps (place + 1) (some '*') rest
    else if c = '[' then
      match brackets? t with
      | some (_, rest) => errorFrom? steps (place + (1 + t.length - rest.length)) (some ']') rest
      | none => some ⟨place, .badBrackets⟩
    else errorFrom? steps (place + 1) (some c) t

/-- The first fault of a text that is read as one pattern. -/
def firstError? (t : Text) : Option PatternError := errorFrom? t.length 0 none t

end CallDoc.Glob
