import CallDoc.Decimal.Reading
import CallDoc.Text.LetterCase
import CallDoc.Value.Basic

/-!
The values of single tokens: truth values, numbers and slices. Each reader gives nothing
for a token that it does not accept.
-/
namespace CallDoc.Scalar

open Text

def bool? (token : Text) : Option Bool :=
  let word := lowercase token
  if ["t".toList, "true".toList, "1".toList].contains word then some true
  else if ["f".toList, "false".toList, "0".toList].contains word then some false
  else none

def int? (token : Text) : Option Int := Numeral.int64? (trim token)

def float? (token : Text) : Option Float := Decimal.float? (trim token)

/-- A quote that is open where a piece of a slice is read. -/
def nextQuote (quote? : Option Char) (c : Char) : Option Char :=
  match quote? with
  | some quote => if c = quote then none else some quote
  | none => if c = '\x27' ∨ c = '\x22' then some c else none

/-- The pieces around the colons outside quotes, unless a quote stays open. -/
def sliceParts? (quote? : Option Char) : Text → Option (List Text)
  | [] => if quote?.isSome then none else some [[]]
  | c :: t =>
    if c = ':' ∧ quote? = none then (sliceParts? none t).map ([] :: ·)
    else (sliceParts? (nextQuote quote? c) t).map (extendFirst c)

/-- The text between a quote at the start and the same quote at the end. -/
def unquote? (quote : Char) (part : Text) : Option Text :=
  (after? [quote] part).bind (before? [quote])

/-- A bound, which can be left out. -/
def bound? (part : Text) : Option (Option Bound) :=
  if part.isEmpty ∨ part = "None".toList then some none
  else
    match (unquote? '\x27' part).or (unquote? '\x22' part) with
    | some inner => some (some (.str inner))
    | none => (int? part).map fun n => some (.int n)

/-- A slice is written `start:stop` or `start:stop:step`. -/
def slice? (token : Text) : Option Slice := do
  let parts ← sliceParts? none token
  match ← parts.mapM fun part => bound? (trim part) with
  | [start, stop] => some ⟨start, stop, none⟩
  | [start, stop, step] => some ⟨start, stop, step⟩
  | _ => none

end CallDoc.Scalar
