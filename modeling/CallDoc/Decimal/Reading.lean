import CallDoc.Numeral.Integer

/-!
Floating-point numbers as text: an optional sign, then `inf`, `infinity` or `nan` in any
case, or decimal digits with an optional point and exponent. At least one digit must
stand on one side of the point. The number read is the nearest one.
-/
namespace CallDoc.Decimal

open Text

/-- The texts are equal but for the case of ASCII letters in the second. -/
def sameWord (word t : Text) : Bool :=
  word == t.map asciiSmall

/-- A decimal number without sign: `digits · 10 ^ exponent`. -/
structure Scientific where
  digits : Nat
  exponent : Int

/-- The exponent after the digits of a number; no letter `e` stands for none. -/
def exponent? : Text → Option Int
  | [] => some 0
  | c :: t =>
    if c = 'e' ∨ c = 'E' then
      let (negative, digits) := Numeral.splitSign t
      (Numeral.natural? digits).map fun n => if negative then -n else n
    else none

def scientific? (t : Text) : Option Scientific :=
  let whole := t.takeWhile isDigit
  let rest := t.dropWhile isDigit
  let fraction := if rest.head? = some '.' then rest.tail.takeWhile isDigit else []
  let rest := if rest.head? = some '.' then rest.tail.dropWhile isDigit else rest
  if whole.isEmpty && fraction.isEmpty then none
  else
    (exponent? rest).map fun e => ⟨Numeral.ofDigits (whole ++ fraction), e - fraction.length⟩

/-- The nearest number. A decimal exponent far outside the range of numbers is decided
without forming its power of ten. -/
def Scientific.toFloat (s : Scientific) : Float :=
  let magnitude : Int := (ofNat s.digits).length + s.exponent
  if s.digits = 0 ∨ magnitude < -400 then 0.0
  else if 400 < magnitude then 1.0 / 0.0
  else Float.ofScientific s.digits (s.exponent < 0) s.exponent.natAbs

/-- The number that a text denotes. -/
def float? (t : Text) : Option Float :=
  let (negative, body) := Numeral.splitSign t
  let magnitude? :=
    if sameWord "inf".toList body || sameWord "infinity".toList body then some (1.0 / 0.0)
    else if sameWord "nan".toList body then some (0.0 / 0.0)
    else (scientific? body).map Scientific.toFloat
  magnitude?.map fun x => if negative then -x else x

end CallDoc.Decimal
