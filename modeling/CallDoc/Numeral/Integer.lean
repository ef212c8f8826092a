import CallDoc.Text.Basic

/-!
Decimal integers as text: digits alone, and signed integers of 64 bits.
-/
namespace CallDoc.Numeral

/-- The value of a run of decimal digits, leading zeros allowed. -/
def ofDigits (digits : Text) : Nat :=
  digits.foldl (fun n c => n * 10 + (c.toNat - '0'.toNat)) 0

/-- The number that a text of decimal digits denotes. -/
def natural? (t : Text) : Option Nat :=
  if t.isEmpty || !t.all Text.isDigit then none else some (ofDigits t)

/-- A sign, if there is one, and what follows it. -/
def splitSign : Text → Bool × Text
  | '-' :: t => (true, t)
  | '+' :: t => (false, t)
  | t => (false, t)

/-- The signed 64-bit integer that a text denotes: an optional sign and digits. -/
def int64? (t : Text) : Option Int :=
  let (negative, digits) := splitSign t
  (natural? digits).bind fun n =>
    let value : Int := if negative then -n else n
    if -0x8000000000000000 ≤ value ∧ value < 0x8000000000000000 then some value else none

end CallDoc.Numeral
