import CallDoc.Text.Basic

/-!
The shortest decimal that reads back as a floating-point number. Among the decimals with
the fewest digits that lie in the interval of numbers rounding to the given one, the
nearest is taken, and of two equally near ones the one with an even last digit.
-/
namespace CallDoc.Decimal

/-- A positive decimal `digits · 10 ^ exponent`. -/
structure Digits where
  digits : Nat
  exponent : Int
  deriving DecidableEq, Repr

/-- A positive number `value / unit` and the ends `low / unit` and `high / unit` of the
interval around it whose decimals read back as it. -/
structure Interval where
  low : Nat
  value : Nat
  high : Nat
  unit : Nat
  /-- The ends belong to the interval. -/
  closed : Bool

/-- The leading bit of a mantissa, which the bits of a number leave out. -/
def hiddenBit : Nat := 0x10000000000000

namespace Interval

/-- The interval of the number `mantissa · 2 ^ exponent`; the gap below a power of two is
half as wide as the one above it, unless there are no smaller steps. -/
def ofBinary (mantissa : Nat) (exponent : Int) : Interval :=
  let below := if mantissa = hiddenBit ∧ -1074 < exponent then 1 else 2
  let scale := Nat.pow 2 (exponent - 2).toNat
  ⟨(4 * mantissa - below) * scale, 4 * mantissa * scale, (4 * mantissa + 2) * scale,
    Nat.pow 2 (2 - exponent).toNat, mantissa % 2 == 0⟩

/-- The interval counted in steps of `10 ^ exponent`. -/
def rescale (i : Interval) (exponent : Int) : Interval :=
  let up := Nat.pow 10 (-exponent).toNat
  ⟨i.low * up, i.value * up, i.high * up, i.unit * Nat.pow 10 exponent.toNat, i.closed⟩

def holds (i : Interval) (n : Nat) : Bool :=
  if i.closed then i.low ≤ n * i.unit && n * i.unit ≤ i.high
  else i.low < n * i.unit && n * i.unit < i.high

/-- The whole number in the interval that is nearest to its value, if there is one among
the two neighbours of the value. -/
def nearest? (i : Interval) : Option Nat :=
  let floor := i.value / i.unit
  match i.holds floor, i.holds (floor + 1) with
  | false, false => none
  | true, false => some floor
  | false, true => some (floor + 1)
  | true, true =>
    let twice := 2 * (i.value % i.unit)
    some (if twice < i.unit ∨ (twice = i.unit ∧ floor % 2 = 0) then floor else floor + 1)

/-- The exponent of the first digit of the value, from an estimate that is at most one off. -/
def leadingExponent (i : Interval) : Int :=
  let log : Int := i.value.log2 - i.unit.log2
  let estimate : Int := Int.fdiv (log * 30103) 100000
  let reaches (e : Int) : Bool := (i.rescale e).unit ≤ (i.rescale e).value
  if reaches (estimate + 1) then estimate + 1
  else if reaches estimate then estimate
  else estimate - 1

/-- The first grid of decimals, from one digit up, that meets the interval. -/
def firstGrid (i : Interval) (leading : Int) : (more : Nat) → (digits : Nat) → Digits
  | 0, digits => ⟨(i.rescale (leading - digits)).value / (i.rescale (leading - digits)).unit,
      leading - digits⟩
  | more + 1, digits =>
    match (i.rescale (leading - digits)).nearest? with
    | some n => ⟨n, leading - digits⟩
    | none => firstGrid i leading more (digits + 1)

end Interval

/-- The shortest digits of a positive finite number, given by its bits. -/
def shortest (bits : Nat) : Digits :=
  let field : Nat := bits / hiddenBit % 0x800
  let fraction : Nat := bits % hiddenBit
  let i :=
    if field = 0 then Interval.ofBinary fraction (-1074)
    else Interval.ofBinary (hiddenBit + fraction) ((field : Int) - 1075)
  i.firstGrid i.leadingExponent 17 0

end CallDoc.Decimal
