import CallDoc.Text.Basic

/-!
Roman numerals from 1 to 4999, in capitals. Each number has one numeral: a spelling such
as `IIII` or `VX` is not one, whatever its letters add up to.
-/
namespace CallDoc.Roman

/-- The groups of letters that a numeral is made of, from the largest value down. -/
def groups : List (Nat × Text) :=
  [(1000, "M".toList), (900, "CM".toList), (500, "D".toList), (400, "CD".toList),
    (100, "C".toList), (90, "XC".toList), (50, "L".toList), (40, "XL".toList),
    (10, "X".toList), (9, "IX".toList), (5, "V".toList), (4, "IV".toList), (1, "I".toList)]

/-- As many of each group as fit, in order. -/
def write : List (Nat × Text) → Nat → Text
  | [], _ => []
  | (value, letters) :: more, n =>
    (List.replicate (n / value) letters).flatten ++ write more (n % value)

/-- The numeral of a number that has one. -/
def numeral? (n : Nat) : Option Text :=
  if 1 ≤ n ∧ n ≤ 4999 then some (write groups n) else none

/-- The value of one letter. -/
def letter? : Char → Option Nat
  | 'I' => some 1
  | 'V' => some 5
  | 'X' => some 10
  | 'L' => some 50
  | 'C' => some 100
  | 'D' => some 500
  | 'M' => some 1000
  | _ => none

/-- The sum of the letters, where one before a larger one is taken away. -/
def sum : List Nat → Nat
  | [] => 0
  | v :: more => if more.head?.any (v < ·) then sum more - v else sum more + v

/-- The number that a numeral denotes. -/
def value? (t : Text) : Option Nat :=
  (t.mapM letter?).bind fun values =>
    if numeral? (sum values) = some t then some (sum values) else none

end CallDoc.Roman
