import CallDoc.Numeral.Integer
import CallDoc.Numeral.Roman

/-!
The sequences that the items of a list can be counted in.
-/
namespace CallDoc

inductive Sequence
  | arabic
  | lowerAlpha
  | upperAlpha
  | lowerRoman
  | upperRoman
  deriving DecidableEq, Repr

namespace Sequence

def all : List Sequence := [.arabic, .lowerAlpha, .upperAlpha, .lowerRoman, .upperRoman]

/-- The `n`-th letter, counted from one. -/
def letter? (first : Char) (n : Nat) : Option Text :=
  if 1 ≤ n ∧ n ≤ 26 then some [Char.ofNat (first.toNat + (n - 1))] else none

/-- The place of a single letter among those from `first` on. -/
def place? (first : Char) : Text → Option Nat
  | [c] => if first ≤ c ∧ c.toNat < first.toNat + 26 then some (c.toNat - first.toNat + 1) else none
  | _ => none

/-- The numeral of an ordinal, when the sequence reaches it. -/
def numeral? : Sequence → Nat → Option Text
  | arabic, n => some (Text.ofNat n)
  | lowerAlpha, n => letter? 'a' n
  | upperAlpha, n => letter? 'A' n
  | lowerRoman, n => (Roman.numeral? n).map (List.map Text.asciiSmall)
  | upperRoman, n => Roman.numeral? n

/-- The ordinal that a token denotes. Arabic ordinals are numbers of 64 bits. -/
def ordinal? : Sequence → Text → Option Nat
  | arabic, t => (Numeral.natural? t).filter (· < UInt64.size)
  | lowerAlpha, t => place? 'a' t
  | upperAlpha, t => place? 'A' t
  | lowerRoman, t => if t.all Text.isLower then Roman.value? (t.map Text.asciiCapital) else none
  | upperRoman, t => Roman.value? t

end Sequence
end CallDoc
