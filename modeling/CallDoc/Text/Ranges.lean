/-!
Sets of code points given by ranges. The character classes of this folder are tables
of such ranges, in ascending order, for the code points above ASCII. They follow version
17.0 of the Unicode standard.
-/
namespace CallDoc.Text

/-- One of the ranges, both ends included, holds the code point. -/
def inRanges (ranges : List (Nat × Nat)) (n : Nat) : Bool :=
  ranges.any fun (low, high) => low ≤ n && n ≤ high

/-- As `inRanges`, where each range holds only every `step`-th code point from its start on. -/
def inStrides (strides : List (Nat × Nat × Nat)) (n : Nat) : Bool :=
  strides.any fun (low, high, step) => low ≤ n && n ≤ high && (n - low) % step == 0

end CallDoc.Text
