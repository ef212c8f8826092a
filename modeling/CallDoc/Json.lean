import CallDoc.Decimal.Shortest

/-!
Compact JSON text: strings, numbers, arrays and objects without white space. In a string
only the quote, the backslash and the controls below the space are escaped.
-/
namespace CallDoc.Json

open Text

/-- A byte as two hexadecimal digits. -/
def hexByte (n : Nat) : Text := [Nat.digitChar (n / 16), Nat.digitChar (n % 16)]

/-- How one character is written inside a string. -/
def escapeChar (c : Char) : Text :=
  if c = '\x22' then "\\\x22".toList
  else if c = '\x5c' then "\\\\".toList
  else if c = '\n' then "\\n".toList
  else if c = '\r' then "\\r".toList
  else if c = '\t' then "\\t".toList
  else if c = '\x08' then "\\b".toList
  else if c = '\x0c' then "\\f".toList
  else if c.toNat < 0x20 then "\\u00".toList ++ hexByte c.toNat
  else [c]

/-- A string in quotes. -/
def string (t : Text) : Text := '\x22' :: t.flatMap escapeChar ++ ['\x22']

def null : Text := "null".toList

def bool (b : Bool) : Text := if b then "true".toList else "false".toList

def array (items : List Text) : Text := '[' :: joinWith [','] items ++ [']']

def object (members : List (Text × Text)) : Text :=
  '\x7b' :: joinWith [','] (members.map fun (key, value) => string key ++ ':' :: value) ++ ['\x7d']

/-- A positive decimal: positional while its first digit stands between the fifth place
after the point and the sixteenth before it, with an exponent outside. -/
def decimal (d : Decimal.Digits) : Text :=
  let written := ofNat d.digits
  let digits := dropEndWhile (· == '0') written
  let exponent := d.exponent + (written.length - digits.length : Nat)
  let leading : Int := exponent + digits.length - 1
  if leading < -5 ∨ 16 ≤ leading then
    let fraction := if digits.length ≤ 1 then [] else '.' :: digits.tail
    digits.take 1 ++ fraction ++ 'e' :: (if 0 ≤ leading then ['+'] else []) ++ ofInt leading
  else if leading < 0 then
    "0.".toList ++ List.replicate (-leading - 1).toNat '0' ++ digits
  else if 0 ≤ exponent then
    digits ++ List.replicate exponent.toNat '0' ++ ".0".toList
  else
    digits.take (leading + 1).toNat ++ '.' :: digits.drop (leading + 1).toNat

/-- A floating-point number; those that are none have no JSON form but `null`. -/
def float (x : Float) : Text :=
  let bits := x.toBits.toNat
  let sign := if 0x8000000000000000 ≤ bits then ['-'] else []
  let magnitude := bits % 0x8000000000000000
  if 0x7FF0000000000000 ≤ magnitude then null
  else if magnitude = 0 then sign ++ "0.0".toList
  else sign ++ decimal (Decimal.shortest magnitude)

end CallDoc.Json
