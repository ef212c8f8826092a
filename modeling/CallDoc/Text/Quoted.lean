import CallDoc.Text.Printable

/-!
Text between double quotes, as messages show it. A quote, a backslash and the common
controls are written with a backslash, whatever else cannot be shown by its code point.
-/
namespace CallDoc.Text

/-- How one character is written between the quotes. -/
def quotedChar (c : Char) : Text :=
  if c = '\x00' then "\\0".toList
  else if c = '\t' then "\\t".toList
  else if c = '\r' then "\\r".toList
  else if c = '\n' then "\\n".toList
  else if c = '\x5c' then "\\\\".toList
  else if c = '\x22' then "\\\x22".toList
  else if extendsGrapheme c || !isPrintable c then
    "\\u\x7b".toList ++ Nat.toDigits 16 c.toNat ++ "\x7d".toList
  else [c]

def quoted (t : Text) : Text := '\x22' :: t.flatMap quotedChar ++ ['\x22']

end CallDoc.Text
