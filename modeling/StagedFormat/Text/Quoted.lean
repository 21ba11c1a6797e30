import StagedFormat.Text.Unprintable

/-! Texts between quotation marks, as messages show them. -/

namespace StagedFormat.Text

def hexDigits (number : Nat) : List Char := Nat.toDigits 16 number

/-- How one character is written between quotation marks. -/
def escape (c : Char) : List Char :=
  if c = '"' then ['\\', '"']
  else if c = '\\' then ['\\', '\\']
  else if c = '\n' then ['\\', 'n']
  else if c = '\r' then ['\\', 'r']
  else if c = '\t' then ['\\', 't']
  else if c = '\x00' then ['\\', '0']
  else if isUnprintable c then ['\\', 'u', '\x7b'] ++ hexDigits c.toNat ++ ['\x7d']
  else [c]

end StagedFormat.Text

/-- The text between quotation marks: quotation marks, backslashes and line ends are escaped, and so
is every character that would not show. -/
def String.quoted (text : String) : String :=
  String.ofList ('"' :: (text.toList.flatMap StagedFormat.Text.escape ++ ['"']))
