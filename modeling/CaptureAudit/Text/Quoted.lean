import CaptureAudit.Text.Hidden

/-! A text between double quotes, in which the quotes, backslashes and hidden characters of the text
are written as escapes. -/

namespace CaptureAudit.Text

/-- Lower case digits of a number in base sixteen, without leading zeros. -/
def hex (n : Nat) : List Char :=
  Nat.toDigits 16 n

def escapeChar (c : Char) : List Char :=
  if c = '"' then ['\\', '"']
  else if c = '\\' then ['\\', '\\']
  else if c = '\n' then ['\\', 'n']
  else if c = '\t' then ['\\', 't']
  else if c = '\r' then ['\\', 'r']
  else if c = '\x00' then ['\\', '0']
  else if isHidden c then ['\\', 'u', '\x7b'] ++ hex c.toNat ++ ['\x7d']
  else [c]

def quoted (s : String) : String :=
  String.ofList ('"' :: (s.toList.flatMap escapeChar ++ ['"']))

end CaptureAudit.Text
