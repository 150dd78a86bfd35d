import CaptureAudit.Json.Value
import CaptureAudit.Decimal.Style
import CaptureAudit.Text.Quoted

/-! The written forms of a value: on one line without blanks, or one item a line with two blanks a
level. Only the double quote, the backslash and control characters are escaped in a text, and
a number that is no number is null. -/

namespace CaptureAudit.Json

def escape (c : Char) : List Char :=
  if c = '"' then ['\\', '"']
  else if c = '\\' then ['\\', '\\']
  else if c = '\x08' then ['\\', 'b']
  else if c = '\t' then ['\\', 't']
  else if c = '\n' then ['\\', 'n']
  else if c = '\x0c' then ['\\', 'f']
  else if c = '\r' then ['\\', 'r']
  else if c.toNat < 0x20 then
    let digits := Text.hex c.toNat
    ['\\', 'u'] ++ List.replicate (4 - digits.length) '0' ++ digits
  else [c]

def textChars (s : String) : List Char :=
  '"' :: (s.toList.flatMap escape ++ ['"'])

def numberChars : Number → List Char
  | .whole n => Decimal.intText n
  | .real x =>
    if x.isFinite then (Decimal.Style.document.write x).toList else ['n', 'u', 'l', 'l']

/-- Whether items stand on lines of their own. -/
inductive Layout where
  | compact
  | pretty
  deriving DecidableEq

/-- What stands before an item of the given level. -/
def Layout.lead (l : Layout) (level : Nat) : List Char :=
  match l with
  | .compact => []
  | .pretty => '\n' :: List.replicate (2 * level) ' '

def Layout.colon : Layout → List Char
  | .compact => [':']
  | .pretty => [':', ' ']

mutual

def Value.chars (l : Layout) (level : Nat) : Value → List Char
  | .null => ['n', 'u', 'l', 'l']
  | .bool true => ['t', 'r', 'u', 'e']
  | .bool false => ['f', 'a', 'l', 's', 'e']
  | .number n => numberChars n
  | .text s => textChars s
  | .array [] => ['[', ']']
  | .array (v :: vs) =>
    '[' :: l.lead (level + 1) ++ v.chars l (level + 1) ++ itemsChars l (level + 1) vs ++
      l.lead level ++ [']']
  | .object [] => ['\x7b', '\x7d']
  | .object ((k, v) :: ms) =>
    '\x7b' :: l.lead (level + 1) ++ textChars k ++ l.colon ++ v.chars l (level + 1) ++
      membersChars l (level + 1) ms ++ l.lead level ++ ['\x7d']

/-- Further items, each after a comma. -/
def itemsChars (l : Layout) (level : Nat) : List Value → List Char
  | [] => []
  | v :: vs => ',' :: l.lead level ++ v.chars l level ++ itemsChars l level vs

/-- Further members, each after a comma. -/
def membersChars (l : Layout) (level : Nat) : List (String × Value) → List Char
  | [] => []
  | (k, v) :: ms =>
    ',' :: l.lead level ++ textChars k ++ l.colon ++ v.chars l level ++ membersChars l level ms

end

def Value.compact (v : Value) : String :=
  String.ofList (v.chars .compact 0)

def Value.pretty (v : Value) : String :=
  String.ofList (v.chars .pretty 0)

end CaptureAudit.Json
