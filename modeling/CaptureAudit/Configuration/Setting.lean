import CaptureAudit.Decimal.Style
import CaptureAudit.Decimal.Whole
import CaptureAudit.Text.Lowercase

/-! Values of a configuration, and what they are as texts and as whole numbers. A null value and a
list remember which source they were read from, for the messages that refuse them. -/

namespace CaptureAudit

/-- Members of a table have ascending names. -/
inductive Setting where
  | null (source : Option String)
  | bool (b : Bool)
  | whole (n : Int)
  | real (x : Float)
  | text (s : String)
  | list (source : Option String) (items : List Setting)
  | table (members : List (String × Setting))

namespace Setting

def absent : Setting := .null none

def emptyTable : Setting := .table []

/-- The members of a table; no other value has any. -/
def members : Setting → List (String × Setting)
  | .table members => members
  | _ => []

/-- The items of a list, and where it was read; no other value has any. -/
def items : Setting → Option String × List Setting
  | .list source items => (source, items)
  | _ => (none, [])

def refusal (found expected : String) (source : Option String) : String :=
  match source with
  | some name => s!"invalid type: {found}, expected {expected} in {name}"
  | none => s!"invalid type: {found}, expected {expected}"

/-- The value as a text, or why it is none. -/
def toText : Setting → Except String String
  | .text s => .ok s
  | .bool true => .ok "true"
  | .bool false => .ok "false"
  | .whole n => .ok (String.ofList (Decimal.intText n))
  | .real x => .ok (Decimal.Style.display.write x)
  | .null source => .error (refusal "unit value" "a string" source)
  | .list source _ => .error (refusal "sequence" "a string" source)
  | .table _ => .error (refusal "map" "a string" none)

/-- Words that stand for one and for zero. -/
def truthOf? (s : String) : Option Int :=
  match Text.lowercase s with
  | "true" => some 1
  | "on" => some 1
  | "yes" => some 1
  | "false" => some 0
  | "off" => some 0
  | "no" => some 0
  | _ => none

/-- The value as a signed whole number of 64 bits. Other numbers are rounded, a half away from zero.
-/
def toInt? : Setting → Option Int
  | .text s => (truthOf? s).or (Decimal.readSigned? s)
  | .bool b => some (if b then 1 else 0)
  | .whole n => if -0x8000000000000000 ≤ n ∧ n < 0x8000000000000000 then some n else none
  | .real x => some (Decimal.toInt64 x)
  | _ => none

/-- A list all of whose items are texts. -/
def toTexts? : Setting → Option (List String)
  | .list _ items => items.mapM fun s => (toText s).toOption
  | _ => none

end Setting

end CaptureAudit
