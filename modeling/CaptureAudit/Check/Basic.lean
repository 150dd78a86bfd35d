import CaptureAudit.Archive.Basic
import CaptureAudit.Check.Script
import CaptureAudit.Descriptor

/-! Checks: a descriptor and what the check does with an archive. -/

namespace CaptureAudit

/-- Must depend on nothing but the descriptor and the archive. -/
abbrev Handler := Descriptor → Archive → Script Outcome

structure Check where
  descriptor : Descriptor
  handler : Option Handler

namespace Check

def code (c : Check) : String := c.descriptor.code

end Check

namespace Tunable

/-- A listing of all parts. -/
def debugText (t : Tunable) : String :=
  let unit := match t.unit with
    | .percentage => "Percentage"
    | .int => "Int"
    | .uint => "UInt"
  let number := Decimal.Style.debug.write
  let override := match t.override with
    | some x => "Some(" ++ number x ++ ")"
    | none => "None"
  "CheckConfiguration \x7b key: " ++ Text.quoted t.key ++ ", check: " ++ Text.quoted t.check ++
    ", description: " ++ Text.quoted t.description ++ ", default: " ++ number t.default ++
    ", unit: " ++ unit ++ ", set_value: " ++ override ++ " \x7d"

end Tunable

namespace Check

/-- A listing of all parts. Of the handler it only shows that there is one. -/
def debugText (c : Check) : String :=
  let d := c.descriptor
  let tunables := d.tunables.entries.map fun e => Text.quoted e.1 ++ ": " ++ e.2.debugText
  let handler := if c.handler.isSome then "Some(\"<handler>\")" else "None"
  "Check \x7b code: " ++ Text.quoted d.code ++ ", suite: " ++ Text.quoted d.suite ++ ", name: " ++
    Text.quoted d.name ++ ", description: " ++ Text.quoted d.description ++
    ", configuration: \x7b" ++ String.intercalate ", " tunables ++ "\x7d, handler: " ++ handler ++
    " \x7d"

end Check

end CaptureAudit
