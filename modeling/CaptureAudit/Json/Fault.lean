import CaptureAudit.Decimal.Style
import CaptureAudit.Text.Quoted

/-! Why a document cannot be read: it is not JSON, or it is and a value in it is not what is
expected at its place. -/

namespace CaptureAudit.Json

/-- What stands where something else is expected. -/
inductive Found where
  | whole (n : Int)
  | real (x : Float)
  | text (s : String)
  | bool (b : Bool)
  | null
  | sequence
  | map
  deriving DecidableEq

def Found.describe : Found → String
  | .whole n => s!"integer `{n}`"
  | .real x => s!"floating point `{Decimal.Style.document.write x}`"
  | .text s => s!"string {Text.quoted s}"
  | .bool b => s!"boolean `{b}`"
  | .null => "null"
  | .sequence => "sequence"
  | .map => "map"

inductive Mismatch where
  | wrongType (found : Found) (expected : String)
  | wrongValue (found : Found) (expected : String)
  | missingMember (name : String)
  | repeatedMember (name : String)
  | unknownVariant (name : String) (known : List String)
  /-- An array ends before the required element of that position. -/
  | wrongLength (position : Nat) (label : String) (count : Nat)
  /-- The value has the right type, and the domain refuses it. -/
  | refused (reason : String)
  deriving DecidableEq

def describeVariants (known : List String) : String :=
  match known.map fun k => s!"`{k}`" with
  | [] => "there are no variants"
  | [a] => s!"expected {a}"
  | [a, b] => s!"expected {a} or {b}"
  | names => "expected one of " ++ String.intercalate ", " names

def Mismatch.message : Mismatch → String
  | .wrongType found expected => s!"invalid type: {found.describe}, expected {expected}"
  | .wrongValue found expected => s!"invalid value: {found.describe}, expected {expected}"
  | .missingMember name => s!"missing field `{name}`"
  | .repeatedMember name => s!"duplicate field `{name}`"
  | .unknownVariant name known => s!"unknown variant `{name}`, {describeVariants known}"
  | .wrongLength position label count =>
    let elements := if count = 1 then "element" else "elements"
    s!"invalid length {position}, expected struct {label} with {count} {elements}"
  | .refused reason => reason

inductive Fault where
  | malformed
  | mismatch (m : Mismatch)
  deriving DecidableEq

def Fault.message : Fault → String
  | .malformed => "malformed JSON"
  | .mismatch m => m.message

end CaptureAudit.Json
