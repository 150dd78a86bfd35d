import CaptureAudit.Decimal.Reading
import CaptureAudit.Json.Reader
import CaptureAudit.Text.Blank
import CaptureAudit.Text.Lowercase

/-! Tunable values of checks: a default, a unit that fixes which texts are accepted, and the value
that was set last. Percentages are kept as fractions of one. -/

namespace CaptureAudit

inductive ConfigurationError where
  | parse (key value reason : String)
  | negativePercentage (key : String)
  | percentageTooLarge (key : String)
  | negativeValue (key : String)
  | unknownItem (item : String)
  deriving DecidableEq, Repr

def ConfigurationError.message : ConfigurationError → String
  | .parse key value reason => s!"invalid value '{value}' for {key}: {reason}"
  | .negativePercentage key => s!"percentage values must be positive ({key})"
  | .percentageTooLarge key => s!"percentage values may not exceed 100 ({key})"
  | .negativeValue key => s!"value must be positive ({key})"
  | .unknownItem item => s!"unknown configuration item '{item}'"

inductive Measure where
  | percentage
  | int
  | uint
  deriving DecidableEq, Repr

namespace Measure

def name : Measure → String
  | .percentage => "%"
  | .int => "int"
  | .uint => "uint"

def all : List Measure := [.percentage, .int, .uint]

def read : Json.Reader Measure :=
  Json.Reader.variant (all.map fun m => (m.name, m))

def toJson (m : Measure) : Json.Value := .text m.name

end Measure

/-- `check` is the code of the owning check. -/
structure Tunable where
  key : String
  check : String
  description : String
  default : Float
  unit : Measure
  override : Option Float
  deriving DecidableEq

namespace Tunable

def value (t : Tunable) : Float := t.override.getD t.default

/-- The name of an item across all checks. -/
def itemName (code key : String) : String := s!"{Text.lowercase code}_{key}"

def item (t : Tunable) : String := itemName t.check t.key

/-- A finite number; `whole` is the text that a refusal quotes. -/
def readNumber (key whole text : String) : Except ConfigurationError Float :=
  match Decimal.read text with
  | .error refusal => .error (.parse key whole refusal.message)
  | .ok x => if x.isFinite then .ok x else .error (.parse key whole "not a finite number")

/-- The text without percent signs at its end and blanks before them. -/
def dropPercent (text : String) : String :=
  String.ofList (Text.trimRight (text.toList.reverse.dropWhile (· = '%')).reverse)

/-- The value of a text: percentages above one are taken for hundredths. -/
def accept (unit : Measure) (key text : String) : Except ConfigurationError Float :=
  let raw := Text.trim text
  match unit with
  | .percentage => do
    let x ← readNumber key text (dropPercent raw)
    if x < 0 then .error (.negativePercentage key)
    else if 100 < x then .error (.percentageTooLarge key)
    else .ok (if 1 < x then x / 100 else x)
  | .uint => do
    let x ← readNumber key text raw
    if x < 0 then .error (.negativeValue key) else .ok x
  | .int => readNumber key text raw

def set (t : Tunable) (text : String) : Except ConfigurationError Tunable :=
  (accept t.unit t.key text).map fun x => { t with override := some x }

/-- Percentages are shown with at most two places. -/
def display (t : Tunable) : String :=
  match t.unit with
  | .percentage =>
    Decimal.Style.display.write (Decimal.roundHalfAway (t.value * 10000) / 100) ++ "%"
  | _ => Decimal.Style.display.write t.value

def toJson (t : Tunable) : Json.Value :=
  .object ([("key", .text t.key), ("check", .text t.check), ("description", .text t.description),
    ("default", .ofFloat t.default), ("unit", t.unit.toJson)] ++
    Json.Value.optionalMember "set_value" .ofFloat t.override)

def record : Json.Record Tunable where
  label := "CheckConfiguration"
  blank := ⟨"", "", "", 0, .int, none⟩
  fields := [
    .needed "key" Json.Reader.text fun v t => { t with key := v },
    .defaulted "check" Json.Reader.text fun v t => { t with check := v },
    .needed "description" Json.Reader.text fun v t => { t with description := v },
    .needed "default" Json.Reader.real fun v t => { t with default := v },
    .needed "unit" Measure.read fun v t => { t with unit := v },
    .defaulted "set_value" (Json.Reader.optional Json.Reader.real)
      fun v t => { t with override := v }]

end Tunable

end CaptureAudit
