import CaptureAudit.Tunable

/-! What a check says of itself. A report keeps the descriptors of its checks. -/

namespace CaptureAudit

/-- Two descriptors with the same parts are the same check. -/
structure Descriptor where
  code : String
  suite : String
  name : String
  description : String
  tunables : SortedMap String Tunable
  deriving DecidableEq

namespace Descriptor

def plain (code suite name description : String) : Descriptor :=
  ⟨code, suite, name, description, .empty⟩

def withTunable (d : Descriptor) (key description : String) (default : Float) (unit : Measure) :
    Descriptor :=
  { d with tunables := d.tunables.insert key ⟨key, "", description, default, unit, none⟩ }

def value? (d : Descriptor) (key : String) : Option Float :=
  (d.tunables.get? key).map Tunable.value

def toJson (d : Descriptor) : Json.Value :=
  .object [("code", .text d.code), ("suite", .text d.suite), ("name", .text d.name),
    ("description", .text d.description),
    ("configuration", .object (d.tunables.entries.map fun e => (e.1, e.2.toJson)))]

def record : Json.Record Descriptor where
  label := "Check"
  blank := plain "" "" "" ""
  fields := [
    .needed "code" Json.Reader.text fun v d => { d with code := v },
    .defaulted "suite" Json.Reader.text fun v d => { d with suite := v },
    .needed "name" Json.Reader.text fun v d => { d with name := v },
    .needed "description" Json.Reader.text fun v d => { d with description := v },
    .defaulted "configuration" (Json.Reader.dictionary Tunable.record.read)
      fun v d => { d with tunables := v }]

end Descriptor

end CaptureAudit
