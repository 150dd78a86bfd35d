import CaptureAudit.CaptureMetadata
import CaptureAudit.Descriptor
import CaptureAudit.Disk.Session
import CaptureAudit.Json.Printer
import CaptureAudit.Examples
import CaptureAudit.Outcome

/-! The report of an analysis and its saved form. A saved report is taken only when its type, the
labels of its results and its tally agree with its results. -/

namespace CaptureAudit

open Json (Reader Record Value)

structure CheckResult where
  check : Descriptor
  outcome : Outcome
  label : String
  examples : Examples
  deriving DecidableEq

namespace CheckResult

def ofOutcome (check : Descriptor) (outcome : Outcome) (examples : Examples) : CheckResult :=
  ⟨check, outcome, outcome.label, examples⟩

def toJson (r : CheckResult) : Value :=
  .object [("check", r.check.toJson), ("outcome", .ofNat r.outcome.code),
    ("outcome_string", .text r.label), ("examples", r.examples.toJson)]

def record : Record CheckResult where
  label := "CheckResult"
  blank := ⟨.plain "" "" "" "", .pass, "", .empty 0⟩
  fields := [
    .needed "check" Descriptor.record.read fun v r => { r with check := v },
    .needed "outcome" Outcome.readCode fun v r => { r with outcome := v },
    .needed "outcome_string" Reader.text fun v r => { r with label := v },
    .needed "examples" Examples.record.read fun v r => { r with examples := v }]

end CheckResult

structure Report where
  type : String
  time : Timestamp
  metadata : CaptureMetadata
  skipped : List String
  results : List CheckResult
  outcomes : Tally
  deriving DecidableEq

inductive ReportError where
  | io (path : String) (fault : IoFault)
  | json (fault : Json.Fault)
  | unsupportedType (type : String)
  | inconsistentOutcome (code : String) (outcome : Outcome) (label : String)
  | inconsistentTally (checks : Nat)
  deriving DecidableEq

namespace ReportError

def message : ReportError → String
  | .io path fault => s!"failed to access {path}: {fault.message}"
  | .json fault => s!"invalid analysis report: {fault.message}"
  | .unsupportedType type => s!"unsupported report type '{type}'"
  | .inconsistentOutcome code outcome label =>
    s!"check {code} has outcome {outcome.label} but label '{label}'"
  | .inconsistentTally checks =>
    s!"outcome counts do not match the {checks} recorded checks"

def chain (e : ReportError) : List String :=
  match e with
  | .io _ fault => [e.message, fault.message]
  | .json fault => [e.message, fault.message]
  | _ => [e.message]

end ReportError

namespace Report

def formatType : String := "io.nats.audit.v1.analysis"

def tally (results : List CheckResult) : Tally :=
  Tally.ofOutcomes (results.map CheckResult.outcome)

def ofResults (time : Timestamp) (metadata : CaptureMetadata) (skipped : List String)
    (results : List CheckResult) : Report :=
  ⟨formatType, time, metadata, skipped, results, tally results⟩

def count (r : Report) (o : Outcome) : Nat := r.outcomes.count o

def hasFailures (r : Report) : Bool := 0 < r.count .fail

/-- The first result of a check whose code is the given one up to the case of ASCII letters. -/
def result? (r : Report) (code : String) : Option CheckResult :=
  r.results.find? fun result => Text.eqIgnoreAsciiCase result.check.code code

def toJson (r : Report) : Value :=
  .object [("type", .text r.type), ("time", r.time.toJson), ("metadata", r.metadata.toJson),
    ("skipped", .array (r.skipped.map .text)),
    ("checks", .array (r.results.map CheckResult.toJson)), ("outcomes", r.outcomes.toJson)]

def toText (r : Report) : String := r.toJson.pretty

/-- The time of a report whose time is missing, which is never read. -/
def epoch : Timestamp := ⟨⟨1970, 1, 1, 0, 0, 0, 0⟩, by decide⟩

def record : Record Report where
  label := "Analysis"
  blank := ⟨"", epoch, {}, [], [], .empty⟩
  fields := [
    .needed "type" Reader.text fun v r => { r with type := v },
    .needed "time" Timestamp.readJson fun v r => { r with time := v },
    .needed "metadata" CaptureMetadata.record.read fun v r => { r with metadata := v },
    .needed "skipped" (Reader.list Reader.text) fun v r => { r with skipped := v },
    .needed "checks" (Reader.list CheckResult.record.read) fun v r => { r with results := v },
    .needed "outcomes" Tally.read fun v r => { r with outcomes := v }]

/-- Refuse a report that does not agree with itself. -/
def verify (r : Report) : Except ReportError Report :=
  if r.type ≠ formatType then .error (.unsupportedType r.type)
  else
    match r.results.find? fun result => result.outcome.label ≠ result.label with
    | some result => .error (.inconsistentOutcome result.check.code result.outcome result.label)
    | none =>
      if r.outcomes ≠ tally r.results then .error (.inconsistentTally r.results.length) else .ok r

def ofText (s : String) : Except ReportError Report := do
  let r ← (Json.readText record.read s).mapError .json
  verify r

def save (r : Report) (path : String) : Session (Except ReportError Unit) := do
  match ← Session.writeFile path r.toText.toUTF8 with
  | .error fault => pure (.error (.io path fault))
  | .ok () => pure (.ok ())

def load (path : String) : Session (Except ReportError Report) := do
  match ← Session.readText path with
  | .error fault => pure (.error (.io path fault))
  | .ok content => pure (ofText content)

end Report

end CaptureAudit
