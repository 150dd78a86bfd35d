import CaptureAudit.Archive.Walk
import CaptureAudit.Check.Basic
import CaptureAudit.Report.Basic

/-! Checks run against an archive. An error or a panic of a check skips that check alone, checks
named by the skip list are not run, and once the analysis is cancelled no further check is run. -/

namespace CaptureAudit

def panicText (message : Option String) : String := message.getD "unknown panic"

/-- The outcome of a check by the ending of its script, with what the runner adds to the trace. -/
def conclude (code : String) : Ending × Trace → Outcome × Trace
  | (.outcome o, t) => (o, t)
  | (.error chain, t) =>
    let text := String.intercalate ": " chain
    (.skipped, { t with
      examples := t.examples.setError text
      events := t.events ++ [⟨.warn, .runner, s!"Check {code} could not complete: {text}"⟩] })
  | (.panic message, t) =>
    let text := panicText message
    (.skipped, { t with
      examples := t.examples.setError s!"check panicked: {text}"
      events := t.events ++ [⟨.warn, .runner, s!"Check {code} panicked: {text}"⟩] })

/-- What a check does with an archive; without a handler it only says so. -/
def Check.script (c : Check) (archive : Archive) : Script Outcome :=
  match c.handler with
  | some handler => handler c.descriptor archive
  | none => do
    Script.note ⟨.warn, .runner, s!"Check {c.code} has no implementation"⟩
    Script.complain "check has no implementation"
    pure .skipped

/-- Run one check with fresh evidence. -/
def runCheck (signal : Nat → Bool) (cancelled : Bool) (limit : UInt64) (archive : Archive)
    (c : Check) : Outcome × Trace :=
  conclude c.code ((c.script archive).run signal (.fresh limit cancelled))

structure Runner where
  limit : UInt64
  skip : List String
  workers : Nat

namespace Runner

def standard : Runner := ⟨5, [], 1⟩

def ofLimits (limit : UInt64) (skip : List String) (workers : Nat) : Runner :=
  ⟨limit, skip, max 1 workers⟩

/-- The check is on the skip list, up to the case of ASCII letters. -/
def skips (r : Runner) (c : Check) : Bool :=
  r.skip.any (Text.eqIgnoreAsciiCase · c.code)

/-- The result of a check that does not run. -/
def notRun (r : Runner) (c : Check) (error : Option String) : CheckResult :=
  .ofOutcome c.descriptor .skipped { Examples.empty r.limit with error }

/-- What is kept of a check that ran: nothing but its evidence when the analysis was cancelled
meanwhile. -/
def keep (c : Check) (o : Outcome) (examples : Examples) (cancelled : Bool) : CheckResult :=
  if cancelled then .ofOutcome c.descriptor .skipped (examples.setError cancelledError)
  else .ofOutcome c.descriptor o examples

/-- The event that tells how a check that ran was kept. -/
def keepEvent (c : Check) (o : Outcome) (examples : Examples) (cancelled : Bool) : Event :=
  if cancelled then ⟨.warn, .runner, s!"Check {c.code} was interrupted by cancellation"⟩
  else
    ⟨.debug, .runner,
      s!"Check {c.code} finished: {o.label} with {examples.offered.toNat} example(s)"⟩

/-- Result and events of one check, and whether the analysis is cancelled after it. -/
structure Step where
  result : CheckResult
  events : List Event
  cancelled : Bool

def execute (r : Runner) (archive : Archive) (cancelled : Bool) (c : Check) : Step :=
  if r.skips c then
    ⟨r.notRun c none, [⟨.debug, .runner, s!"Skipping check {c.code}"⟩], cancelled⟩
  else if cancelled then ⟨r.notRun c (some cancelledError), [], cancelled⟩
  else
    let (o, t) := runCheck (fun _ => false) cancelled r.limit archive c
    ⟨keep c o t.examples t.cancelled, t.events ++ [keepEvent c o t.examples t.cancelled],
      t.cancelled⟩

def executeAll (r : Runner) (archive : Archive) : Bool → List Check → List Step
  | _, [] => []
  | cancelled, c :: rest =>
    let step := r.execute archive cancelled c
    step :: r.executeAll archive step.cancelled rest

/-- The metadata of an archive, empty when there is none that can be read. -/
def metadataOf (archive : Archive) : CaptureMetadata × List Event :=
  let events := archive.loadEvents [.captureMetadata]
  match archive.metadata with
  | .ok m => (m, events)
  | .error e =>
    let text :=
      if e.isNoMatches then "Archive has no gather metadata"
      else s!"Ignoring unreadable gather metadata: {e.message}"
    ({}, events ++ [⟨.warn, .runner, text⟩])

/-- The report of all checks, in their order, and the events of the run. -/
def run (r : Runner) (archive : Archive) (time : Timestamp) (cancelled : Bool)
    (checks : List Check) : Report × List Event :=
  let (metadata, before) := metadataOf archive
  let start : Event := ⟨.info, .runner,
    s!"Running {checks.length} checks with {r.workers} worker(s), {r.skip.length} skipped"⟩
  let steps := r.executeAll archive cancelled checks
  let report := Report.ofResults time metadata r.skip (steps.map Step.result)
  let finish : Event := ⟨.info, .runner, s!"Analysis complete: {report.outcomes.describe}"⟩
  (report, before ++ start :: steps.flatMap Step.events ++ [finish])

end Runner

end CaptureAudit
