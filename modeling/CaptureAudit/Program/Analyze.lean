import CaptureAudit.Archive.Directory
import CaptureAudit.Checks.MetaGroup
import CaptureAudit.Checks.ResourceUsage
import CaptureAudit.Configuration.Apply
import CaptureAudit.Program.RunSettings

/-! An analysis from its request to its report. Errors are messages from the outermost to their
root. -/

namespace CaptureAudit

abbrev Failure := List String

def Failure.line (f : Failure) : String := String.intercalate ": " f

namespace Catalog

def builtIn : Except Failure Catalog := do
  let catalog ← (empty.register MetaGroup.checks).mapError fun e =>
    ["failed to register meta checks", e.message]
  (catalog.register ResourceUsage.checks).mapError fun e =>
    ["failed to register server checks", e.message]

def builtInEvents : List Event :=
  registerEvents MetaGroup.checks ++ registerEvents ResourceUsage.checks

/-- Every check of one of the suites, up to the case of ASCII letters, or every check when no suite
is named. A suite of no check is refused. -/
def select (c : Catalog) (suites : List String) : Except Failure (List Check) :=
  let checks := c.checkList
  let isOf (check : Check) (suite : String) : Bool :=
    Text.eqIgnoreAsciiCase check.descriptor.suite suite
  if suites.isEmpty then .ok checks
  else
    match suites.find? fun suite => !checks.any (isOf · suite) with
    | some suite => .error [s!"unknown check suite '{suite}'"]
    | none => .ok (checks.filter fun check => suites.any (isOf check))

end Catalog

/-- The catalog with the configuration and the overrides of a request, and its selected checks. -/
def selectedChecks (request : AnalysisRequest) (c : Configuration) :
    Session (Except Failure (List Check)) := do
  match Catalog.builtIn with
  | .error e => pure (.error e)
  | .ok catalog =>
    Session.notes Catalog.builtInEvents
    let configured := c.configure catalog request.overrides
    Session.notes configured.events
    match configured.error with
    | some e => pure (.error e)
    | none => pure (configured.catalog.select request.suites)

/-- Save the report where the request asks for it. -/
def saveReport (request : AnalysisRequest) (report : Report) : Session (Except Failure Report) := do
  match request.save with
  | none => pure (.ok report)
  | some path =>
    match ← report.save path with
    | .error e => pure (.error (s!"failed to save analysis to {path}" :: e.chain))
    | .ok () =>
      Session.note ⟨.info, .program, s!"Saved analysis to {path}"⟩
      pure (.ok report)

def analyze (request : AnalysisRequest) (c : Configuration) (processors : Option Nat := some 1) :
    Session (Except Failure Report) := do
  match ← selectedChecks request c with
  | .error e => pure (.error e)
  | .ok checks =>
    Session.notes (RunSettings.events c)
    let settings := (RunSettings.ofConfiguration c processors).withRequest request
    match ← Archive.loadDirectory request.archive with
    | .error e => pure (.error (s!"failed to load archive {request.archive}" :: e.chain))
    | .ok archive =>
      Session.note
        ⟨.info, .program, s!"Loaded {archive.size} artifacts from {request.archive}"⟩
      let time ← Session.time
      let (report, events) := settings.runner.run archive time false checks
      Session.notes events
      saveReport request report

end CaptureAudit
