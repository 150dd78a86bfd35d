import CaptureAudit.Configuration.Files
import CaptureAudit.Program.Analyze
import CaptureAudit.Report.Text

/-! The program: what a command prints, and how it ends. -/

namespace CaptureAudit

/-- How the program ends: its exit status, what it printed, and the failure that ended it. -/
structure Completion where
  status : Nat
  output : String
  failure : Option Failure
  deriving DecidableEq

namespace Completion

def success (output : String) : Completion := ⟨0, output, none⟩

def failed (f : Failure) : Completion := ⟨1, "", some f⟩

end Completion

/-- The lines of a cause behind a first mark, further lines under the first. -/
def indentCause (first further cause : String) : String :=
  first ++ String.intercalate ("\n" ++ further) (Text.split '\n' cause)

/-- The causes of a failure, numbered when there are several. -/
def causeLines : List String → List String
  | [] => []
  | [cause] => [indentCause "    " "    " cause]
  | causes => causes.zipIdx.map fun (cause, n) =>
    indentCause (padLeft 5 (String.ofList (Decimal.natText n)) ++ ": ") "       " cause

def Failure.report : Failure → String
  | [] => "Error: \n"
  | [message] => s!"Error: {message}\n"
  | message :: causes =>
    s!"Error: {message}\n\nCaused by:\n" ++ String.intercalate "\n" (causeLines causes) ++ "\n"

/-- Analyze and print the report. Failed checks make the program fail. -/
def runAnalyze (verbose : Bool) (c : Configuration) (request : AnalysisRequest)
    (processors : Option Nat := some 1) : Session Completion := do
  match ← analyze request c processors with
  | .error e => pure (.failed e)
  | .ok report =>
    let output := report.render verbose
    if report.hasFailures then do
      Session.note ⟨.warn, .program, s!"{report.count .fail} check(s) failed"⟩
      pure ⟨1, output, none⟩
    else pure (.success output)

def listChecks (c : Configuration) : Session Completion := do
  match Catalog.builtIn with
  | .error e => pure (.failed e)
  | .ok catalog =>
    Session.notes Catalog.builtInEvents
    let configured := c.configure catalog []
    Session.notes configured.events
    match configured.error with
    | some e => pure (.failed e)
    | none =>
      let checks := configured.catalog.checkList.map Check.descriptor
      pure (.success (renderChecks checks configured.catalog.tunables))

def runView (verbose : Bool) (path : String) : Session Completion := do
  match ← Report.load path with
  | .error e => pure (.failed (s!"failed to load analysis {path}" :: e.chain))
  | .ok report => pure (.success (report.render verbose))

/-- Carry out a command on a machine with so many processors; the configuration is read first,
whether the command needs it or not. -/
def runProgram (i : Invocation) (environment : List (String × String))
    (processors : Option Nat := some 1) : Session Completion := do
  match ← Configuration.load i.configuration environment with
  | .error e => pure (.failed e)
  | .ok c =>
    match i.command with
    | .analyze request => runAnalyze i.verbose c request processors
    | .checks => listChecks c
    | .view path => runView i.verbose path

end CaptureAudit
