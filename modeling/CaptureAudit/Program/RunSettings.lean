import CaptureAudit.Configuration.Basic
import CaptureAudit.Event
import CaptureAudit.Program.Request
import CaptureAudit.Runner.Basic

/-! Settings of a run, from the configuration and from the request. -/

namespace CaptureAudit

structure RunSettings where
  examples : UInt64
  workers : Nat
  skip : List String
  deriving DecidableEq

namespace RunSettings

/-- One worker for every processor, four where their number is not known. -/
def defaultWorkers (processors : Option Nat) : Nat := processors.getD 4

def standard (processors : Option Nat) : RunSettings := ⟨5, defaultWorkers processors, []⟩

def examplesKey : String := "examples"

def workersKey : String := "workers"

def skipKey : String := "skip"

/-- A number of the configuration that is at least `least`. -/
def numberFrom (c : Configuration) (least : Int) (key : String) : Option Nat :=
  (c.int? key).bind fun n => if least ≤ n then some n.toNat else none

/-- The settings of a configuration, on a machine with so many processors. -/
def ofConfiguration (c : Configuration) (processors : Option Nat := some 1) : RunSettings where
  examples := ((numberFrom c 0 examplesKey).map UInt64.ofNat).getD (standard processors).examples
  workers := (numberFrom c 1 workersKey).getD (standard processors).workers
  skip := (c.texts? skipKey).getD []

/-- Warn of a number of the configuration that is below `least`. -/
def warnBelow (c : Configuration) (least : Int) (key : String) (text : Int → String) :
    List Event :=
  match c.int? key with
  | some n => if least ≤ n then [] else [⟨.warn, .settings, text n⟩]
  | none => []

/-- What reading the configuration tells of. -/
def events (c : Configuration) : List Event :=
  warnBelow c 0 examplesKey (fun n => s!"Ignoring negative {examplesKey} setting {n}") ++
    warnBelow c 1 workersKey fun n =>
      s!"Ignoring {workersKey} setting {n}, at least one worker is needed"

/-- At least one worker runs, and checks to skip are added to those of the configuration. -/
def withRequest (s : RunSettings) (request : AnalysisRequest) : RunSettings where
  examples := request.examples.getD s.examples
  workers := (request.workers.map (max 1)).getD s.workers
  skip := s.skip ++ request.skip

def runner (s : RunSettings) : Runner := .ofLimits s.examples s.skip s.workers

end RunSettings

end CaptureAudit
