import CaptureAudit.Runner.Basic

/-! Checks run by several workers, one step at a time. A schedule says which check a worker takes up
next, whose script goes on, and when somebody outside cancels the analysis; all checks see the same
signal, which is never taken back. -/

namespace CaptureAudit

/-- A check that a worker has taken up. -/
structure Task where
  position : Nat
  check : Check
  script : Script Outcome
  trace : Trace

/-- Checks not taken up, checks taken up, and results, all with the positions of the checks. -/
structure Pool where
  waiting : List (Nat × Check)
  running : List Task
  finished : SortedMap Nat CheckResult
  fired : Bool

inductive Move where
  | fire
  | start (position : Nat)
  | advance (position : Nat)
  deriving DecidableEq, Repr

namespace Pool

def ofChecks (fired : Bool) (checks : List Check) : Pool :=
  ⟨checks.zipIdx.map fun c => (c.2, c.1), [], .empty, fired⟩

def isComplete (p : Pool) : Bool := p.waiting.isEmpty && p.running.isEmpty

/-- The results in the order of the checks. -/
def results (p : Pool) : List CheckResult := p.finished.values

def report (p : Pool) (r : Runner) (archive : Archive) (time : Timestamp) : Report :=
  .ofResults time (Runner.metadataOf archive).1 r.skip p.results

def finish (p : Pool) (position : Nat) (result : CheckResult) : Pool :=
  { p with
    waiting := p.waiting.filter (·.1 ≠ position)
    running := p.running.filter (·.position ≠ position)
    finished := p.finished.insert position result }

/-- Take up a waiting check, when a worker is free. Checks that do not run are finished at once. -/
def start (p : Pool) (r : Runner) (archive : Archive) (position : Nat) : Option Pool :=
  match p.waiting.find? (·.1 = position) with
  | none => none
  | some (_, c) =>
    if r.workers ≤ p.running.length then none
    else if r.skips c then some (p.finish position (r.notRun c none))
    else if p.fired then some (p.finish position (r.notRun c (some cancelledError)))
    else some { p with
      waiting := p.waiting.filter (·.1 ≠ position)
      running := ⟨position, c, c.script archive, .fresh r.limit false⟩ :: p.running }

/-- Replace a task by what is left of it. -/
def putTask (p : Pool) (t : Task) : Pool :=
  { p with
    running := p.running.map fun other => if other.position = t.position then t else other
    fired := p.fired || t.trace.cancelled }

def advance (p : Pool) (position : Nat) : Option Pool :=
  match p.running.find? (·.position = position) with
  | none => none
  | some task =>
    match task.script.step p.fired task.trace with
    | .going script trace => some (p.putTask { task with script, trace })
    | .ended ending =>
      let (o, t) := conclude task.check.code (ending, task.trace)
      some (p.finish position (Runner.keep task.check o t.examples p.fired))

def step (p : Pool) (r : Runner) (archive : Archive) : Move → Option Pool
  | .fire => some { p with fired := true }
  | .start position => p.start r archive position
  | .advance position => p.advance position

def follow (p : Pool) (r : Runner) (archive : Archive) (schedule : List Move) : Option Pool :=
  schedule.foldlM (fun p move => p.step r archive move) p

end Pool

end CaptureAudit
