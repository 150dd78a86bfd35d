import CaptureAudit.Archive.Walk
import CaptureAudit.Check.Basic

/-! The check of JetStream resources: memory and storage in use stay below their limits and below a
tunable share of them. -/

namespace CaptureAudit.ResourceUsage

def suite : String := "server"

def defaultThreshold : Float := 0.9

/-- What a server uses of a resource with a positive limit. -/
structure Usage where
  resource : String
  used : UInt64
  limit : UInt64
  deriving DecidableEq

def Usage.ratio (u : Usage) : Float := u.used.toFloat / u.limit.toFloat

def memory : String := "memory"

def storage : String := "storage"

def usage? (resource : String) (used : UInt64) (limit : Int64) : Option Usage :=
  if 0 < limit then some ⟨resource, used, limit.toUInt64⟩ else none

def usages (data : JetStream) : List Usage :=
  match data.limits with
  | none => []
  | some l => (usage? memory data.memory l.maxMemory).toList ++
      (usage? storage data.storage l.maxStorage).toList

def percent (places : Nat) (share : Float) : String :=
  Decimal.fixedPlaces places (share * 100)

def overLimitText (cluster server : String) (u : Usage) : String :=
  s!"{cluster} - {server} {u.resource} usage {percent 1 u.ratio}% exceeds its limit " ++
    s!"({u.used.toNat} of {u.limit.toNat} bytes)"

def aboveThresholdText (cluster server : String) (u : Usage) (threshold : Float) : String :=
  s!"{cluster} - {server} {u.resource} usage {percent 1 u.ratio}% is above the " ++
    s!"{percent 0 threshold}% threshold"

/-- Record a usage that is too high. The answer is one when it is above the limit itself. -/
def judgeUsage (threshold : String → Float) (v : Visit) (u : Usage) : Script Nat :=
  if 1 < u.ratio then do
    Script.record (overLimitText v.cluster v.server u)
    pure 1
  else if threshold u.resource < u.ratio then do
    Script.record (aboveThresholdText v.cluster v.server u (threshold u.resource))
    pure 0
  else pure 0

def judgeUsages (threshold : String → Float) (v : Visit) : List Usage → Nat → Script Nat
  | [], exceeded => pure exceeded
  | u :: rest, exceeded => do
    let n ← judgeUsage threshold v u
    judgeUsages threshold v rest (exceeded + n)

def visitServer (threshold : String → Float) (exceeded : Nat) (v : Visit) : Script Nat := do
  v.events.forM Script.note
  Script.checkpoint
  match v.snapshot with
  | .error e =>
    if e.isNoMatches then do
      Script.note ⟨.warn, .serverChecks, s!"Artifact 'JSZ' is missing for server {v.server}"⟩
      pure exceeded
    else .fail [s!"failed to load JSZ for server {v.server}: {e.message}"]
  | .ok snapshot =>
    match snapshot.data with
    | none => pure exceeded
    | some data =>
      if data.disabled then pure exceeded
      else judgeUsages threshold v (usages data) exceeded

/-- The share of a resource that may be in use. -/
def threshold (d : Descriptor) (resource : String) : Float :=
  (d.value? resource).getD defaultThreshold

def resourceUsage : Handler := fun d archive => do
  let exceeded ← archive.visits.foldlM (visitServer (threshold d)) 0
  if 0 < exceeded then do
    Script.note ⟨.error, .serverChecks, s!"Found {exceeded} JetStream resource(s) over their limit"⟩
    pure .fail
  else do
    let e ← Script.evidence
    if e.isEmpty then pure .pass
    else do
      Script.note ⟨.warn, .serverChecks,
        s!"Found {e.offered.toNat} JetStream resource(s) above the usage threshold"⟩
      pure .passWithIssues

def descriptor : Descriptor :=
  ((Descriptor.plain "SERVER_001" suite "JetStream resource usage"
    "JetStream memory and storage usage is below the configured thresholds").withTunable
      memory "Threshold for memory usage relative to the configured maximum"
      defaultThreshold .percentage).withTunable
    storage "Threshold for storage usage relative to the configured maximum"
    defaultThreshold .percentage

def checks : List Check := [{ descriptor, handler := some resourceUsage }]

end CaptureAudit.ResourceUsage
