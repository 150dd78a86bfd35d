import CaptureAudit.Archive.Walk
import CaptureAudit.Check.Basic

/-! Checks of the meta group: no member is reported offline, and all servers of a cluster name the
same leader. -/

namespace CaptureAudit.MetaGroup

def suite : String := "meta"

/-- The leader recorded for servers that know none. -/
def noLeader : String := "NO_LEADER"

def warn (text : String) : Script Unit := .note ⟨.warn, .metaChecks, text⟩

/-- The evidence for a peer that a server sees offline. -/
def offlineText (cluster server peer : String) : String :=
  s!"{cluster} - {server} reports peer {peer} as offline"

/-- Record every replica that the snapshot marks offline. -/
def judgeReplicas (v : Visit) (snapshot : Snapshot) : Script Unit :=
  match snapshot.data with
  | none => warn s!"{v.cluster} / {v.server} returned no JetStream data"
  | some data =>
    if data.disabled then pure ()
    else
      match data.metaGroup with
      | none => warn s!"{v.cluster} / {v.server} does not have meta group info"
      | some group => (group.replicas.filter (·.offline)).forM fun p =>
        .record (offlineText v.cluster v.server p.name)

def visitReplicas (v : Visit) : Script Unit := do
  v.events.forM Script.note
  Script.checkpoint
  match v.snapshot with
  | .ok snapshot => judgeReplicas v snapshot
  | .error e =>
    if e.isNoMatches then warn s!"Artifact 'JSZ' is missing for server {v.server}"
    else .fail [s!"failed to load JSZ for server {v.server}: {e.message}"]

def concludeWith (instances : String) : Script Outcome := do
  let e ← Script.evidence
  if e.isEmpty then pure .pass
  else do
    Script.note ⟨.error, .metaChecks, s!"Found {e.offered.toNat} instance of {instances}"⟩
    pure .fail

def offlineReplicas : Handler := fun _ archive => do
  archive.visits.forM visitReplicas
  concludeWith "replicas marked offline by peers"

/-- The leader that a server of a cluster reports, if it takes part in the meta group. -/
def reportedLeader (v : Visit) : Script (Option String) := do
  Script.checkpoint
  v.events.forM Script.note
  match v.snapshot with
  | .error e =>
    if e.isNoMatches then do
      warn s!"Artifact 'JSZ' is missing for server {v.server} cluster {v.cluster}"
      pure none
    else .fail (s!"failed to load JSZ for server {v.server}" :: e.chain)
  | .ok snapshot =>
    match snapshot.data with
    | none => do
      warn s!"{v.cluster} / {v.server} returned no JetStream data"
      pure none
    | some data =>
      if data.disabled then pure none
      else
        match data.metaGroup with
        | none => do
          warn s!"{v.cluster} / {v.server} does not have meta group info"
          pure none
        | some group => pure (some (if group.leader.isEmpty then noLeader else group.leader))

abbrev Groups := SortedMap String (List String)

def collectGroups : List Visit → Groups → Script Groups
  | [], groups => pure groups
  | v :: rest, groups => do
    match ← reportedLeader v with
    | some leader => collectGroups rest (groups.alter leader [] (· ++ [v.server]))
    | none => collectGroups rest groups

def describeGroup (g : String × List String) : String :=
  g.1 ++ ": [" ++ String.intercalate ", " g.2 ++ "]"

def describeGroups (groups : Groups) : String :=
  String.intercalate ", " (groups.entries.map describeGroup)

/-- The evidence for a cluster whose servers disagree. -/
def disagreementText (cluster : String) (groups : Groups) : String :=
  s!"Members of {cluster} disagree on meta leader ({describeGroups groups})"

def judgeCluster (archive : Archive) (cluster : String) : Script Unit := do
  let groups ← collectGroups (archive.visitsOf cluster) .empty
  if 1 < groups.entries.length then .record (disagreementText cluster groups) else pure ()

def leaderAgreement : Handler := fun _ archive => do
  archive.clusters.forM (judgeCluster archive)
  concludeWith "replicas disagreeing on meta-cluster leader"

def checks : List Check :=
  [{ descriptor := .plain "META_001" suite "Meta cluster offline replicas"
      "All nodes part of the meta group are online"
     handler := some offlineReplicas },
   { descriptor := .plain "META_002" suite "Meta cluster leader"
      "All nodes part of the meta group agree on the meta cluster leader"
     handler := some leaderAgreement }]

end CaptureAudit.MetaGroup
