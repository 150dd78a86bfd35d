import CaptureAudit.Archive.Basic
import CaptureAudit.CaptureMetadata
import CaptureAudit.Snapshot

/-! The servers of an archive's clusters and their snapshots, visited in ascending order. -/

namespace CaptureAudit

/-- A server of a cluster, what loading its snapshot gives, and what the loading tells of. -/
structure Visit where
  cluster : String
  server : String
  snapshot : Except ArchiveError Snapshot
  events : List Event

/-- The snapshots that could be read, by cluster and server. -/
abbrev Summary := SortedMap String (SortedMap String Snapshot)

def Summary.toJson (s : Summary) : Json.Value :=
  .object (s.entries.map fun c => (c.1, .object (c.2.entries.map fun e => (e.1, e.2.toJson))))

def Summary.record (s : Summary) (v : Visit) : Summary :=
  match v.snapshot with
  | .ok snapshot => s.alter v.cluster .empty (·.insert v.server snapshot)
  | .error _ => s

namespace Archive

def metadata (a : Archive) : Except ArchiveError CaptureMetadata :=
  a.load CaptureMetadata.record.read [.captureMetadata]

def clusters (a : Archive) : List String :=
  a.tagValues .cluster

def serversOf (a : Archive) (cluster : String) : List String :=
  a.tagValuesWith .server (.cluster cluster)

def visit (a : Archive) (cluster server : String) : Visit :=
  let query := [.cluster cluster, .server server, .snapshot]
  ⟨cluster, server, a.load Snapshot.record.read query, a.loadEvents query⟩

def visitsOf (a : Archive) (cluster : String) : List Visit :=
  (a.serversOf cluster).map (a.visit cluster)

def visits (a : Archive) : List Visit :=
  a.clusters.flatMap a.visitsOf

/-- Hand every visit to a callback and collect the snapshots that could be read. A failing callback
ends the walk. -/
def walk {m : Type → Type} [Monad m] (a : Archive) (callback : Visit → m Unit) : m Summary :=
  a.visits.foldlM (fun summary v => do
    callback v
    pure (summary.record v)) .empty

end Archive

end CaptureAudit
