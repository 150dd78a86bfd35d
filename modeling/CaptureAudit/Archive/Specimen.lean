import CaptureAudit.Archive.Walk

/-! Made-up snapshots and archives, on which checks are tried. -/

namespace CaptureAudit.Specimen

/-- Another member of the meta group, as a server sees it. -/
def peer (name : String) (offline : Bool) : Peer :=
  { name, current := !offline, offline }

/-- A server that knows the leader of the meta group and sees other members. -/
def withPeers (server leader : String) (peers : List (String × Bool)) : Snapshot :=
  let metaGroup : MetaGroup :=
    { leader, clusterSize := UInt32.ofNat peers.length + 1
      replicas := peers.map fun (name, offline) => peer name offline }
  { server := some { name := server }, data := some { metaGroup := some metaGroup } }

def member (server leader : String) : Snapshot := withPeers server leader []

/-- A server that uses so much of its memory and storage, next to their limits. -/
def withUsage (server : String) (memory : UInt64) (maxMemory : Int64) (storage : UInt64)
    (maxStorage : Int64) : Snapshot :=
  let s := member server server
  { s with data := s.data.map fun data =>
      { data with memory, storage, limits := some { maxMemory, maxStorage } } }

def disabled (server : String) : Snapshot :=
  { server := some { name := server }, data := some { disabled := true } }

def withoutMetaGroup (server : String) : Snapshot :=
  { server := some { name := server }, data := some {} }

def tags (cluster server kind : String) : List Tag :=
  [.cluster cluster, .server server, ⟨.artifactType, kind⟩]

def rawSnapshot (cluster server payload : String) : Artifact :=
  .ofTags (tags cluster server Tag.snapshot.value) payload.toUTF8

def snapshot (cluster server : String) (s : Snapshot) : Artifact :=
  rawSnapshot cluster server s.toJson.compact

/-- A server that was captured without its snapshot. -/
def other (cluster server : String) : Artifact :=
  .ofTags (tags cluster server "varz")
    (Json.Value.object [("server_name", .text server)]).compact.toUTF8

def metadata (m : CaptureMetadata) : Artifact :=
  .ofTags [.captureMetadata] m.toJson.compact.toUTF8

def agreeing : List Artifact :=
  [snapshot "C1" "srv1" (member "srv1" "srv1"), snapshot "C1" "srv2" (member "srv2" "srv1"),
    snapshot "C1" "srv3" (member "srv3" "srv1")]

def disagreeing : List Artifact :=
  [snapshot "C1" "srv1" (member "srv1" "srv1"), snapshot "C1" "srv2" (member "srv2" "srv1"),
    snapshot "C1" "srv3" (member "srv3" "srv2")]

def withoutSnapshots : List Artifact := [other "C2" "srv4", other "C2" "srv5"]

def withOfflinePeer : List Artifact :=
  [snapshot "C1" "srv1" (withPeers "srv1" "srv1" [("srv2", false), ("srv3", true)]),
    snapshot "C1" "srv2" (withPeers "srv2" "srv1" [("srv1", false), ("srv3", false)])]

end CaptureAudit.Specimen
