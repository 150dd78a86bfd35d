import CaptureAudit.Json.Reader

/-! What a server reports of its JetStream state, as far as the checks read it. Members of other
names are passed over and every member has a default, so that snapshots of other server
versions can be read. -/

namespace CaptureAudit

open Json (Record Field Reader Value)

/-- A member of the meta group as another member sees it; `active` counts nanoseconds. -/
structure Peer where
  name : String := ""
  current : Bool := false
  offline : Bool := false
  active : UInt64 := 0
  lag : UInt64 := 0
  deriving DecidableEq

structure MetaGroup where
  name : Option String := none
  leader : String := ""
  peer : Option String := none
  replicas : List Peer := []
  clusterSize : UInt32 := 0
  deriving DecidableEq

structure Limits where
  maxMemory : Int64 := 0
  maxStorage : Int64 := 0
  storeDir : String := ""
  deriving DecidableEq

structure JetStream where
  disabled : Bool := false
  limits : Option Limits := none
  memory : UInt64 := 0
  storage : UInt64 := 0
  reservedMemory : UInt64 := 0
  reservedStorage : UInt64 := 0
  metaGroup : Option MetaGroup := none
  deriving DecidableEq

structure ServerIdentity where
  name : String := ""
  host : String := ""
  id : String := ""
  cluster : Option String := none
  version : String := ""
  deriving DecidableEq

structure ApiError where
  code : UInt16 := 0
  description : String := ""
  deriving DecidableEq

structure Snapshot where
  server : Option ServerIdentity := none
  data : Option JetStream := none
  error : Option ApiError := none
  deriving DecidableEq

namespace Peer

def record : Record Peer where
  label := "PeerInfo"
  blank := {}
  fields := [
    .defaulted "name" Reader.text fun v p => { p with name := v },
    .defaulted "current" Reader.bool fun v p => { p with current := v },
    .defaulted "offline" Reader.bool fun v p => { p with offline := v },
    .defaulted "active" Reader.word64 fun v p => { p with active := v },
    .defaulted "lag" Reader.word64 fun v p => { p with lag := v }]

def toJson (p : Peer) : Value :=
  .object [("name", .text p.name), ("current", .bool p.current), ("offline", .bool p.offline),
    ("active", .ofNat p.active.toNat), ("lag", .ofNat p.lag.toNat)]

end Peer

namespace MetaGroup

def record : Record MetaGroup where
  label := "MetaClusterInfo"
  blank := {}
  fields := [
    .defaulted "name" (Reader.optional Reader.text) fun v m => { m with name := v },
    .defaulted "leader" Reader.text fun v m => { m with leader := v },
    .defaulted "peer" (Reader.optional Reader.text) fun v m => { m with peer := v },
    .defaulted "replicas" (Reader.list Peer.record.read) fun v m => { m with replicas := v },
    .defaulted "cluster_size" Reader.word32 fun v m => { m with clusterSize := v }]

def toJson (m : MetaGroup) : Value :=
  .object [("name", .ofOption .text m.name), ("leader", .text m.leader),
    ("peer", .ofOption .text m.peer), ("replicas", .array (m.replicas.map Peer.toJson)),
    ("cluster_size", .ofNat m.clusterSize.toNat)]

end MetaGroup

namespace Limits

def record : Record Limits where
  label := "JetStreamConfig"
  blank := {}
  fields := [
    .defaulted "max_memory" Reader.signed64 fun v l => { l with maxMemory := v },
    .defaulted "max_storage" Reader.signed64 fun v l => { l with maxStorage := v },
    .defaulted "store_dir" Reader.text fun v l => { l with storeDir := v }]

def toJson (l : Limits) : Value :=
  .object [("max_memory", .ofInt l.maxMemory.toInt), ("max_storage", .ofInt l.maxStorage.toInt),
    ("store_dir", .text l.storeDir)]

end Limits

namespace JetStream

def record : Record JetStream where
  label := "JetStreamInfo"
  blank := {}
  fields := [
    .defaulted "disabled" Reader.bool fun v j => { j with disabled := v },
    .defaulted "config" (Reader.optional Limits.record.read) fun v j => { j with limits := v },
    .defaulted "memory" Reader.word64 fun v j => { j with memory := v },
    .defaulted "storage" Reader.word64 fun v j => { j with storage := v },
    .defaulted "reserved_memory" Reader.word64 fun v j => { j with reservedMemory := v },
    .defaulted "reserved_storage" Reader.word64 fun v j => { j with reservedStorage := v },
    .defaulted "meta_cluster" (Reader.optional MetaGroup.record.read)
      fun v j => { j with metaGroup := v }]

def toJson (j : JetStream) : Value :=
  .object [("disabled", .bool j.disabled), ("config", .ofOption Limits.toJson j.limits),
    ("memory", .ofNat j.memory.toNat), ("storage", .ofNat j.storage.toNat),
    ("reserved_memory", .ofNat j.reservedMemory.toNat),
    ("reserved_storage", .ofNat j.reservedStorage.toNat),
    ("meta_cluster", .ofOption MetaGroup.toJson j.metaGroup)]

end JetStream

namespace ServerIdentity

def record : Record ServerIdentity where
  label := "ServerInfo"
  blank := {}
  fields := [
    .defaulted "name" Reader.text fun v s => { s with name := v },
    .defaulted "host" Reader.text fun v s => { s with host := v },
    .defaulted "id" Reader.text fun v s => { s with id := v },
    .defaulted "cluster" (Reader.optional Reader.text) fun v s => { s with cluster := v },
    .defaulted "ver" Reader.text fun v s => { s with version := v }]

def toJson (s : ServerIdentity) : Value :=
  .object [("name", .text s.name), ("host", .text s.host), ("id", .text s.id),
    ("cluster", .ofOption .text s.cluster), ("ver", .text s.version)]

end ServerIdentity

namespace ApiError

def record : Record ApiError where
  label := "ApiError"
  blank := {}
  fields := [
    .defaulted "code" Reader.word16 fun v e => { e with code := v },
    .defaulted "description" Reader.text fun v e => { e with description := v }]

def toJson (e : ApiError) : Value :=
  .object [("code", .ofNat e.code.toNat), ("description", .text e.description)]

end ApiError

namespace Snapshot

def record : Record Snapshot where
  label := "JszResponse"
  blank := {}
  fields := [
    .defaulted "server" (Reader.optional ServerIdentity.record.read)
      fun v s => { s with server := v },
    .defaulted "data" (Reader.optional JetStream.record.read) fun v s => { s with data := v },
    .defaulted "error" (Reader.optional ApiError.record.read) fun v s => { s with error := v }]

def toJson (s : Snapshot) : Value :=
  .object [("server", .ofOption ServerIdentity.toJson s.server),
    ("data", .ofOption JetStream.toJson s.data), ("error", .ofOption ApiError.toJson s.error)]

end Snapshot

end CaptureAudit
