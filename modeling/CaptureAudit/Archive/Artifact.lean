import CaptureAudit.Disk.Basic
import CaptureAudit.Json.Printer
import CaptureAudit.Tag

/-! Captured payloads and the tags under which they are stored. -/

namespace CaptureAudit

inductive ManifestFault where
  | shape (fault : Json.Fault)
  | noTags (path : String)
  | leavesDirectory (path : String)
  deriving DecidableEq

def ManifestFault.message : ManifestFault → String
  | .shape fault => fault.message
  | .noTags path => s!"artifact '{path}' has no tags"
  | .leavesDirectory path => s!"artifact path '{path}' leaves the archive directory"

inductive ArchiveError where
  | noMatches (tags : List Tag)
  | decode (tags : List Tag) (fault : Json.Fault)
  | encode (tags : List Tag) (reason : String)
  | io (path : String) (fault : IoFault)
  | manifest (path : String) (fault : ManifestFault)
  | unknownDimension (name : String)
  deriving DecidableEq

namespace ArchiveError

def message : ArchiveError → String
  | .noMatches tags => s!"no artifact matches {Tag.describe tags}"
  | .decode tags fault => s!"failed to decode artifact {Tag.describe tags}: {fault.message}"
  | .encode tags reason => s!"failed to encode artifact {Tag.describe tags}: {reason}"
  | .io path fault => s!"failed to read {path}: {fault.message}"
  | .manifest path fault => s!"invalid manifest {path}: {fault.message}"
  | .unknownDimension name => s!"unknown tag dimension '{name}'"

/-- The message and, when another error is behind it, that error's message too. -/
def chain (e : ArchiveError) : List String :=
  match e with
  | .decode _ fault => [e.message, fault.message]
  | .encode _ reason => [e.message, reason]
  | .io _ fault => [e.message, fault.message]
  | _ => [e.message]

/-- The data was not captured, as opposed to captured and unreadable. -/
def isNoMatches : ArchiveError → Bool
  | .noMatches _ => true
  | _ => false

end ArchiveError

structure Artifact where
  tags : SortedSet Tag
  payload : ByteArray
  deriving DecidableEq

namespace Artifact

def ofTags (tags : List Tag) (payload : ByteArray) : Artifact :=
  ⟨.ofList tags, payload⟩

/-- An artifact whose payload is the written form of a value, if it has one. -/
def encode (tags : List Tag) (payload : Except String Json.Value) : Except ArchiveError Artifact :=
  match payload with
  | .ok v => .ok (ofTags tags v.compact.toUTF8)
  | .error reason => .error (.encode tags reason)

/-- The artifact carries every tag of the query. -/
def carries (a : Artifact) (query : List Tag) : Bool :=
  query.all a.tags.contains

def tagValue? (a : Artifact) (d : Dimension) : Option String :=
  (a.tags.toList.find? (·.dimension = d)).map Tag.value

def decode {α : Type} (a : Artifact) (r : Json.Reader α) : Except ArchiveError α :=
  (Json.readBytes r a.payload).mapError (.decode a.tags.toList)

end Artifact

end CaptureAudit
