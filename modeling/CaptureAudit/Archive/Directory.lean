import CaptureAudit.Archive.Basic
import CaptureAudit.Disk.Session

/-! Archives kept in a directory: a manifest names the payload files and their tags. -/

namespace CaptureAudit

open Json (Reader Record Value)

/-- A tag as the manifest writes it. Its dimension may be unknown. -/
structure WrittenTag where
  name : String
  value : String
  deriving DecidableEq

structure ManifestEntry where
  path : String
  tags : List WrittenTag
  deriving DecidableEq

structure Manifest where
  artifacts : List ManifestEntry
  deriving DecidableEq

namespace WrittenTag

def ofTag (t : Tag) : WrittenTag := ⟨t.dimension.name, t.value⟩

def toTag (t : WrittenTag) : Except ArchiveError Tag :=
  match Dimension.ofName? t.name with
  | some d => .ok ⟨d, t.value⟩
  | none => .error (.unknownDimension t.name)

def toJson (t : WrittenTag) : Value :=
  .object [("name", .text t.name), ("value", .text t.value)]

def record : Record WrittenTag where
  label := "ManifestTag"
  blank := ⟨"", ""⟩
  fields := [
    .needed "name" Reader.text fun v t => { t with name := v },
    .needed "value" Reader.text fun v t => { t with value := v }]

end WrittenTag

namespace ManifestEntry

def toJson (e : ManifestEntry) : Value :=
  .object [("path", .text e.path), ("tags", .array (e.tags.map WrittenTag.toJson))]

def record : Record ManifestEntry where
  label := "ManifestEntry"
  blank := ⟨"", []⟩
  fields := [
    .needed "path" Reader.text fun v e => { e with path := v },
    .needed "tags" (Reader.list WrittenTag.record.read) fun v e => { e with tags := v }]

end ManifestEntry

namespace Manifest

def fileName : String := "manifest.json"

def toJson (m : Manifest) : Value :=
  .object [("artifacts", .array (m.artifacts.map ManifestEntry.toJson))]

def record : Record Manifest where
  label := "Manifest"
  blank := ⟨[]⟩
  fields := [
    .needed "artifacts" (Reader.list ManifestEntry.record.read) fun v _ => ⟨v⟩]

end Manifest

/-- A relative path none of whose segments goes up. -/
def isContained (path : String) : Bool :=
  !Text.beginsWith '/' path && !(segments path).contains ".."

namespace Archive

/-- The artifact of a manifest entry. Its tags are looked at first, then its path, then its
dimensions, and the file last. -/
def loadEntry (dir manifestPath : String) (e : ManifestEntry) :
    Session (Except ArchiveError Artifact) :=
  if e.tags.isEmpty then pure (.error (.manifest manifestPath (.noTags e.path)))
  else if !isContained e.path then
    pure (.error (.manifest manifestPath (.leavesDirectory e.path)))
  else
    match e.tags.mapM WrittenTag.toTag with
    | .error err => pure (.error err)
    | .ok tags => do
      let path := joinPath dir e.path
      match ← Session.readFile path with
      | .error fault => pure (.error (.io path fault))
      | .ok payload => pure (.ok (.ofTags tags payload))

/-- The artifacts of the entries in order, up to the first fault. -/
def loadEntries (dir manifestPath : String) :
    List ManifestEntry → Session (Except ArchiveError (List Artifact))
  | [] => pure (.ok [])
  | e :: rest => do
    match ← loadEntry dir manifestPath e with
    | .error err => pure (.error err)
    | .ok artifact =>
      match ← loadEntries dir manifestPath rest with
      | .error err => pure (.error err)
      | .ok artifacts => pure (.ok (artifact :: artifacts))

def loadDirectory (dir : String) : Session (Except ArchiveError Archive) := do
  let manifestPath := joinPath dir Manifest.fileName
  match ← Session.readText manifestPath with
  | .error fault => pure (.error (.io manifestPath fault))
  | .ok content =>
    match Json.readText Manifest.record.read content with
    | .error fault => pure (.error (.manifest manifestPath (.shape fault)))
    | .ok manifest =>
      match ← loadEntries dir manifestPath manifest.artifacts with
      | .error err => pure (.error err)
      | .ok artifacts =>
        Session.note
          ⟨.debug, .archive, s!"Loaded {artifacts.length} artifacts from {dir}"⟩
        pure (.ok (.ofArtifacts artifacts))

/-- The name of a payload file: its position in four digits or more, and the artifact's type, else
its special value. -/
def payloadName (position : Nat) (a : Artifact) : String :=
  let kind := ((a.tagValue? .artifactType).or (a.tagValue? .special)).getD "artifact"
  String.ofList (padNat 4 position) ++ "_" ++ kind ++ ".json"

def manifestEntry (a : Artifact × Nat) : ManifestEntry :=
  ⟨payloadName a.2 a.1, a.1.tags.toList.map .ofTag⟩

def manifest (a : Archive) : Manifest :=
  ⟨a.artifacts.zipIdx.map manifestEntry⟩

def writePayloads (dir : String) : List (Artifact × Nat) → Session (Except IoFault Unit)
  | [] => pure (.ok ())
  | a :: rest => do
    match ← Session.writeFile (joinPath dir (payloadName a.2 a.1)) a.1.payload with
    | .error fault => pure (.error fault)
    | .ok () => writePayloads dir rest

def writeDirectory (a : Archive) (dir : String) : Session (Except IoFault Unit) := do
  match ← writePayloads dir a.artifacts.zipIdx with
  | .error fault => pure (.error fault)
  | .ok () =>
    Session.writeFile (joinPath dir Manifest.fileName) a.manifest.toJson.pretty.toUTF8

end Archive

end CaptureAudit
