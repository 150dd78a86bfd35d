import CaptureAudit.Json.Reader
import CaptureAudit.Timestamp.Reading

/-! When, by whom and through which server a capture was gathered. -/

namespace CaptureAudit

namespace Timestamp

def readJson : Json.Reader Timestamp :=
  Json.Reader.refine "an RFC 3339 formatted date and time string" fun s =>
    (Timestamp.read s).mapError Fault.message

def toJson (t : Timestamp) : Json.Value := .text t.toText

end Timestamp

structure CaptureMetadata where
  captured : Option Timestamp := none
  serverName : String := ""
  serverVersion : String := ""
  connectUrl : String := ""
  userName : String := ""
  cliVersion : String := ""
  deriving DecidableEq

namespace CaptureMetadata

open Json (Reader)

def isEmpty (m : CaptureMetadata) : Bool := m = {}

def record : Json.Record CaptureMetadata where
  label := "AuditMetadata"
  blank := {}
  fields := [
    .defaulted "capture_timestamp" (Reader.optional Timestamp.readJson)
      fun v m => { m with captured := v },
    .defaulted "connected_server_name" Reader.text fun v m => { m with serverName := v },
    .defaulted "connected_server_version" Reader.text fun v m => { m with serverVersion := v },
    .defaulted "connect_url" Reader.text fun v m => { m with connectUrl := v },
    .defaulted "user_name" Reader.text fun v m => { m with userName := v },
    .defaulted "cli_version" Reader.text fun v m => { m with cliVersion := v }]

def toJson (m : CaptureMetadata) : Json.Value :=
  .object (Json.Value.optionalMember "capture_timestamp" Timestamp.toJson m.captured ++
    [("connected_server_name", .text m.serverName),
      ("connected_server_version", .text m.serverVersion), ("connect_url", .text m.connectUrl),
      ("user_name", .text m.userName), ("cli_version", .text m.cliVersion)])

end CaptureMetadata

end CaptureAudit
