import CaptureAudit.Text.Quoted
import CaptureAudit.Text.Split

/-! Events that a run tells of while it goes on. -/

namespace CaptureAudit

inductive Level where
  | error
  | warn
  | info
  | debug
  deriving DecidableEq, Repr

def Level.name : Level → String
  | .error => "ERROR"
  | .warn => "WARN"
  | .info => "INFO"
  | .debug => "DEBUG"

/-- Lower ranks matter more. -/
def Level.rank : Level → Nat
  | .error => 0
  | .warn => 1
  | .info => 2
  | .debug => 3

inductive Origin where
  | archive
  | reader
  | catalog
  | settings
  | runner
  | metaChecks
  | serverChecks
  | program
  deriving DecidableEq, Repr

def Origin.name : Origin → String
  | .archive => "audit_archive::archive"
  | .reader => "audit_archive::reader"
  | .catalog => "audit_common::registry"
  | .settings => "audit_common::configuration"
  | .runner => "audit_common::runner"
  | .metaChecks => "audit_module_meta_checks"
  | .serverChecks => "audit_module_server_checks"
  | .program => "audit_process_analyze"

structure Event where
  level : Level
  origin : Origin
  text : String
  deriving DecidableEq, Repr

namespace Event

def isAtLeast (level : Level) (e : Event) : Bool :=
  e.level.rank ≤ level.rank

/-- A character of an event as it is printed. Those on which a terminal acts become escapes. -/
def printedChar (c : Char) : List Char :=
  if ['\x07', '\x08', '\x0c', '\x1b', '\x7f'].contains c then
    ['\\', 'x'] ++ (Text.hex (0x100 + c.toNat)).drop 1
  else if 0x80 ≤ c.toNat ∧ c.toNat ≤ 0x9f then
    ['\\', 'u', '\x7b'] ++ Text.hex c.toNat ++ ['\x7d']
  else [c]

/-- The printed lines of an event, without its time. -/
def lines (e : Event) : List String :=
  let text := String.ofList (e.text.toList.flatMap printedChar)
  Text.lines s!"{e.level.name} {e.origin.name}: {text}"

end Event

end CaptureAudit
