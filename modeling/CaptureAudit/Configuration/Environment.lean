import CaptureAudit.Configuration.Basic
import CaptureAudit.Decimal.Reading

/-! Entries of a configuration that come from environment variables. -/

namespace CaptureAudit.Environment

/-- What the names of the variables begin with, up to case. -/
def mark : List Char := "audit_".toList

/-- The source that is named when an entry is refused. -/
def source : String := "the environment"

/-- The variable that holds a list. -/
def listKey : String := "skip"

/-- Two underscores in a row stand for a point. -/
def pointed : List Char → List Char
  | '_' :: '_' :: cs => '.' :: pointed cs
  | c :: cs => c :: pointed cs
  | [] => []

/-- The key of a variable, none when its name has not the mark. -/
def key? (name : String) : Option String :=
  let cs := (Text.lowercase name).toList
  if cs.take mark.length = mark then some (String.ofList (pointed (cs.drop mark.length))) else none

def truth? (text : String) : Option Bool :=
  match Text.lowercase text with
  | "true" => some true
  | "false" => some false
  | _ => none

/-- A truth value, else a whole number, else another number, else a text or a list of texts. -/
def setting (key text : String) : Setting :=
  match truth? text, Decimal.readSigned? text, Decimal.read text with
  | some b, _, _ => .bool b
  | none, some n, _ => .whole n
  | none, none, .ok x => .real x
  | none, none, .error _ =>
    if key = listKey then .list (some source) ((Text.split ',' text).map .text) else .text text

def entry? (v : String × String) : Option (String × Setting) :=
  (key? v.1).map fun key => (key, setting key v.2)

/-- The entries of the variables, by key. -/
def entries (environment : List (String × String)) : List (String × Setting) :=
  (SortedMap.ofList (environment.filterMap entry?)).entries

end CaptureAudit.Environment
