import CaptureAudit.Configuration.Basic
import CaptureAudit.Configuration.Toml.Document
import CaptureAudit.Json.Reader

/-! Documents that hold a configuration. -/

namespace CaptureAudit

namespace Setting

mutual

def ofJson (source : Option String) : Json.Value → Setting
  | .null => .null source
  | .bool b => .bool b
  | .number (.whole n) => .whole n
  | .number (.real x) => .real x
  | .text s => .text s
  | .array vs => .list source (ofItems source vs)
  | .object ms => .table (ofMembers source ms)

def ofItems (source : Option String) : List Json.Value → List Setting
  | [] => []
  | v :: vs => ofJson source v :: ofItems source vs

def ofMembers (source : Option String) : List (String × Json.Value) → List (String × Setting)
  | [] => []
  | (name, v) :: ms => (name, ofJson source v) :: ofMembers source ms

end

/-- The name of a value where a table is expected. -/
def found : Setting → String
  | .null _ => "unit value"
  | .bool b => s!"boolean `{b}`"
  | .whole n =>
    if n < 0x8000000000000000 then s!"64-bit integer `{n}`" else s!"64-bit unsigned integer `{n}`"
  | .real x => s!"floating point `{Decimal.Style.display.write x}`"
  | .text s => s!"string {Text.quoted s}"
  | .list _ _ => "sequence"
  | .table _ => "map"

end Setting

/-- The languages of configuration documents, in the order in which files are looked for. -/
inductive Format where
  | toml
  | json
  deriving DecidableEq, Repr

namespace Format

def all : List Format := [.toml, .json]

def extension : Format → String
  | .toml => "toml"
  | .json => "json"

/-- The entries of a document, or why there are none. -/
def read (source : Option String) (content : List Char) :
    Format → Except String (List (String × Setting))
  | .toml =>
    match Toml.read source content with
    | some entries => .ok entries
    | none => .error "malformed TOML"
  | .json =>
    let document := Json.Document.ofSource (content.map some)
    match document.read (Json.Reader.value Json.maxDepth) with
    | .ok (.object members) => .ok (Setting.ofMembers source members)
    | .ok v => .error (Setting.refusal (Setting.ofJson source v).found "a map" source)
    | .error fault => .error fault.message

end Format

def Configuration.ofText (format : Format) (content : String) : Except String Configuration :=
  (format.read none content.toList).map Configuration.ofEntries

end CaptureAudit
