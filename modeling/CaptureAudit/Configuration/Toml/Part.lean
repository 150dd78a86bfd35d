import CaptureAudit.Configuration.Place

/-! The tables of a TOML document while it is read. What named a table first decides how it may be
named again: a table that a header only led through may get a header of its own, one made by a key
with points is filled by such keys alone, and nothing is put into a value. -/

namespace CaptureAudit.Toml

inductive Origin where
  /-- Led through by a header. -/
  | passed
  /-- Named by a key with points. -/
  | dotted
  /-- Named by a header of its own. -/
  | headed
  deriving DecidableEq, Repr

/-- Of the tables of a list only the last one is still open. -/
inductive Part where
  | value (s : Setting)
  | table (origin : Origin) (members : List (String × Part))
  | tables (before : List Setting) (members : List (String × Part))

namespace Part

def empty : Part := .table .headed []

def members? : Part → Option (List (String × Part))
  | .value _ => none
  | .table _ members => some members
  | .tables _ members => some members

def member? (name : String) (p : Part) : Option Part :=
  ((p.members?.getD []).find? fun e => e.1 == name).map Prod.snd

def put (p : Part) (name : String) (member : Part) : Option Part :=
  match p with
  | .value _ => none
  | .table origin members => some (.table origin (putEntry name member members))
  | .tables before members => some (.tables before (putEntry name member members))

/-- Change what stands at the names. Tables that are not there are made, with the given origin. A
key with points leads through no table that has a header of its own. -/
def alter (made : Origin) (f : Part → Option Part) : List String → Part → Option Part
  | [], p => f p
  | name :: names, p => do
    let below := (p.member? name).getD (.table made [])
    match made, below with
    | .dotted, .table .headed _ => none
    | _, _ => p.put name (← alter made f names below)

def isDotted : Part → Bool
  | .table .dotted _ => true
  | _ => false

/-- Put a value where none is. The names before the last one lead to its table, which a key with
points has made. -/
def insert (s : Setting) (names : List String) (p : Part) : Option Part := do
  let name ← names.getLast?
  let way := names.dropLast
  p.alter .dotted (fun table =>
    if (table.member? name).isSome || table.isDotted = way.isEmpty then none
    else table.put name (.value s)) way

mutual

def setting (source : Option String) : Part → Setting
  | .value s => s
  | .table _ members => .table (settings source members)
  | .tables before members => .list source (before ++ [.table (settings source members)])

def settings (source : Option String) : List (String × Part) → List (String × Setting)
  | [] => []
  | (name, p) :: rest => (name, p.setting source) :: settings source rest

end

def openTable (names : List String) (p : Part) : Option Part := do
  let name ← names.getLast?
  p.alter .passed (fun table =>
    match table.member? name with
    | none => table.put name .empty
    | some (.table .passed members) => table.put name (.table .headed members)
    | some _ => none) names.dropLast

def openItem (source : Option String) (names : List String) (p : Part) : Option Part := do
  let name ← names.getLast?
  p.alter .passed (fun table =>
    match table.member? name with
    | none => table.put name (.tables [] [])
    | some (.tables before members) =>
      table.put name (.tables (before ++ [.table (settings source members)]) [])
    | some _ => none) names.dropLast

end Part

end CaptureAudit.Toml
