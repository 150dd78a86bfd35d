import CaptureAudit.Check.Basic

/-! The catalog of checks: every check under its name, the lower-cased codes in use, and for every
tunable's item name the check and the key that lead to it. Checks enter in batches, each batch
as a whole or not at all. -/

namespace CaptureAudit

inductive RegistrationError where
  | missingCode (name : String)
  | missingName (code : String)
  | missingDescription (code : String)
  | missingHandler (code : String)
  | missingKey (code : String)
  | missingKeyDescription (code key : String)
  | duplicateName (name : String)
  | duplicateCode (code : String)
  | duplicateItem (code item : String)
  deriving DecidableEq, Repr

def RegistrationError.message : RegistrationError → String
  | .missingCode name => s!"check code is required (check '{name}')"
  | .missingName code => s!"check name is required ({code})"
  | .missingDescription code => s!"check description is required ({code})"
  | .missingHandler code => s!"check implementation is required ({code})"
  | .missingKey code => s!"configuration key is required ({code})"
  | .missingKeyDescription code key => s!"configuration description is required ({code} {key})"
  | .duplicateName name => s!"check {Text.quoted name} already registered"
  | .duplicateCode code => s!"check code {Text.quoted code} already registered"
  | .duplicateItem code item =>
    s!"configuration item {Text.quoted item} of {code} is already registered"

structure Catalog where
  checks : SortedMap String Check
  codes : SortedSet String
  items : SortedMap String (String × String)

namespace Catalog

def empty : Catalog := ⟨.empty, .empty, .empty⟩

/-- The first thing that is missing from a check. -/
def missing? (c : Check) : Option RegistrationError :=
  let d := c.descriptor
  if d.code.isEmpty then some (.missingCode d.name)
  else if d.name.isEmpty then some (.missingName d.code)
  else if d.description.isEmpty then some (.missingDescription d.code)
  else if c.handler.isNone then some (.missingHandler d.code)
  else
    d.tunables.values.findSome? fun t =>
      if t.key.isEmpty then some (.missingKey d.code)
      else if t.description.isEmpty then some (.missingKeyDescription d.code t.key)
      else none

/-- Names, codes and items that a check may no longer take. -/
structure Taken where
  names : List String
  codes : List String
  items : List String

def taken (c : Catalog) : Taken :=
  ⟨c.checks.keys, c.codes.toList, c.items.keys⟩

/-- Take the item names of a check's tunables in the order of their map. -/
def claimItems (code : String) : List Tunable → List String → Except RegistrationError (List String)
  | [], items => .ok items
  | t :: rest, items =>
    let item := Tunable.itemName code t.key
    if items.contains item then .error (.duplicateItem code item)
    else claimItems code rest (item :: items)

/-- Take the name, the code and the items of a check. -/
def claim (t : Taken) (c : Check) : Except RegistrationError Taken :=
  let d := c.descriptor
  match missing? c with
  | some e => .error e
  | none =>
    if t.names.contains d.name then .error (.duplicateName d.name)
    else if t.codes.contains (Text.lowercase d.code) then .error (.duplicateCode d.code)
    else do
      let items ← claimItems d.code d.tunables.values t.items
      .ok ⟨d.name :: t.names, Text.lowercase d.code :: t.codes, items⟩

/-- Every tunable of a check names the check as its owner. -/
def own (c : Check) : Check :=
  let d := c.descriptor
  { c with descriptor :=
      { d with tunables := d.tunables.mapValues fun t => { t with check := d.code } } }

def addCheck (catalog : Catalog) (c : Check) : Catalog :=
  let d := c.descriptor
  { checks := catalog.checks.insert d.name (own c)
    codes := catalog.codes.insert (Text.lowercase d.code)
    items := d.tunables.entries.foldl
      (fun items e => items.insert (Tunable.itemName d.code e.2.key) (d.name, e.1)) catalog.items }

/-- Add a batch of checks, unless one of them is incomplete or takes what is taken. -/
def register (catalog : Catalog) (batch : List Check) : Except RegistrationError Catalog := do
  let _ ← batch.foldlM claim catalog.taken
  .ok (batch.foldl addCheck catalog)

def registerEvents (batch : List Check) : List Event :=
  batch.map fun c =>
    ⟨.debug, .catalog, s!"Registered check {c.descriptor.code} ({c.descriptor.name})"⟩

def size (c : Catalog) : Nat := c.checks.entries.length

/-- Every check, by code; checks of equal code stand in the order of their names. -/
def checkList (c : Catalog) : List Check :=
  c.checks.values.mergeSort fun a b => compare a.code b.code != .gt

/-- Every tunable, by key and then by owner. -/
def tunables (c : Catalog) : List Tunable :=
  (c.checks.values.flatMap fun check => check.descriptor.tunables.values).mergeSort fun a b =>
    (compare a.key b.key).then (compare a.check b.check) != .gt

/-- Where a tunable stands: under the name of its check and its key. -/
structure Place where
  name : String
  check : Check
  key : String
  tunable : Tunable

def find? (c : Catalog) (item : String) : Option Place := do
  let (name, key) ← c.items.get? item
  let check ← c.checks.get? name
  let tunable ← check.descriptor.tunables.get? key
  some ⟨name, check, key, tunable⟩

def set (c : Catalog) (item text : String) : Except ConfigurationError Catalog :=
  match c.find? item with
  | none => .error (.unknownItem item)
  | some p => do
    let t ← p.tunable.set text
    let d := p.check.descriptor
    let changed := { p.check with descriptor := { d with tunables := d.tunables.insert p.key t } }
    .ok { c with checks := c.checks.insert p.name changed }

/-- What setting an item tells of when it succeeds. -/
def setEvents (c : Catalog) (item : String) : List Event :=
  match c.find? item with
  | some p => [⟨.info, .catalog, s!"Configuration {item} set to {p.tunable.display}"⟩]
  | none => []

end Catalog

end CaptureAudit
