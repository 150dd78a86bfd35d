import CaptureAudit.Configuration.Place

/-! A configuration: one table, into which the entries of its sources are put in order. -/

namespace CaptureAudit

structure Configuration where
  root : Setting

namespace Configuration

def empty : Configuration := ⟨.emptyTable⟩

def get? (c : Configuration) (name : String) : Option Setting :=
  c.root.member? name

def add (c : Configuration) (entry : String × Setting) : Configuration :=
  ⟨c.root.alterAt entry.2.putOver (Place.ofKey entry.1)⟩

/-- Later entries come over earlier ones. -/
def ofEntries (entries : List (String × Setting)) : Configuration :=
  entries.foldl add empty

def int? (c : Configuration) (name : String) : Option Int :=
  (c.get? name).bind Setting.toInt?

def texts? (c : Configuration) (name : String) : Option (List String) :=
  (c.get? name).bind Setting.toTexts?

def table? (c : Configuration) (name : String) : Option (List (String × Setting)) :=
  match c.get? name with
  | some (.table members) => some members
  | _ => none

end Configuration

end CaptureAudit
