import CaptureAudit.Catalog
import CaptureAudit.Configuration.Basic

/-! Tunables set from a configuration and from overrides that come after it. -/

namespace CaptureAudit

/-- What setting items leads to: the catalog, what is told of it, and the item, text and error at
which it stopped. -/
structure Applied where
  catalog : Catalog
  events : List Event
  refused : Option (String × String × ConfigurationError)

/-- Set items in order, up to the first refusal. -/
def Catalog.setAll (catalog : Catalog) : List (String × String) → Applied
  | [] => ⟨catalog, [], none⟩
  | (item, text) :: rest =>
    match catalog.set item text with
    | .error e => ⟨catalog, [], some (item, text, e)⟩
    | .ok changed =>
      let applied := changed.setAll rest
      { applied with events := changed.setEvents item ++ applied.events }

namespace Configuration

/-- The table whose members are items and their values. -/
def checksKey : String := "checks"

/-- The text to which an item is set. -/
def itemText (entry : String × Setting) : Except ConfigurationError (String × String) :=
  match entry.2.toText with
  | .ok text => .ok (entry.1, text)
  | .error reason => .error (.parse entry.1 "" reason)

/-- The texts of all items, by item; all values have to be texts before any item is set. -/
def itemTexts (table : List (String × Setting)) :
    Except ConfigurationError (List (String × String)) :=
  (table.mapM itemText).map fun texts => texts.mergeSort fun a b =>
    (compare a.1 b.1).then (compare a.2 b.2) != .gt

/-- The catalog after some settings, what is told of it, and the error that ended them. -/
structure Configured (ε : Type) where
  catalog : Catalog
  events : List Event
  error : Option ε

def applyTable (catalog : Catalog) (table : List (String × Setting)) :
    Configured ConfigurationError :=
  match itemTexts table with
  | .error e => ⟨catalog, [], some e⟩
  | .ok texts =>
    let applied := catalog.setAll texts
    ⟨applied.catalog, applied.events, applied.refused.map fun r => r.2.2⟩

/-- Set the items of a configuration. Where it has no table of items nothing is set. -/
def apply (c : Configuration) (catalog : Catalog) : Configured ConfigurationError :=
  applyTable catalog ((c.table? checksKey).getD [])

/-- Set the items of a configuration, then overrides in order. -/
def configure (c : Configuration) (catalog : Catalog) (overrides : List (String × String)) :
    Configured (List String) :=
  let first := c.apply catalog
  match first.error with
  | some e => ⟨first.catalog, first.events, some ["invalid check configuration", e.message]⟩
  | none =>
    let second := first.catalog.setAll overrides
    ⟨second.catalog, first.events ++ second.events, second.refused.map fun (item, text, e) =>
      [s!"invalid override {item}={text}", e.message]⟩

end Configuration

end CaptureAudit
