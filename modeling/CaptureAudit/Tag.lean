import CaptureAudit.Json.Reader

/-! Tags address the artifacts of an archive. They are ordered by dimension and then by value. -/

namespace CaptureAudit

inductive Dimension where
  | cluster
  | server
  | account
  | stream
  | artifactType
  | special
  deriving DecidableEq, Repr

namespace Dimension

def all : List Dimension :=
  [.cluster, .server, .account, .stream, .artifactType, .special]

def name : Dimension → String
  | .cluster => "cluster"
  | .server => "server"
  | .account => "account"
  | .stream => "stream"
  | .artifactType => "artifact_type"
  | .special => "special"

def ofName? (s : String) : Option Dimension :=
  all.find? (·.name == s)

def rank : Dimension → Nat
  | .cluster => 0
  | .server => 1
  | .account => 2
  | .stream => 3
  | .artifactType => 4
  | .special => 5

instance : Ord Dimension := ⟨compareOn rank⟩

instance : Std.TransOrd Dimension :=
  inferInstanceAs (Std.TransCmp (compareOn rank))

instance : Std.LawfulEqOrd Dimension where
  eq_of_compare {a b} h := by
    have h : a.rank = b.rank := Std.LawfulEqOrd.eq_of_compare h
    cases a <;> cases b <;> simp_all [rank]

def read : Json.Reader Dimension :=
  Json.Reader.variant (all.map fun d => (d.name, d))

def toJson (d : Dimension) : Json.Value := .text d.name

end Dimension

structure Tag where
  dimension : Dimension
  value : String
  deriving DecidableEq, Repr

namespace Tag

instance : Ord Tag := ⟨compareLex (compareOn dimension) (compareOn value)⟩

instance : Std.TransOrd Tag :=
  inferInstanceAs (Std.TransCmp (compareLex (compareOn dimension) (compareOn value)))

instance : Std.LawfulEqOrd Tag where
  eq_of_compare {a b} h := by
    have h : compareLex (compareOn dimension) (compareOn value) a b = .eq := h
    obtain ⟨h₁, h₂⟩ := compareLex_eq_eq.mp h
    cases a
    cases b
    simp only [mk.injEq]
    exact ⟨Std.LawfulEqOrd.eq_of_compare h₁, Std.LawfulEqOrd.eq_of_compare h₂⟩

def cluster (name : String) : Tag := ⟨.cluster, name⟩

def server (name : String) : Tag := ⟨.server, name⟩

/-- The tag of a server's snapshot. -/
def snapshot : Tag := ⟨.artifactType, "jsz"⟩

/-- The tag of the metadata written with a capture. -/
def captureMetadata : Tag := ⟨.special, "audit_gather_metadata"⟩

def text (t : Tag) : String := s!"{t.dimension.name}:{t.value}"

/-- A conjunction of tags as errors and log lines name it. -/
def describe : List Tag → String
  | [] => "<no tags>"
  | tags => String.intercalate ", " (tags.map text)

def toJson (t : Tag) : Json.Value :=
  .object [("name", t.dimension.toJson), ("value", .text t.value)]

def record : Json.Record Tag where
  label := "Tag"
  blank := ⟨.cluster, ""⟩
  fields := [
    .needed "name" Dimension.read fun d t => { t with dimension := d },
    .needed "value" Json.Reader.text fun v t => { t with value := v }]

end Tag

end CaptureAudit
