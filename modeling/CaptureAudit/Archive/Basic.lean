import CaptureAudit.Archive.Artifact
import CaptureAudit.Event

/-! The archive: artifacts in the order in which they were added, and for every tag the positions of
the artifacts that carry it. -/

namespace CaptureAudit

def addPosition (index : SortedMap Tag (List Nat)) (position : Nat) (tags : List Tag) :
    SortedMap Tag (List Nat) :=
  tags.foldl (fun index t => index.alter t [] (· ++ [position])) index

/-- The ascending positions of the artifacts by tag. -/
def indexOf (artifacts : List Artifact) : SortedMap Tag (List Nat) :=
  artifacts.zipIdx.foldl (fun index a => addPosition index a.2 a.1.tags.toList) .empty

structure Archive where
  artifacts : List Artifact
  index : SortedMap Tag (List Nat)
  indexed : index = indexOf artifacts

namespace Archive

def ofArtifacts (artifacts : List Artifact) : Archive :=
  ⟨artifacts, indexOf artifacts, rfl⟩

def size (a : Archive) : Nat := a.artifacts.length

/-- The shortest of several lists, the first of those of equal length. -/
def shortest : List (List Nat) → Option (List Nat)
  | [] => none
  | l :: ls => some (ls.foldl (fun best l => if l.length < best.length then l else best) l)

/-- The positions of the artifacts that carry every tag of the query, ascending. Only those at the
positions of the query's rarest tag are looked at. -/
def positions (a : Archive) (query : List Tag) : List Nat :=
  if query.isEmpty then List.range a.size
  else
    match (query.mapM a.index.get?).bind shortest with
    | none => []
    | some candidates => candidates.filter fun i => (a.artifacts[i]?).any (·.carries query)

/-- The artifacts that carry every tag of the query, in order. -/
def matching (a : Archive) (query : List Tag) : List Artifact :=
  (a.positions query).filterMap (a.artifacts[·]?)

def tagValues (a : Archive) (d : Dimension) : List String :=
  (a.index.keys.filter (·.dimension = d)).map Tag.value

/-- The values of a dimension on artifacts that also carry a tag, ascending. -/
def tagValuesWith (a : Archive) (d : Dimension) (t : Tag) : List String :=
  match a.index.get? t with
  | none => []
  | some positions =>
    let carried := (positions.filterMap (a.artifacts[·]?)).flatMap (·.tags.toList)
    (SortedSet.ofList ((carried.filter (·.dimension = d)).map Tag.value)).toList

/-- Decode the first artifact that carries every tag of the query. -/
def load {α : Type} (a : Archive) (r : Json.Reader α) (query : List Tag) : Except ArchiveError α :=
  match a.matching query with
  | [] => .error (.noMatches query)
  | first :: _ => first.decode r

/-- What a load tells of: that it had a choice. -/
def loadEvents (a : Archive) (query : List Tag) : List Event :=
  let n := (a.matching query).length
  if 1 < n then
    [⟨.debug, .reader, s!"{n} artifacts match {Tag.describe query}, using the first"⟩]
  else []

/-- Decode every artifact that carries every tag of the query. -/
def loadAll {α : Type} (a : Archive) (r : Json.Reader α) (query : List Tag) :
    Except ArchiveError (List α) :=
  (a.matching query).mapM (·.decode r)

end Archive

end CaptureAudit
