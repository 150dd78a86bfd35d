import CaptureAudit.Archive.Walk
import CaptureAudit.Proofs.PostingList

/-! The servers whose snapshots were captured. The visits to them, in their order, are told by the
first artifact with the snapshot of each server; every other visit finds nothing. -/

namespace CaptureAudit

namespace Archive

theorem mem_tagValues {a : Archive} {d : Dimension} {value : String} :
    value ∈ a.tagValues d ↔ ∃ x ∈ a.artifacts, x.tags.contains ⟨d, value⟩ = true := by
  have hkeys : (⟨d, value⟩ : Tag) ∈ a.index.keys ↔
      ∃ x ∈ a.artifacts, x.tags.contains ⟨d, value⟩ = true := by
    rw [SortedMap.mem_keys_iff, index_get?]
    by_cases hp : positionsWhere (·.tags.contains ⟨d, value⟩) a.artifacts = []
    · simpa [hp] using positionsWhere_eq_nil_iff.mp hp
    · simpa [hp] using mt positionsWhere_eq_nil_iff.mpr hp
  rw [← hkeys, tagValues, List.mem_map]
  constructor
  · rintro ⟨t, ht, rfl⟩
    obtain ⟨hmem, hd⟩ := List.mem_filter.mp ht
    obtain rfl : t.dimension = d := of_decide_eq_true hd
    exact hmem
  · exact fun h => ⟨⟨d, value⟩, List.mem_filter.mpr ⟨h, by simp⟩, rfl⟩

theorem ascending_tagValues (a : Archive) (d : Dimension) :
    (a.tagValues d).Pairwise fun x y => compare x y = .lt := by
  refine List.pairwise_map.mpr ((a.index.ascending_keys.filter _).imp_of_mem ?_)
  intro t u ht hu hlt
  have htd : t.dimension = d := by simpa using (List.mem_filter.mp ht).2
  have hud : u.dimension = d := by simpa using (List.mem_filter.mp hu).2
  have hlex : compareLex (compareOn Tag.dimension) (compareOn Tag.value) t u = .lt := hlt
  simpa [compareLex, compareOn, htd, hud] using hlex

theorem tagValuesWith_eq (a : Archive) (d : Dimension) (t : Tag) :
    a.tagValuesWith d t = (SortedSet.ofList
      ((((a.artifacts.filter (·.tags.contains t)).flatMap (·.tags.toList)).filter
        (·.dimension = d)).map Tag.value)).toList := by
  rw [tagValuesWith, index_get?]
  by_cases hp : positionsWhere (·.tags.contains t) a.artifacts = []
  · have hnone : a.artifacts.filter (·.tags.contains t) = [] :=
      List.filter_eq_nil_iff.mpr fun x hx => by simp [positionsWhere_eq_nil_iff.mp hp x hx]
    rw [if_pos hp, hnone]
    rfl
  · simp only [if_neg hp, filterMap_positionsWhere]

theorem mem_tagValuesWith {a : Archive} {d : Dimension} {t : Tag} {value : String} :
    value ∈ a.tagValuesWith d t ↔
      ∃ x ∈ a.artifacts, x.tags.contains t = true ∧ x.tags.contains ⟨d, value⟩ = true := by
  rw [tagValuesWith_eq, SortedSet.mem_ofList, List.mem_map]
  constructor
  · rintro ⟨u, hu, rfl⟩
    obtain ⟨hmem, hd⟩ := List.mem_filter.mp hu
    obtain rfl : u.dimension = d := of_decide_eq_true hd
    obtain ⟨x, hx, hux⟩ := List.mem_flatMap.mp hmem
    obtain ⟨hxa, ht⟩ := List.mem_filter.mp hx
    exact ⟨x, hxa, ht, SortedSet.contains_iff.mpr hux⟩
  · rintro ⟨x, hx, ht, hd⟩
    have hmem : (⟨d, value⟩ : Tag) ∈
        (a.artifacts.filter (·.tags.contains t)).flatMap (·.tags.toList) :=
      List.mem_flatMap.mpr ⟨x, List.mem_filter.mpr ⟨hx, ht⟩, SortedSet.contains_iff.mp hd⟩
    exact ⟨⟨d, value⟩, List.mem_filter.mpr ⟨hmem, by simp⟩, rfl⟩

theorem ascending_tagValuesWith (a : Archive) (d : Dimension) (t : Tag) :
    (a.tagValuesWith d t).Pairwise fun x y => compare x y = .lt := by
  rw [tagValuesWith_eq]
  exact SortedSet.ascending _

/-- The tags of the snapshot of a server. -/
def snapshotTags (cluster server : String) : List Tag :=
  [.cluster cluster, .server server, .snapshot]

/-- The first artifact with the snapshot of a server. -/
def capture? (a : Archive) (cluster server : String) : Option Artifact :=
  a.artifacts.find? (·.carries (snapshotTags cluster server))

/-- A captured server is among the servers that are visited. -/
theorem mem_of_capture? {a : Archive} {cluster server : String}
    (h : (a.capture? cluster server).isSome = true) :
    cluster ∈ a.clusters ∧ server ∈ a.serversOf cluster := by
  obtain ⟨x, hx, hc⟩ := List.find?_isSome.mp h
  have htags := List.all_eq_true.mp hc
  have hcluster := htags (.cluster cluster) (by simp [snapshotTags])
  have hserver := htags (.server server) (by simp [snapshotTags])
  exact ⟨mem_tagValues.mpr ⟨x, hx, hcluster⟩, mem_tagValuesWith.mpr ⟨x, hx, hcluster, hserver⟩⟩

theorem visit_snapshot (a : Archive) (cluster server : String) :
    (a.visit cluster server).snapshot =
      match a.capture? cluster server with
      | none => .error (.noMatches (snapshotTags cluster server))
      | some x => x.decode Snapshot.record.read :=
  a.load_eq Snapshot.record.read (snapshotTags cluster server)

end Archive

namespace Visit

/-- There was nothing to load. -/
def isMissing (v : Visit) : Bool :=
  match v.snapshot with
  | .ok _ => false
  | .error e => e.isNoMatches

theorem exists_noMatches {v : Visit} (h : v.isMissing = true) :
    ∃ e, v.snapshot = .error e ∧ e.isNoMatches = true := by
  rw [isMissing] at h
  split at h
  · exact absurd h (by simp)
  · next e he => exact ⟨e, he, h⟩

/-- The visit without what its loading told of. -/
def silent (v : Visit) : Visit := { v with events := [] }

end Visit

namespace Archive

theorem isMissing_visit (a : Archive) (cluster server : String) :
    (a.visit cluster server).isMissing = (a.capture? cluster server).isNone := by
  rw [Visit.isMissing, visit_snapshot]
  cases a.capture? cluster server with
  | none => rfl
  | some x =>
    simp only [Artifact.decode]
    cases Json.readBytes Snapshot.record.read x.payload <;> rfl

/-- The visits that find something. -/
def captured (visits : List Visit) : List Visit :=
  (visits.filter fun v => !v.isMissing).map Visit.silent

/-- In both archives each server has the same first snapshot, or none. -/
def SameCaptures (a b : Archive) : Prop :=
  ∀ cluster server, a.capture? cluster server = b.capture? cluster server

variable {a b : Archive}

theorem captured_visitsOf (a : Archive) (cluster : String) :
    captured (a.visitsOf cluster) =
      ((a.serversOf cluster).filter fun s => (a.capture? cluster s).isSome).map
        fun s => (a.visit cluster s).silent := by
  have hp : ∀ s, (!(a.visit cluster s).isMissing) = (a.capture? cluster s).isSome := by
    simp [isMissing_visit]
  simp only [captured, visitsOf, List.filter_map, List.map_map, Function.comp_def, hp]

theorem SameCaptures.captured_visitsOf (h : a.SameCaptures b) (cluster : String) :
    captured (a.visitsOf cluster) = captured (b.visitsOf cluster) := by
  have hservers : (a.serversOf cluster).filter (fun s => (a.capture? cluster s).isSome) =
      (b.serversOf cluster).filter fun s => (b.capture? cluster s).isSome := by
    refine eq_of_ascending ((a.ascending_tagValuesWith _ _).filter _)
      ((b.ascending_tagValuesWith _ _).filter _) fun s => ?_
    rw [List.mem_filter, List.mem_filter, h cluster s]
    refine and_congr_left fun hs => ?_
    exact ⟨fun _ => (mem_of_capture? hs).2, fun _ => (mem_of_capture? (h cluster s ▸ hs)).2⟩
  have hvisit : ∀ s, (a.visit cluster s).silent = (b.visit cluster s).silent := by
    intro s
    have hsnapshot : (a.visit cluster s).snapshot = (b.visit cluster s).snapshot := by
      rw [visit_snapshot, visit_snapshot, h cluster s]
    exact congrArg (Visit.mk cluster s · []) hsnapshot
  rw [Archive.captured_visitsOf, Archive.captured_visitsOf, hservers]
  exact List.map_congr_left fun s _ => hvisit s

/-- The clusters of which anything was captured. -/
def capturedClusters (a : Archive) : List String :=
  a.clusters.filter fun c => !(captured (a.visitsOf c)).isEmpty

theorem SameCaptures.capturedClusters (h : a.SameCaptures b) :
    a.capturedClusters = b.capturedClusters := by
  have hmem : ∀ {a : Archive} {c : String}, captured (a.visitsOf c) ≠ [] → c ∈ a.clusters := by
    intro a c hne
    obtain ⟨v, hv⟩ := List.exists_mem_of_ne_nil _ hne
    rw [Archive.captured_visitsOf] at hv
    obtain ⟨s, hs, _⟩ := List.mem_map.mp hv
    exact (mem_of_capture? (List.mem_filter.mp hs).2).1
  refine eq_of_ascending ((a.ascending_tagValues _).filter _) ((b.ascending_tagValues _).filter _)
    fun c => ?_
  rw [Archive.capturedClusters, Archive.capturedClusters, List.mem_filter, List.mem_filter,
    h.captured_visitsOf c]
  refine and_congr_left fun hc => ?_
  have hne : captured (b.visitsOf c) ≠ [] := by simpa using hc
  exact ⟨fun _ => hmem hne, fun _ => hmem (h.captured_visitsOf c ▸ hne)⟩

theorem captured_visits (a : Archive) :
    captured a.visits = a.capturedClusters.flatMap fun c => captured (a.visitsOf c) := by
  have hnonempty : ∀ clusters : List String,
      (clusters.filter fun c => !(captured (a.visitsOf c)).isEmpty).flatMap
        (fun c => captured (a.visitsOf c)) = clusters.flatMap fun c => captured (a.visitsOf c) := by
    intro clusters
    induction clusters with
    | nil => rfl
    | cons c clusters ih =>
      by_cases hc : captured (a.visitsOf c) = [] <;> simp [hc, ih]
  rw [Archive.capturedClusters, hnonempty]
  simp only [captured, visits, List.filter_flatMap, List.map_flatMap]

theorem SameCaptures.captured_visits (h : a.SameCaptures b) :
    captured a.visits = captured b.visits := by
  rw [Archive.captured_visits, Archive.captured_visits, h.capturedClusters]
  exact List.flatMap_congr fun c _ => h.captured_visitsOf c

/-- The order of artifacts does not matter where each server has one snapshot at most. -/
theorem SameCaptures.of_perm (h : a.artifacts.Perm b.artifacts)
    (hone : ∀ cluster server,
      (a.artifacts.filter (·.carries (snapshotTags cluster server))).length ≤ 1) :
    a.SameCaptures b := by
  intro cluster server
  have hp := h.filter (·.carries (snapshotTags cluster server))
  have hle := hone cluster server
  rw [capture?, capture?, ← List.head?_filter, ← List.head?_filter]
  cases hf : a.artifacts.filter (·.carries (snapshotTags cluster server)) with
  | nil =>
    rw [hf] at hp
    rw [hp.nil_eq]
  | cons x rest =>
    rw [hf] at hp hle
    obtain rfl : rest = [] := List.eq_nil_of_length_eq_zero (by simpa using hle)
    rw [hp.singleton_eq]

/-- A snapshot is not looked at when an earlier artifact has one of the same server. -/
theorem SameCaptures.of_later {before later after : List Artifact}
    (ha : a.artifacts = before ++ after) (hb : b.artifacts = before ++ later ++ after)
    (hlater : ∀ x ∈ later, ∀ cluster server, x.carries (snapshotTags cluster server) = true →
      ∃ y ∈ before, y.carries (snapshotTags cluster server) = true) :
    a.SameCaptures b := by
  intro cluster server
  rw [capture?, capture?, ha, hb]
  simp only [List.find?_append]
  cases hf : before.find? (·.carries (snapshotTags cluster server)) with
  | some x => rfl
  | none =>
    have hnone : later.find? (·.carries (snapshotTags cluster server)) = none := by
      refine List.find?_eq_none.mpr fun x hx hc => ?_
      obtain ⟨y, hy, hcy⟩ := hlater x hx cluster server hc
      exact List.find?_eq_none.mp hf y hy hcy
    rw [hnone]
    rfl

theorem SameCaptures.of_filter
    (h : a.artifacts.filter (·.tags.contains .snapshot) =
      b.artifacts.filter (·.tags.contains .snapshot)) : a.SameCaptures b := by
  intro cluster server
  have hcapture : ∀ artifacts : List Artifact,
      (artifacts.filter (·.tags.contains .snapshot)).find?
          (·.carries (snapshotTags cluster server)) =
        artifacts.find? (·.carries (snapshotTags cluster server)) := by
    intro artifacts
    rw [List.find?_filter]
    refine congrArg (artifacts.find? ·) (funext fun x => ?_)
    simp [Artifact.carries, snapshotTags]
  rw [capture?, capture?, ← hcapture a.artifacts, h, hcapture]

end Archive

end CaptureAudit
