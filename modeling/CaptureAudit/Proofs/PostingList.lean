import CaptureAudit.Archive.Basic
import CaptureAudit.Proofs.Ascending
import Mathlib.Data.List.Induction

/-! The index of an archive has, for every tag that is carried at all, the ascending positions of
the artifacts that carry it. Looking only at the positions of a query's rarest tag therefore misses
no artifact and keeps their order. -/

namespace CaptureAudit

/-- The ascending positions of the artifacts with a property. -/
def positionsWhere (p : Artifact → Bool) (artifacts : List Artifact) : List Nat :=
  (List.range artifacts.length).filter fun i => (artifacts[i]?).any p

theorem mem_positionsWhere {p : Artifact → Bool} {artifacts : List Artifact} {i : Nat} :
    i ∈ positionsWhere p artifacts ↔ ∃ a, artifacts[i]? = some a ∧ p a = true := by
  simp only [positionsWhere, List.mem_filter, List.mem_range, Option.any_eq_true]
  refine and_iff_right_of_imp ?_
  rintro ⟨a, ha, _⟩
  exact (List.getElem?_eq_some_iff.mp ha).1

theorem pairwise_positionsWhere (p : Artifact → Bool) (artifacts : List Artifact) :
    (positionsWhere p artifacts).Pairwise (· < ·) :=
  List.pairwise_lt_range.filter _

theorem positionsWhere_eq_nil_iff {p : Artifact → Bool} {artifacts : List Artifact} :
    positionsWhere p artifacts = [] ↔ ∀ a ∈ artifacts, p a = false := by
  rw [List.eq_nil_iff_forall_not_mem]
  constructor
  · intro h a ha
    obtain ⟨i, hi⟩ := List.mem_iff_getElem?.mp ha
    exact Bool.eq_false_iff.mpr fun hp => h i (mem_positionsWhere.mpr ⟨a, hi, hp⟩)
  · intro h i hi
    obtain ⟨a, ha, hp⟩ := mem_positionsWhere.mp hi
    simp [h a (List.mem_of_getElem? ha)] at hp

theorem positionsWhere_concat (p : Artifact → Bool) (artifacts : List Artifact) (a : Artifact) :
    positionsWhere p (artifacts ++ [a]) =
      positionsWhere p artifacts ++ if p a = true then [artifacts.length] else [] := by
  have hpre : (List.range artifacts.length).filter (fun i => ((artifacts ++ [a])[i]?).any p) =
      positionsWhere p artifacts := by
    refine List.filter_congr fun i hi => ?_
    rw [List.getElem?_append_left (List.mem_range.mp hi)]
  rw [positionsWhere, List.length_append, List.length_singleton, List.range_succ,
    List.filter_append, hpre]
  simp [List.filter_singleton]

theorem filterMap_positionsWhere (p : Artifact → Bool) (artifacts : List Artifact) :
    (positionsWhere p artifacts).filterMap (artifacts[·]?) = artifacts.filter p := by
  induction artifacts using List.reverseRecOn with
  | nil => rfl
  | append_singleton artifacts a ih =>
    have hpre : (positionsWhere p artifacts).filterMap ((artifacts ++ [a])[·]?) =
        artifacts.filter p := by
      rw [← ih]
      refine List.filterMap_congr fun i hi => ?_
      obtain ⟨b, hb, _⟩ := mem_positionsWhere.mp hi
      exact List.getElem?_append_left (List.getElem?_eq_some_iff.mp hb).1
    rw [positionsWhere_concat, List.filterMap_append, hpre, List.filter_append]
    by_cases ha : p a = true <;> simp [ha]

/-- Filtering the positions of a weaker property gives those of the stronger one. -/
theorem filter_positionsWhere {p q : Artifact → Bool} (h : ∀ a, q a = true → p a = true)
    (artifacts : List Artifact) :
    ((positionsWhere p artifacts).filter fun i => (artifacts[i]?).any q) =
      positionsWhere q artifacts := by
  rw [positionsWhere, List.filter_filter]
  refine List.filter_congr fun i _ => ?_
  cases artifacts[i]? with
  | none => rfl
  | some a =>
    cases hq : q a with
    | false => simp [hq]
    | true => simp [hq, h a hq]

theorem get?_addPosition {position : Nat} {tags : List Tag} (hnd : tags.Nodup)
    (index : SortedMap Tag (List Nat)) (t : Tag) :
    (addPosition index position tags).get? t =
      if t ∈ tags then some ((index.get? t).getD [] ++ [position]) else index.get? t := by
  induction tags generalizing index with
  | nil => simp [addPosition]
  | cons u tags ih =>
    have hu := (List.nodup_cons.mp hnd).1
    have hstep := ih (List.nodup_cons.mp hnd).2 (index.alter u [] (· ++ [position]))
    rw [addPosition, List.foldl_cons]
    change (addPosition _ position tags).get? t = _
    rw [hstep, SortedMap.get?_alter]
    by_cases ht : t = u
    · subst t
      simp [hu]
    · simp [ht]

theorem indexOf_concat (artifacts : List Artifact) (a : Artifact) :
    indexOf (artifacts ++ [a]) =
      addPosition (indexOf artifacts) artifacts.length a.tags.toList := by
  simp [indexOf, List.zipIdx_append]

/-- A posting list is never empty and has exactly the positions that carry its tag. -/
theorem get?_indexOf (artifacts : List Artifact) (t : Tag) :
    (indexOf artifacts).get? t =
      if positionsWhere (·.tags.contains t) artifacts = [] then none
      else some (positionsWhere (·.tags.contains t) artifacts) := by
  induction artifacts using List.reverseRecOn with
  | nil => rfl
  | append_singleton artifacts a ih =>
    rw [indexOf_concat, get?_addPosition a.tags.nodup_toList, positionsWhere_concat]
    simp only [← SortedSet.contains_iff]
    by_cases ha : a.tags.contains t = true
    · rw [ih]
      by_cases hp : positionsWhere (·.tags.contains t) artifacts = [] <;> simp [ha, hp]
    · simp [ha, ih]

namespace Archive

theorem index_get? (a : Archive) (t : Tag) :
    a.index.get? t =
      if positionsWhere (·.tags.contains t) a.artifacts = [] then none
      else some (positionsWhere (·.tags.contains t) a.artifacts) := by
  rw [a.indexed, get?_indexOf]

theorem foldl_shorter_mem (best : List Nat) (ls : List (List Nat)) :
    ls.foldl (fun best l => if l.length < best.length then l else best) best ∈ best :: ls := by
  induction ls generalizing best with
  | nil => simp
  | cons l ls ih =>
    rw [List.foldl_cons]
    by_cases hl : l.length < best.length
    · rw [if_pos hl]
      exact List.mem_cons_of_mem _ (ih l)
    · rw [if_neg hl]
      rcases List.mem_cons.mp (ih best) with h | h
      · simp [h]
      · exact List.mem_cons_of_mem _ (List.mem_cons_of_mem _ h)

theorem shortest_mem {ls : List (List Nat)} (h : ls ≠ []) : ∃ l ∈ ls, shortest ls = some l := by
  cases ls with
  | nil => exact absurd rfl h
  | cons l ls => exact ⟨_, foldl_shorter_mem l ls, rfl⟩

/-- Looking up every tag of a query fails at a tag without a posting list, or finds a posting list
for every tag. -/
theorem mapM_index_cases {a : Archive} {query : List Tag} (hq : query ≠ []) :
    (∃ t ∈ query, a.index.get? t = none) ∧ query.mapM a.index.get? = none ∨
      ∃ ls, ls ≠ [] ∧ query.mapM a.index.get? = some ls ∧
        ∀ l ∈ ls, ∃ t ∈ query, a.index.get? t = some l := by
  induction query with
  | nil => exact absurd rfl hq
  | cons t rest ih =>
    cases ht : a.index.get? t with
    | none => exact .inl ⟨⟨t, by simp, ht⟩, by simp [ht]⟩
    | some l =>
      by_cases hr : rest = []
      · subst rest
        exact .inr ⟨[l], by simp, by simp [ht], by simpa using ht⟩
      · rcases ih hr with ⟨⟨u, hu, hn⟩, hm⟩ | ⟨ls, _, hm, hl⟩
        · exact .inl ⟨⟨u, by simp [hu], hn⟩, by simp [ht, hm]⟩
        · refine .inr ⟨l :: ls, by simp, by simp [ht, hm], ?_⟩
          intro l' hl'
          rcases List.mem_cons.mp hl' with rfl | hl'
          · exact ⟨t, by simp, ht⟩
          · obtain ⟨u, hu, he⟩ := hl l' hl'
            exact ⟨u, by simp [hu], he⟩

/-- A tag that no artifact carries rules the whole query out. -/
theorem not_carries_of_index {a : Archive} {query : List Tag} {t : Tag} (ht : t ∈ query)
    (hn : a.index.get? t = none) : ∀ b ∈ a.artifacts, b.carries query = false := by
  intro b hb
  have hp : positionsWhere (·.tags.contains t) a.artifacts = [] := by
    by_contra hp
    simp [index_get?, hp] at hn
  have hbt := positionsWhere_eq_nil_iff.mp hp b hb
  exact Bool.eq_false_iff.mpr fun hc => by simp [List.all_eq_true.mp hc t ht] at hbt

theorem positions_eq_positionsWhere (a : Archive) (query : List Tag) :
    a.positions query = positionsWhere (·.carries query) a.artifacts := by
  cases query with
  | nil =>
    have hall : ∀ i ∈ List.range a.artifacts.length,
        (a.artifacts[i]?).any (·.carries []) = true := by
      intro i hi
      simp [List.getElem?_eq_getElem (List.mem_range.mp hi), Artifact.carries]
    exact (List.filter_eq_self.mpr hall).symm
  | cons t rest =>
    rw [positions, if_neg (by simp)]
    rcases mapM_index_cases (a := a) (List.cons_ne_nil t rest) with ⟨⟨u, hu, hn⟩, hm⟩ |
      ⟨ls, hls, hm, hl⟩
    · rw [hm]
      exact (positionsWhere_eq_nil_iff.mpr (not_carries_of_index hu hn)).symm
    · obtain ⟨l, hmem, hs⟩ := shortest_mem hls
      obtain ⟨u, hu, he⟩ := hl l hmem
      have hlist : l = positionsWhere (·.tags.contains u) a.artifacts := by
        rw [index_get?] at he
        split at he
        · exact absurd he (by simp)
        · exact (Option.some.inj he).symm
      simp only [hm, Option.bind_some, hs, hlist]
      exact filter_positionsWhere (fun b hb => List.all_eq_true.mp hb u hu) a.artifacts

theorem matching_eq_filter (a : Archive) (query : List Tag) :
    a.matching query = a.artifacts.filter (·.carries query) := by
  rw [matching, positions_eq_positionsWhere, filterMap_positionsWhere]

theorem load_eq {α : Type} (a : Archive) (r : Json.Reader α) (query : List Tag) :
    a.load r query =
      match a.artifacts.find? (·.carries query) with
      | none => .error (.noMatches query)
      | some x => x.decode r := by
  rw [load, matching_eq_filter, ← List.head?_filter]
  cases a.artifacts.filter (·.carries query) <;> rfl

end Archive

theorem Artifact.carries_ofTags_iff {tags query : List Tag} {payload : ByteArray} :
    (ofTags tags payload).carries query = true ↔ ∀ t ∈ query, t ∈ tags := by
  simp [carries, ofTags, SortedSet.contains_iff, SortedSet.mem_ofList]

/-- A query of an archive that was built artifact by artifact gives those whose tags have the whole
query among them, each once and in the order in which they were added. -/
theorem Archive.matching_ofTags (added : List (List Tag × ByteArray)) (query : List Tag) :
    let a := Archive.ofArtifacts (added.map fun e => .ofTags e.1 e.2)
    a.matching query = a.artifacts.filter (·.carries query) ∧
    a.matching query = (added.filter fun e => ∀ t ∈ query, t ∈ e.1).map (fun e => .ofTags e.1 e.2) ∧
    (a.positions query).Pairwise (· < ·) ∧
    ∀ i, i ∈ a.positions query ↔ ∃ e, added[i]? = some e ∧ ∀ t ∈ query, t ∈ e.1 := by
  intro a
  refine ⟨a.matching_eq_filter query, ?_, ?_, ?_⟩
  · rw [matching_eq_filter]
    change (added.map fun e => Artifact.ofTags e.1 e.2).filter _ = _
    rw [List.filter_map]
    congr 1
    refine List.filter_congr fun e _ => ?_
    rw [Bool.eq_iff_iff]
    simp [Artifact.carries_ofTags_iff]
  · rw [positions_eq_positionsWhere]
    exact pairwise_positionsWhere _ _
  · intro i
    rw [positions_eq_positionsWhere, mem_positionsWhere]
    change (∃ b, (added.map fun e => Artifact.ofTags e.1 e.2)[i]? = some b ∧ _) ↔ _
    simp [List.getElem?_map, Artifact.carries_ofTags_iff]

end CaptureAudit
