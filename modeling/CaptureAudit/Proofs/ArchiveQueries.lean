import CaptureAudit.Proofs.Captures
import CaptureAudit.Proofs.ExceptSteps

/-! What an archive answers. The values of a dimension are exactly those that artifacts carry, in
ascending order, and loading goes by the artifacts that carry the whole query, in the order in which
they were added. Which posting list is the shortest shows in none of these answers. -/

namespace CaptureAudit

theorem Artifact.isNoMatches_decode {α : Type} {x : Artifact} {r : Json.Reader α} {e : ArchiveError}
    (h : x.decode r = .error e) : e.isNoMatches = false := by
  rw [decode] at h
  cases hread : Json.readBytes r x.payload with
  | ok v => exact absurd h (by simp [hread, Except.mapError])
  | error fault =>
    rw [hread] at h
    obtain rfl := Except.error.inj h
    rfl

namespace Archive

theorem tagValuesWith_subset (a : Archive) (d : Dimension) (t : Tag) :
    a.tagValuesWith d t ⊆ a.tagValues d := by
  intro value hvalue
  obtain ⟨x, hx, -, hcarries⟩ := mem_tagValuesWith.mp hvalue
  exact mem_tagValues.mpr ⟨x, hx, hcarries⟩

variable {a b : Archive}

theorem tagValues_of_perm (h : a.artifacts.Perm b.artifacts) (d : Dimension) :
    a.tagValues d = b.tagValues d := by
  refine eq_of_ascending (a.ascending_tagValues d) (b.ascending_tagValues d) fun value => ?_
  simp only [mem_tagValues, h.mem_iff]

theorem tagValuesWith_of_perm (h : a.artifacts.Perm b.artifacts) (d : Dimension) (t : Tag) :
    a.tagValuesWith d t = b.tagValuesWith d t := by
  refine eq_of_ascending (a.ascending_tagValuesWith d t) (b.ascending_tagValuesWith d t)
    fun value => ?_
  simp only [mem_tagValuesWith, h.mem_iff]

section

variable {α : Type} {r : Json.Reader α} {query : List Tag}

theorem loadAll_eq (a : Archive) (r : Json.Reader α) (query : List Tag) :
    a.loadAll r query = (a.artifacts.filter (·.carries query)).mapM (·.decode r) := by
  rw [loadAll, matching_eq_filter]

theorem load_of_find? {x : Artifact} (h : a.artifacts.find? (·.carries query) = some x) :
    a.load r query = x.decode r := by
  rw [load_eq, h]

theorem load_eq_noMatches_iff :
    a.load r query = .error (.noMatches query) ↔ ∀ x ∈ a.artifacts, x.carries query = false := by
  have hnone : a.artifacts.find? (·.carries query) = none ↔
      ∀ x ∈ a.artifacts, x.carries query = false := by simp
  rw [← hnone, load_eq]
  cases a.artifacts.find? (·.carries query) with
  | none => exact iff_of_true rfl rfl
  | some x =>
    refine iff_of_false (fun h => ?_) (Option.some_ne_none x)
    exact absurd (Artifact.isNoMatches_decode h) (by simp [ArchiveError.isNoMatches])

theorem isNoMatches_load {e : ArchiveError} (h : a.load r query = .error e) :
    e.isNoMatches = true ↔ e = .noMatches query := by
  rw [load_eq] at h
  cases hfind : a.artifacts.find? (·.carries query) with
  | none =>
    rw [hfind] at h
    obtain rfl := Except.error.inj h
    exact iff_of_true rfl rfl
  | some x =>
    rw [hfind] at h
    have hdecode := Artifact.isNoMatches_decode h
    refine iff_of_false (by simp [hdecode]) ?_
    rintro rfl
    exact absurd hdecode (by simp [ArchiveError.isNoMatches])

theorem loadAll_eq_nil_iff :
    a.loadAll r query = .ok [] ↔ ∀ x ∈ a.artifacts, x.carries query = false := by
  rw [loadAll_eq, mapM_eq_ok_iff, List.map_nil, List.map_eq_nil_iff, List.filter_eq_nil_iff]
  simp

/-- Both begin with the first artifact that carries the query. -/
theorem exists_head_of_load (h : a.load r query ≠ .error (.noMatches query)) :
    ∃ x rest, a.artifacts.filter (·.carries query) = x :: rest ∧ a.load r query = x.decode r ∧
      a.loadAll r query = (x :: rest).mapM (·.decode r) := by
  cases hfilter : a.artifacts.filter (·.carries query) with
  | nil =>
    refine absurd (load_eq_noMatches_iff.mpr fun x hx => ?_) h
    simpa using List.filter_eq_nil_iff.mp hfilter x hx
  | cons x rest =>
    have hfind : a.artifacts.find? (·.carries query) = some x := by
      rw [← List.head?_filter, hfilter, List.head?_cons]
    exact ⟨x, rest, rfl, load_of_find? hfind, by rw [loadAll_eq, hfilter]⟩

theorem load_of_loadAll_cons {v : α} {vs : List α} (h : a.loadAll r query = .ok (v :: vs)) :
    a.load r query = .ok v := by
  have hload : a.load r query ≠ .error (.noMatches query) := by
    rw [Ne, load_eq_noMatches_iff, ← loadAll_eq_nil_iff (r := r), h]
    simp
  obtain ⟨x, rest, -, hload, hall⟩ := exists_head_of_load hload
  rw [h, eq_comm, mapM_eq_ok_iff, List.map_cons, List.map_cons] at hall
  exact hload.trans (List.cons.inj hall).1

theorem loadAll_of_load_error {e : ArchiveError} (h : a.load r query = .error e)
    (hne : e ≠ .noMatches query) : a.loadAll r query = .error e := by
  have hload : a.load r query ≠ .error (.noMatches query) := by simpa [h] using hne
  obtain ⟨x, rest, -, hload, hall⟩ := exists_head_of_load hload
  exact hall.trans (mapM_eq_error_iff.mpr ⟨[], x, rest, rfl, hload.symm.trans h, by simp⟩)

theorem load_append (later : List Artifact) (h : a.load r query ≠ .error (.noMatches query)) :
    (ofArtifacts (a.artifacts ++ later)).load r query = a.load r query := by
  rw [load_eq] at h
  rw [load_eq, load_eq, ofArtifacts, List.find?_append]
  cases hfind : a.artifacts.find? (·.carries query) with
  | none => exact absurd (by rw [hfind]) h
  | some x => rfl

end

/-- The values of a dimension, and those that stand beside a tag, are strictly ascending and are
exactly the values that artifacts carry. The second are some of the first, and no order of the
artifacts changes either. -/
theorem tagValues_exact (a : Archive) (d : Dimension) (t : Tag) :
    ((a.tagValues d).Pairwise (· < ·) ∧
      ∀ value, value ∈ a.tagValues d ↔ ∃ x ∈ a.artifacts, ⟨d, value⟩ ∈ x.tags.toList) ∧
    ((a.tagValuesWith d t).Pairwise (· < ·) ∧
      ∀ value, value ∈ a.tagValuesWith d t ↔
        ∃ x ∈ a.artifacts, t ∈ x.tags.toList ∧ ⟨d, value⟩ ∈ x.tags.toList) ∧
    (a.tagValuesWith d t).Sublist (a.tagValues d) ∧
    ∀ b : Archive, b.artifacts.Perm a.artifacts →
      b.tagValues d = a.tagValues d ∧ b.tagValuesWith d t = a.tagValuesWith d t := by
  refine ⟨⟨?_, fun value => ?_⟩, ⟨?_, fun value => ?_⟩, ?_, fun b hb => ?_⟩
  · exact (a.ascending_tagValues d).imp compareOfLessAndEq_eq_lt.mp
  · simp only [mem_tagValues, SortedSet.contains_iff]
  · exact (a.ascending_tagValuesWith d t).imp compareOfLessAndEq_eq_lt.mp
  · simp only [mem_tagValuesWith, SortedSet.contains_iff]
  · exact sublist_of_ascending (a.ascending_tagValuesWith d t) (a.ascending_tagValues d)
      (a.tagValuesWith_subset d t)
  · exact ⟨tagValues_of_perm hb d, tagValuesWith_of_perm hb d t⟩

/-- Loading finds nothing, and loading all gives the empty list, exactly when no artifact carries
the whole query. Otherwise a load decodes the first artifact that does, so it is the head of what
loading all gives, or its failure, which in turn is that of the first of these artifacts that cannot
be decoded. Artifacts that are added later change no load that finds something. -/
theorem load_eq_head_loadAll {α : Type} (a : Archive) (r : Json.Reader α) (query : List Tag) :
    ((a.load r query = .error (.noMatches query) ↔ ∀ x ∈ a.artifacts, x.carries query = false) ∧
      (a.loadAll r query = .ok [] ↔ ∀ x ∈ a.artifacts, x.carries query = false) ∧
      ∀ e, a.load r query = .error e → (e.isNoMatches = true ↔ e = .noMatches query)) ∧
    (∀ x, a.artifacts.find? (·.carries query) = some x → a.load r query = x.decode r) ∧
    (∀ v vs, a.loadAll r query = .ok (v :: vs) → a.load r query = .ok v) ∧
    (∀ e, a.load r query = .error e → e ≠ .noMatches query → a.loadAll r query = .error e) ∧
    (∀ vs, a.loadAll r query = .ok vs ↔
      (a.artifacts.filter (·.carries query)).map (·.decode r) = vs.map .ok) ∧
    (∀ e, a.loadAll r query = .error e ↔
      ∃ before x after, a.artifacts.filter (·.carries query) = before ++ x :: after ∧
        x.decode r = .error e ∧ ∀ y ∈ before, ∃ v, y.decode r = .ok v) ∧
    ∀ later, a.load r query ≠ .error (.noMatches query) →
      (ofArtifacts (a.artifacts ++ later)).load r query = a.load r query := by
  refine ⟨⟨load_eq_noMatches_iff, loadAll_eq_nil_iff, fun e => isNoMatches_load⟩,
    fun x => load_of_find?, fun v vs => load_of_loadAll_cons, fun e => loadAll_of_load_error,
    fun vs => ?_, fun e => ?_, load_append⟩
  · rw [loadAll_eq, mapM_eq_ok_iff]
  · rw [loadAll_eq, mapM_eq_error_iff]

end Archive

end CaptureAudit
