import CaptureAudit.Proofs.Captures

/-! The walk over the servers of an archive: which visits there are, how far a callback with a state
of its own gets when it may fail, and what has been collected when it does not. -/

namespace CaptureAudit

namespace Archive

variable {a : Archive} {v : Visit} {cluster server : String}

theorem cluster_of_mem_visitsOf (h : v ∈ a.visitsOf cluster) :
    v.cluster = cluster ∧ v = a.visit cluster v.server := by
  obtain ⟨server, _, rfl⟩ := List.mem_map.mp h
  exact ⟨rfl, rfl⟩

theorem eq_visit_of_mem (h : v ∈ a.visits) : v = a.visit v.cluster v.server := by
  obtain ⟨cluster, _, hv⟩ := List.mem_flatMap.mp h
  obtain ⟨rfl, he⟩ := cluster_of_mem_visitsOf hv
  exact he

theorem visit_mem_visits_iff : a.visit cluster server ∈ a.visits ↔
    ∃ x ∈ a.artifacts, x.tags.contains (.cluster cluster) = true ∧
      x.tags.contains (.server server) = true := by
  constructor
  · intro h
    obtain ⟨c, _, hv⟩ := List.mem_flatMap.mp h
    obtain ⟨rfl, _⟩ := cluster_of_mem_visitsOf hv
    obtain ⟨s, hs, he⟩ := List.mem_map.mp hv
    obtain rfl : s = server := congrArg Visit.server he
    exact mem_tagValuesWith.mp hs
  · rintro ⟨x, hx, hcluster, hserver⟩
    have hc : cluster ∈ a.clusters := mem_tagValues.mpr ⟨x, hx, hcluster⟩
    have hs : server ∈ a.serversOf cluster := mem_tagValuesWith.mpr ⟨x, hx, hcluster, hserver⟩
    exact List.mem_flatMap.mpr ⟨cluster, hc, List.mem_map_of_mem hs⟩

theorem exists_visit_iff : (∃ v ∈ a.visits, v.cluster = cluster ∧ v.server = server) ↔
    ∃ x ∈ a.artifacts, x.tags.contains (.cluster cluster) = true ∧
      x.tags.contains (.server server) = true := by
  rw [← visit_mem_visits_iff]
  constructor
  · rintro ⟨v, hv, rfl, rfl⟩
    rwa [← eq_visit_of_mem hv]
  · exact fun h => ⟨_, h, rfl, rfl⟩

/-- The visits ascend by cluster, and within a cluster by server. -/
theorem ascending_visits (a : Archive) :
    a.visits.Pairwise fun u v => compare u.cluster v.cluster = .lt ∨
      u.cluster = v.cluster ∧ compare u.server v.server = .lt := by
  refine List.pairwise_flatMap.mpr ⟨fun cluster _ => ?_, ?_⟩
  · refine List.pairwise_map.mpr ((a.ascending_tagValuesWith _ _).imp ?_)
    exact fun hlt => .inr ⟨rfl, hlt⟩
  · refine (a.ascending_tagValues _).imp fun hlt u hu v hv => .inl ?_
    rw [(cluster_of_mem_visitsOf hu).1, (cluster_of_mem_visitsOf hv).1]
    exact hlt

theorem distinct_visits (a : Archive) :
    a.visits.Pairwise fun u v => ¬(u.cluster = v.cluster ∧ u.server = v.server) := by
  refine a.ascending_visits.imp ?_
  rintro u v (hlt | ⟨_, hlt⟩) ⟨hcluster, hserver⟩
  · simp [hcluster] at hlt
  · simp [hserver] at hlt

theorem snapshot_of_mem (h : v ∈ a.visits) :
    v.snapshot = match a.capture? v.cluster v.server with
      | none => .error (.noMatches (snapshotTags v.cluster v.server))
      | some x => x.decode Snapshot.record.read := by
  have hsnapshot := a.visit_snapshot v.cluster v.server
  rwa [← eq_visit_of_mem h] at hsnapshot

theorem isMissing_of_mem (h : v ∈ a.visits) :
    v.isMissing = (a.capture? v.cluster v.server).isNone := by
  have hmissing := a.isMissing_visit v.cluster v.server
  rwa [← eq_visit_of_mem h] at hmissing

end Archive

namespace Summary

/-- The snapshot of a server of a cluster. -/
def snapshot? (s : Summary) (cluster server : String) : Option Snapshot :=
  (s.get? cluster).bind (·.get? server)

variable {s : Summary} {v : Visit} {cluster server : String}

theorem record_of_error {e : ArchiveError} (h : v.snapshot = .error e) : s.record v = s := by
  rw [record, h]

theorem snapshot?_record {x : Snapshot} (h : v.snapshot = .ok x) :
    (s.record v).snapshot? cluster server =
      if cluster = v.cluster ∧ server = v.server then some x else s.snapshot? cluster server := by
  rw [record, h]
  simp only [snapshot?, SortedMap.get?_alter]
  by_cases hc : cluster = v.cluster
  · subst hc
    rw [if_pos rfl, Option.bind_some, SortedMap.get?_insert]
    by_cases hs : server = v.server
    · simp [hs]
    · cases hg : s.get? v.cluster <;> simp [hs]
  · simp [hc]

theorem snapshot?_foldl_record {visits : List Visit} {x : Snapshot}
    (hplaces : visits.Pairwise fun u v => ¬(u.cluster = v.cluster ∧ u.server = v.server)) :
    (visits.foldl record .empty).snapshot? cluster server = some x ↔
      ∃ v ∈ visits, v.cluster = cluster ∧ v.server = server ∧ v.snapshot = .ok x := by
  induction visits using List.reverseRecOn with
  | nil => simp [snapshot?]
  | append_singleton visits v ih =>
    obtain ⟨hbefore, -, hlast⟩ := List.pairwise_append.mp hplaces
    have ih := ih hbefore
    rw [List.foldl_append, List.foldl_cons, List.foldl_nil]
    cases hv : v.snapshot with
    | error e => simp [record_of_error hv, ih, or_and_right, exists_or, hv]
    | ok y =>
      rw [snapshot?_record hv]
      by_cases hplace : cluster = v.cluster ∧ server = v.server
      · -- An earlier visit of this server would be at the place of the last one.
        obtain ⟨rfl, rfl⟩ := hplace
        have hnone : ∀ u ∈ visits, ¬(u.cluster = v.cluster ∧ u.server = v.server) :=
          fun u hu => hlast u hu v (List.mem_singleton.mpr rfl)
        constructor
        · intro he
          exact ⟨v, by simp, rfl, rfl, by simpa [hv] using he⟩
        · rintro ⟨u, hu, hc, hs, hx⟩
          rcases List.mem_append.mp hu with hu | hu
          · exact absurd ⟨hc, hs⟩ (hnone u hu)
          · obtain rfl : u = v := List.mem_singleton.mp hu
            simpa [hv] using hx
      · have hne : ¬(v.cluster = cluster ∧ v.server = server) :=
          fun h => hplace ⟨h.1.symm, h.2.symm⟩
        rw [if_neg hplace, ih]
        constructor
        · rintro ⟨u, hu, h⟩
          exact ⟨u, List.mem_append_left _ hu, h⟩
        · rintro ⟨u, hu, hc, hs, hx⟩
          rcases List.mem_append.mp hu with hu | hu
          · exact ⟨u, hu, hc, hs, hx⟩
          · obtain rfl : u = v := List.mem_singleton.mp hu
            exact absurd ⟨hc, hs⟩ hne

/-- Only clusters with a snapshot are listed. -/
def Tight (s : Summary) : Prop :=
  ∀ cluster servers, s.get? cluster = some servers → servers.entries ≠ []

theorem Tight.record (h : s.Tight) (v : Visit) : (s.record v).Tight := by
  cases hv : v.snapshot with
  | error e => rwa [record_of_error hv]
  | ok x =>
    intro cluster servers hg
    rw [Summary.record, hv] at hg
    simp only [SortedMap.get?_alter] at hg
    by_cases hc : cluster = v.cluster
    · rw [if_pos hc, Option.some.injEq] at hg
      subst hg
      exact List.ne_nil_of_mem (SortedMap.mem_insert.mpr (.inl rfl))
    · rw [if_neg hc] at hg
      exact h cluster servers hg

theorem tight_foldl_record (visits : List Visit) :
    (visits.foldl record .empty).Tight := by
  induction visits using List.reverseRecOn with
  | nil => exact fun _ _ h => by simp at h
  | append_singleton visits v ih =>
    rw [List.foldl_append]
    exact ih.record v

end Summary

section

variable {ε σ : Type} {callback : Visit → ExceptT ε (StateM σ) Unit} {visits : List Visit}
  {s t u : σ}

/-- The callback succeeds at each of these visits in turn, and its state goes from one to
another. -/
inductive Calls (callback : Visit → ExceptT ε (StateM σ) Unit) : List Visit → σ → σ → Prop where
  | nil (s : σ) : Calls callback [] s s
  | cons {v : Visit} {visits : List Visit} {s t u : σ} :
      (callback v).run.run s = (.ok (), t) → Calls callback visits t u →
        Calls callback (v :: visits) s u

/-- Either all calls succeed or there is a first that does not. -/
theorem calls_or_fails (callback : Visit → ExceptT ε (StateM σ) Unit) (visits : List Visit)
    (s : σ) :
    (∃ t, Calls callback visits s t) ∨
      ∃ before v after t e u, visits = before ++ v :: after ∧ Calls callback before s t ∧
        (callback v).run.run t = (.error e, u) := by
  induction visits generalizing s with
  | nil => exact .inl ⟨s, .nil s⟩
  | cons v visits ih =>
    rcases hv : (callback v).run.run s with ⟨r, t⟩
    cases r with
    | error e => exact .inr ⟨[], v, visits, s, e, t, rfl, .nil s, hv⟩
    | ok =>
      rcases ih t with ⟨u, hu⟩ | ⟨before, w, after, u, e, z, rfl, hbefore, hw⟩
      · exact .inl ⟨u, .cons hv hu⟩
      · exact .inr ⟨v :: before, w, after, u, e, z, rfl, .cons hv hbefore, hw⟩

theorem run_bind_of_ok {α β : Type} {x : ExceptT ε (StateM σ) α} {r : α}
    (h : x.run.run s = (.ok r, t)) (f : α → ExceptT ε (StateM σ) β) :
    (x >>= f).run.run s = (f r).run.run t := by
  rw [ExceptT.run_bind, StateT.run_bind, h]
  rfl

theorem run_bind_of_error {α β : Type} {x : ExceptT ε (StateM σ) α} {e : ε}
    (h : x.run.run s = (.error e, t)) (f : α → ExceptT ε (StateM σ) β) :
    (x >>= f).run.run s = (.error e, t) := by
  rw [ExceptT.run_bind, StateT.run_bind, h]
  rfl

/-- One round of the walk. -/
def collect (callback : Visit → ExceptT ε (StateM σ) Unit) (summary : Summary) (v : Visit) :
    ExceptT ε (StateM σ) Summary := do
  callback v
  pure (summary.record v)

theorem run_collect_of_ok {v : Visit} (h : (callback v).run.run s = (.ok (), t))
    (summary : Summary) : (collect callback summary v).run.run s = (.ok (summary.record v), t) :=
  run_bind_of_ok h _

theorem run_collect_of_error {v : Visit} {e : ε} (h : (callback v).run.run s = (.error e, t))
    (summary : Summary) : (collect callback summary v).run.run s = (.error e, t) :=
  run_bind_of_error h _

theorem run_foldlM_of_calls (h : Calls callback visits s t) (summary : Summary) :
    (visits.foldlM (collect callback) summary).run.run s =
      (.ok (visits.foldl Summary.record summary), t) := by
  induction h generalizing summary with
  | nil s => rfl
  | cons hv _ ih =>
    rw [List.foldlM_cons, run_bind_of_ok (run_collect_of_ok hv summary), ih, List.foldl_cons]

theorem run_foldlM_of_fails {before after : List Visit} {v : Visit} {e : ε}
    (hbefore : Calls callback before s t) (hv : (callback v).run.run t = (.error e, u))
    (summary : Summary) :
    ((before ++ v :: after).foldlM (collect callback) summary).run.run s = (.error e, u) := by
  induction hbefore generalizing summary with
  | nil s =>
    rw [List.nil_append, List.foldlM_cons, run_bind_of_error (run_collect_of_error hv summary)]
  | cons hw _ ih =>
    rw [List.cons_append, List.foldlM_cons, run_bind_of_ok (run_collect_of_ok hw summary), ih hv]

end

namespace Archive

/-- The walk hands the callback every server of a cluster once, in ascending order, with its first
snapshot decoded. Unless the callback fails it goes on to the end and collects exactly the snapshots
that could be read; else it ends with the first failure and calls no more. -/
theorem walk_calls {ε σ : Type} (a : Archive) (callback : Visit → ExceptT ε (StateM σ) Unit)
    (s : σ) :
    (∀ cluster server, (∃ v ∈ a.visits, v.cluster = cluster ∧ v.server = server) ↔
      ∃ x ∈ a.artifacts, x.tags.contains (.cluster cluster) = true ∧
        x.tags.contains (.server server) = true) ∧
    (a.visits.Pairwise fun u v => compare u.cluster v.cluster = .lt ∨
      u.cluster = v.cluster ∧ compare u.server v.server = .lt) ∧
    (∀ v ∈ a.visits, v.snapshot = match a.capture? v.cluster v.server with
      | none => .error (.noMatches (snapshotTags v.cluster v.server))
      | some x => x.decode Snapshot.record.read) ∧
    ((∃ t summary, Calls callback a.visits s t ∧
        (a.walk callback).run.run s = (.ok summary, t) ∧ summary.Tight ∧
        ∀ cluster server x, summary.snapshot? cluster server = some x ↔
          ∃ v ∈ a.visits, v.cluster = cluster ∧ v.server = server ∧ v.snapshot = .ok x) ∨
      ∃ before v after t e u, a.visits = before ++ v :: after ∧ Calls callback before s t ∧
        (callback v).run.run t = (.error e, u) ∧
        (a.walk callback).run.run s = (.error e, u)) := by
  have hwalk : a.walk callback = a.visits.foldlM (collect callback) .empty := rfl
  refine ⟨fun _ _ => exists_visit_iff, a.ascending_visits, fun _ hv => snapshot_of_mem hv, ?_⟩
  rcases calls_or_fails callback a.visits s with
    ⟨t, hcalls⟩ | ⟨before, v, after, t, e, u, hvisits, hbefore, hv⟩
  · exact .inl ⟨t, a.visits.foldl Summary.record .empty, hcalls,
      hwalk ▸ run_foldlM_of_calls hcalls _, Summary.tight_foldl_record _,
      fun _ _ _ => Summary.snapshot?_foldl_record a.distinct_visits⟩
  · refine .inr ⟨before, v, after, t, e, u, hvisits, hbefore, hv, ?_⟩
    rw [hwalk, hvisits]
    exact run_foldlM_of_fails hbefore hv _

end Archive

end CaptureAudit
