import CaptureAudit.Proofs.VisitFindings

/-! What the checks of the meta group record and tell of archives, up to the first visit whose
snapshot could not be read. -/

namespace CaptureAudit

open Script (Performs)

namespace MetaGroup

variable {v : Visit}

/-- What the checks of the meta group remark on a snapshot that could be read. -/
def remarks (v : Visit) : List Event :=
  match v.snapshot with
  | .error _ => []
  | .ok s =>
    match s.data with
    | none => [⟨.warn, .metaChecks, s!"{v.cluster} / {v.server} returned no JetStream data"⟩]
    | some data =>
      if data.disabled ∨ data.metaGroup.isSome then []
      else [⟨.warn, .metaChecks, s!"{v.cluster} / {v.server} does not have meta group info"⟩]

def offlineWarning (v : Visit) : Event :=
  ⟨.warn, .metaChecks, s!"Artifact 'JSZ' is missing for server {v.server}"⟩

/-- The evidence in a visit: a text for every replica that is marked offline. -/
def offlineTexts (v : Visit) : List String :=
  match v.metaGroup? with
  | none => []
  | some group =>
    (group.replicas.filter (·.offline)).map fun p => offlineText v.cluster v.server p.name

theorem performs_judgeReplicas {s : Snapshot} (hs : v.snapshot = .ok s) (e : Examples) :
    (judgeReplicas v s).Performs e (offlineTexts v) (remarks v) (.ok ()) := by
  rcases Visit.jetStream?_cases hs with
    ⟨hdata, hjet⟩ | ⟨data, hdata, hdisabled, hjet⟩ | ⟨data, hdata, hdisabled, hjet⟩
  · simp only [judgeReplicas, offlineTexts, remarks, Visit.metaGroup?, hs, hdata, hjet]
    exact .note _ e
  · simp only [judgeReplicas, offlineTexts, remarks, Visit.metaGroup?, hs, hdata, hdisabled, hjet,
      true_or, if_true]
    exact .pure () e
  · simp only [judgeReplicas, offlineTexts, remarks, Visit.metaGroup?, hs, hdata, hdisabled, hjet,
      Bool.false_eq_true, false_or, if_false, Option.bind_some]
    cases data.metaGroup with
    | none => exact .note _ e
    | some group => exact .records _ _ e

theorem performs_visitReplicas (h : v.isUnreadable = false) (e : Examples) :
    (visitReplicas v).Performs e (offlineTexts v) (v.tells offlineWarning remarks) (.ok ()) := by
  rcases Visit.snapshot_cases h with ⟨s, hs, hmissing⟩ | ⟨err, hs, hno, hmissing, hdata⟩
  · simp only [visitReplicas, hs, Visit.tells, hmissing, Bool.false_eq_true, if_false]
    exact performs_notes_checkpoint (performs_judgeReplicas hs e)
  · have htexts : offlineTexts v = [] := by simp [offlineTexts, Visit.metaGroup?, hdata]
    simp only [visitReplicas, hs, hno, if_true, Visit.tells, hmissing, htexts]
    exact performs_notes_checkpoint (.note _ e)

theorem visitReplicas_halts {err : ArchiveError} (hs : v.snapshot = .error err)
    (hno : err.isNoMatches = false) (e : Examples) :
    (visitReplicas v).Performs e [] v.events
      (.error (.error [s!"failed to load JSZ for server {v.server}: {err.message}"])) := by
  simp only [visitReplicas, hs, hno, Bool.false_eq_true, if_false]
  simpa using performs_notes_checkpoint (v := v) (Performs.fail _ e)

def leaderWarning (v : Visit) : Event :=
  ⟨.warn, .metaChecks, s!"Artifact 'JSZ' is missing for server {v.server} cluster {v.cluster}"⟩

/-- The leader that a server of the meta group reports. -/
def leader? (v : Visit) : Option String :=
  v.metaGroup?.map fun group => if group.leader.isEmpty then noLeader else group.leader

theorem performs_reportedLeader (h : v.isUnreadable = false) (e : Examples) :
    (reportedLeader v).Performs e [] (v.tells leaderWarning remarks) (.ok (leader? v)) := by
  rcases Visit.snapshot_cases h with ⟨s, hs, hmissing⟩ | ⟨err, hs, hno, hmissing, hdata⟩
  · simp only [reportedLeader, hs, Visit.tells, hmissing, Bool.false_eq_true, if_false]
    refine performs_checkpoint_notes ?_
    rcases Visit.jetStream?_cases hs with
      ⟨hdata, hjet⟩ | ⟨data, hdata, hdisabled, hjet⟩ | ⟨data, hdata, hdisabled, hjet⟩
    · simp only [leader?, remarks, Visit.metaGroup?, hs, hdata, hjet]
      exact (Performs.note _ e).bind (.pure none e)
    · simp only [leader?, remarks, Visit.metaGroup?, hs, hdata, hdisabled, hjet, true_or, if_true]
      exact .pure none e
    · simp only [leader?, remarks, Visit.metaGroup?, hs, hdata, hdisabled, hjet,
        Bool.false_eq_true, false_or, if_false, Option.bind_some]
      cases data.metaGroup with
      | none => exact (Performs.note _ e).bind (.pure none e)
      | some group => exact .pure _ e
  · have hleader : leader? v = none := by simp [leader?, Visit.metaGroup?, hdata]
    simp only [reportedLeader, hs, hno, if_true, Visit.tells, hmissing, hleader]
    exact performs_checkpoint_notes ((Performs.note _ e).bind (.pure none e))

theorem reportedLeader_halts {err : ArchiveError} (hs : v.snapshot = .error err)
    (hno : err.isNoMatches = false) (e : Examples) :
    (reportedLeader v).Performs e [] v.events
      (.error (.error (s!"failed to load JSZ for server {v.server}" :: err.chain))) := by
  simp only [reportedLeader, hs, hno, Bool.false_eq_true, if_false]
  simpa using performs_checkpoint_notes (v := v) (Performs.fail _ e)

/-- The groups with the server of one more visit, if it reports a leader. -/
def joinGroups (groups : Groups) (v : Visit) : Groups :=
  match leader? v with
  | some leader => groups.alter leader [] (· ++ [v.server])
  | none => groups

/-- The servers of a cluster by the leaders that they report. -/
def groupsOf (a : Archive) (cluster : String) : Groups :=
  (a.visitsOf cluster).foldl joinGroups .empty

/-- The evidence in a cluster: a text when its servers report more than one leader. -/
def disagreements (a : Archive) (cluster : String) : List String :=
  if 1 < (groupsOf a cluster).entries.length then [disagreementText cluster (groupsOf a cluster)]
  else []

theorem performs_addLeader (h : v.isUnreadable = false) (groups : Groups) (e : Examples) :
    (addLeader groups v).Performs e [] (v.tells leaderWarning remarks)
      (.ok (joinGroups groups v)) := by
  have hjoin : (match leader? v with
      | some leader => pure (groups.alter leader [] (· ++ [v.server]))
      | none => pure groups : Script Groups).Performs e [] [] (.ok (joinGroups groups v)) := by
    rw [joinGroups]
    cases leader? v <;> exact .pure _ e
  rw [← List.append_nil (v.tells leaderWarning remarks)]
  exact (performs_reportedLeader h e).bind hjoin

theorem addLeader_halts {err : ArchiveError} (hs : v.snapshot = .error err)
    (hno : err.isNoMatches = false) (groups : Groups) (e : Examples) :
    (addLeader groups v).Performs e [] v.events
      (.error (.error (s!"failed to load JSZ for server {v.server}" :: err.chain))) :=
  (reportedLeader_halts hs hno e).bind_of_halt

variable {a : Archive} {cluster : String}

theorem performs_judgeCluster (h : ∀ v ∈ a.visitsOf cluster, v.isUnreadable = false)
    (e : Examples) :
    (judgeCluster a cluster).Performs e (disagreements a cluster)
      ((a.visitsOf cluster).flatMap (Visit.tells leaderWarning remarks)) (.ok ()) := by
  have hgroups :=
    Performs.foldlM (fun groups v hv e => performs_addLeader (h v hv) groups e) .empty e
  rw [List.flatMap_eq_nil_iff.mpr fun _ _ => rfl, ← collectGroups_eq_foldlM] at hgroups
  have hjudge : (if 1 < (groupsOf a cluster).entries.length then
      Script.record (disagreementText cluster (groupsOf a cluster)) else pure ()).Performs e
      (disagreements a cluster) [] (.ok ()) := by
    rw [disagreements]
    split
    · exact .record _ e
    · exact .pure () e
  rw [← List.append_nil (List.flatMap _ _)]
  exact hgroups.bind hjudge

theorem judgeCluster_halts {front back : List Visit}
    (hsplit : a.visitsOf cluster = front ++ v :: back)
    (hfront : ∀ u ∈ front, u.isUnreadable = false) {err : ArchiveError}
    (hs : v.snapshot = .error err) (hno : err.isNoMatches = false) (e : Examples) :
    (judgeCluster a cluster).Performs e []
      (front.flatMap (Visit.tells leaderWarning remarks) ++ v.events)
      (.error (.error (s!"failed to load JSZ for server {v.server}" :: err.chain))) := by
  have htexts : front.flatMap (fun _ => ([] : List String)) = [] := by simp
  refine .bind_of_halt ?_
  rw [collectGroups_eq_foldlM, hsplit, ← htexts]
  exact .foldlM_of_halt (fun groups u hu e => performs_addLeader (hfront u hu) groups e)
    (fun groups e => addLeader_halts hs hno groups e) .empty e

/-- The outcome by the evidence, and what is told of it. -/
def verdict (instances : String) (e : Examples) : Outcome × List Event :=
  if e.isEmpty then (.pass, [])
  else (.fail, [⟨.error, .metaChecks, s!"Found {e.offered.toNat} instance of {instances}"⟩])

theorem verdict_ne_skipped (instances : String) (e : Examples) :
    (verdict instances e).1 ≠ .skipped := by
  unfold verdict
  split <;> simp

theorem performs_concludeWith (instances : String) (e : Examples) :
    (concludeWith instances).Performs e [] (verdict instances e).2
      (.ok (verdict instances e).1) := by
  refine (Performs.evidence e).bind ?_
  rw [verdict]
  by_cases hempty : e.isEmpty = true
  · simp only [hempty, if_true]
    exact .pure Outcome.pass e
  · simp only [hempty]
    exact (Performs.note _ e).bind (.pure Outcome.fail e)

theorem performs_offlineReplicas (h : ∀ v ∈ a.visits, v.isUnreadable = false) (d : Descriptor)
    (e : Examples) :
    let texts := a.visits.flatMap offlineTexts
    let result := verdict "replicas marked offline by peers" (texts.foldl Examples.add e)
    (offlineReplicas d a).Performs e texts
      (a.visits.flatMap (Visit.tells offlineWarning remarks) ++ result.2) (.ok result.1) := by
  intro texts result
  have hwalk : (a.visits.forM visitReplicas).Performs e texts
      (a.visits.flatMap (Visit.tells offlineWarning remarks)) (.ok ()) := by
    rw [Script.forM_eq_foldlM]
    exact .foldlM (fun _ v hv e => performs_visitReplicas (h v hv) e) () e
  rw [← List.append_nil texts]
  exact hwalk.bind (performs_concludeWith _ _)

theorem offlineReplicas_halts {before after : List Visit}
    (hvisits : a.visits = before ++ v :: after)
    (hbefore : ∀ u ∈ before, u.isUnreadable = false) {err : ArchiveError}
    (hs : v.snapshot = .error err) (hno : err.isNoMatches = false) (d : Descriptor) (e : Examples) :
    (offlineReplicas d a).Performs e (before.flatMap offlineTexts)
      (before.flatMap (Visit.tells offlineWarning remarks) ++ v.events)
      (.error (.error [s!"failed to load JSZ for server {v.server}: {err.message}"])) := by
  refine .bind_of_halt ?_
  rw [hvisits, Script.forM_eq_foldlM]
  exact .foldlM_of_halt (fun _ u hu e => performs_visitReplicas (hbefore u hu) e)
    (fun _ e => visitReplicas_halts hs hno e) () e

theorem performs_leaderAgreement (h : ∀ v ∈ a.visits, v.isUnreadable = false) (d : Descriptor)
    (e : Examples) :
    let texts := a.clusters.flatMap (disagreements a)
    let result := verdict "replicas disagreeing on meta-cluster leader" (texts.foldl Examples.add e)
    (leaderAgreement d a).Performs e texts
      (a.visits.flatMap (Visit.tells leaderWarning remarks) ++ result.2) (.ok result.1) := by
  intro texts result
  have hcluster : ∀ c ∈ a.clusters, ∀ v ∈ a.visitsOf c, v.isUnreadable = false :=
    fun c hc v hv => h v (List.mem_flatMap.mpr ⟨c, hc, hv⟩)
  have hwalk : (a.clusters.forM (judgeCluster a)).Performs e texts
      (a.visits.flatMap (Visit.tells leaderWarning remarks)) (.ok ()) := by
    rw [Script.forM_eq_foldlM, Archive.visits, List.flatMap_assoc]
    exact .foldlM (fun _ c hc e => performs_judgeCluster (hcluster c hc) e) () e
  rw [← List.append_nil texts]
  exact hwalk.bind (performs_concludeWith _ _)

theorem leaderAgreement_halts {before after : List String} {front back : List Visit}
    (hclusters : a.clusters = before ++ cluster :: after)
    (hvisits : a.visitsOf cluster = front ++ v :: back)
    (hbefore : ∀ c ∈ before, ∀ u ∈ a.visitsOf c, u.isUnreadable = false)
    (hfront : ∀ u ∈ front, u.isUnreadable = false) {err : ArchiveError}
    (hs : v.snapshot = .error err) (hno : err.isNoMatches = false) (d : Descriptor) (e : Examples) :
    (leaderAgreement d a).Performs e (before.flatMap (disagreements a))
      ((before.flatMap a.visitsOf ++ front).flatMap (Visit.tells leaderWarning remarks) ++ v.events)
      (.error (.error (s!"failed to load JSZ for server {v.server}" :: err.chain))) := by
  refine .bind_of_halt ?_
  rw [hclusters, Script.forM_eq_foldlM, List.flatMap_append, List.flatMap_assoc, List.append_assoc]
  exact .foldlM_of_halt (fun _ c hc e => performs_judgeCluster (hbefore c hc) e)
    (fun _ e => judgeCluster_halts hvisits hfront hs hno e) () e

end MetaGroup

end CaptureAudit
