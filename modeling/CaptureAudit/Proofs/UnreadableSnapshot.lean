import CaptureAudit.Proofs.SnapshotReport
import CaptureAudit.Proofs.MetaGroupFindings
import CaptureAudit.Proofs.UsageFindings
import CaptureAudit.Proofs.Walk

/-! The checks of snapshots stop together: at the first visit whose snapshot could not be read. All
that they tell of and record until then concerns the visits before it. -/

namespace CaptureAudit

open Script (Performs)

namespace Archive

variable {a : Archive} {v : Visit}

theorem isUnreadable_iff (h : v ∈ a.visits) :
    v.isUnreadable = true ↔ ∃ x fault, a.capture? v.cluster v.server = some x ∧
      x.decode Snapshot.record.read = .error (.decode x.tags.toList fault) := by
  rw [Visit.isUnreadable, snapshot_of_mem h]
  cases a.capture? v.cluster v.server with
  | none => simp [ArchiveError.isNoMatches]
  | some x =>
    cases hread : Json.readBytes Snapshot.record.read x.payload <;>
      simp [Artifact.decode, hread, Except.mapError, ArchiveError.isNoMatches]

/-- Where the first snapshot that could not be read is found. -/
theorem exists_stop (h : a.visits.find? (·.isUnreadable) = some v) :
    ∃ before after front back, a.clusters = before ++ v.cluster :: after ∧
      a.visitsOf v.cluster = front ++ v :: back ∧
      (∀ c ∈ before, ∀ u ∈ a.visitsOf c, u.isUnreadable = false) ∧
      (∀ u ∈ front, u.isUnreadable = false) ∧ v.isUnreadable = true := by
  rw [visits, List.find?_flatMap] at h
  obtain ⟨before, cluster, after, hclusters, hfind, hbefore⟩ := List.findSome?_eq_some_iff.mp h
  obtain ⟨hv, front, back, hvisits, hfront⟩ := List.find?_eq_some_iff_append.mp hfind
  have hmem : v ∈ a.visitsOf cluster := by simp [hvisits]
  obtain ⟨rfl, _⟩ := cluster_of_mem_visitsOf hmem
  refine ⟨before, after, front, back, hclusters, hvisits, ?_, by simpa using hfront, hv⟩
  intro c hc u hu
  simpa using List.find?_eq_none.mp (hbefore c hc) u hu

theorem takeWhile_clusters {cluster : String} {before after : List String}
    (h : a.clusters = before ++ cluster :: after) :
    a.clusters.takeWhile (· ≠ cluster) = before := by
  have hnodup : (before ++ cluster :: after).Nodup :=
    h ▸ nodup_of_ascending (a.ascending_tagValues _)
  have hne : ∀ c ∈ before, decide (c ≠ cluster) = true := by
    intro c hc
    simpa using fun he : c = cluster => List.disjoint_of_nodup_append hnodup hc (by simp [he])
  rw [h, List.takeWhile_append_of_pos hne, List.takeWhile_cons_of_neg (by simp), List.append_nil]

theorem exists_fault (h : v ∈ a.visits) (hbad : v.isUnreadable = true) :
    ∃ x fault, a.capture? v.cluster v.server = some x ∧
      x.decode Snapshot.record.read = .error (.decode x.tags.toList fault) ∧
      v.snapshot = .error (.decode x.tags.toList fault) := by
  obtain ⟨x, fault, hcapture, hdecode⟩ := (isUnreadable_iff h).mp hbad
  refine ⟨x, fault, hcapture, hdecode, ?_⟩
  rw [snapshot_of_mem h, hcapture]
  exact hdecode

end Archive

section

variable {s : Script Outcome} {limit : UInt64} {texts : List String} {events : List Event}
  {a : Archive} {c : Check}

theorem run_of_performs {r : Except Halt Outcome} (hcalm : s.Calm)
    (h : s.Performs (.empty limit) texts events r) :
    (s.run quiet (.fresh limit false)).1 = .ofExcept r ∧
      (s.run quiet (.fresh limit false)).2.examples = texts.foldl .add (.empty limit) ∧
      (s.run quiet (.fresh limit false)).2.events = events := by
  have hquiet : ∀ n, quiet n = false := fun _ => rfl
  have hfresh : (Trace.fresh limit false).cancelled = false := rfl
  obtain ⟨hending, hexamples, _⟩ := Script.run_calm hquiet hcalm hfresh
  have htold := Script.run_told hquiet hcalm hfresh
  have heffect : s.effect (Trace.fresh limit false).examples = _ := h.effect
  rw [heffect] at hending hexamples
  exact ⟨hending, hexamples, htold.trans h.told⟩

theorem runCheck_of_ok {o : Outcome} (hcalm : (c.script a).Calm)
    (h : (c.script a).Performs (.empty limit) texts events (.ok o)) :
    let run := runCheck quiet false limit a c
    run.1 = o ∧ run.2.examples = texts.foldl .add (.empty limit) ∧ run.2.events = events := by
  obtain ⟨hending, hexamples, hevents⟩ := run_of_performs hcalm h
  rw [runCheck]
  generalize (c.script a).run quiet (.fresh limit false) = x at hending hexamples hevents
  obtain ⟨e, t⟩ := x
  obtain rfl : e = .outcome o := hending
  exact ⟨rfl, hexamples, hevents⟩

theorem runCheck_of_error {chain : List String} (hcalm : (c.script a).Calm)
    (h : (c.script a).Performs (.empty limit) texts events (.error (.error chain))) :
    let run := runCheck quiet false limit a c
    let reason := String.intercalate ": " chain
    run.1 = .skipped ∧
      run.2.examples = (texts.foldl Examples.add (.empty limit)).setError reason ∧
      run.2.events =
        events ++ [⟨.warn, .runner, s!"Check {c.code} could not complete: {reason}"⟩] := by
  obtain ⟨hending, hexamples, hevents⟩ := run_of_performs hcalm h
  rw [runCheck]
  generalize (c.script a).run quiet (.fresh limit false) = x at hending hexamples hevents
  obtain ⟨e, t⟩ := x
  obtain rfl : e = .error chain := hending
  exact ⟨rfl, congrArg (Examples.setError · _) hexamples, congrArg (· ++ _) hevents⟩

end

/-- The checks of snapshots. -/
inductive Judge where
  | offlineReplicas
  | leaderAgreement
  | resourceUsage

namespace Judge

def handler : Judge → Handler
  | .offlineReplicas => MetaGroup.offlineReplicas
  | .leaderAgreement => MetaGroup.leaderAgreement
  | .resourceUsage => ResourceUsage.resourceUsage

def warning : Judge → Visit → Event
  | .offlineReplicas => MetaGroup.offlineWarning
  | .leaderAgreement => MetaGroup.leaderWarning
  | .resourceUsage => ResourceUsage.warning

def remarks : Judge → Visit → List Event
  | .offlineReplicas | .leaderAgreement => MetaGroup.remarks
  | .resourceUsage => fun _ => []

/-- The evidence found when these visits and these clusters are judged to the end. Leaders are
judged by cluster. -/
def evidence (d : Descriptor) (a : Archive) (visits : List Visit) (clusters : List String) :
    Judge → List String
  | .offlineReplicas => visits.flatMap MetaGroup.offlineTexts
  | .leaderAgreement => clusters.flatMap (MetaGroup.disagreements a)
  | .resourceUsage => visits.flatMap (ResourceUsage.visitTexts (ResourceUsage.threshold d))

def verdict (visits : List Visit) (e : Examples) : Judge → Outcome × List Event
  | .offlineReplicas => MetaGroup.verdict "replicas marked offline by peers" e
  | .leaderAgreement => MetaGroup.verdict "replicas disagreeing on meta-cluster leader" e
  | .resourceUsage => ResourceUsage.verdict (visits.map ResourceUsage.overLimits).sum e

variable {a : Archive} {v : Visit}

/-- The events of a visit whose snapshot is missing or could be read. -/
def tells (j : Judge) : Visit → List Event := Visit.tells j.warning j.remarks

/-- The check of leaders tells what is wrong with an artifact a second time. -/
def cause (fault : Json.Fault) : Judge → String
  | .offlineReplicas | .resourceUsage => ""
  | .leaderAgreement => s!": {fault.message}"

def reason (v : Visit) (tags : List Tag) (fault : Json.Fault) (j : Judge) : String :=
  s!"failed to load JSZ for server {v.server}: " ++
    s!"failed to decode artifact {Tag.describe tags}: {fault.message}" ++ j.cause fault

def run (j : Judge) (d : Descriptor) (limit : UInt64) (a : Archive) : Outcome × Trace :=
  runCheck quiet false limit a ⟨d, some j.handler⟩

theorem reason_eq (v : Visit) (tags : List Tag) (fault : Json.Fault) (j : Judge) :
    j.reason v tags fault =
      s!"failed to load JSZ for server {v.server}: {(ArchiveError.decode tags fault).message}" ++
        j.cause fault := rfl

theorem verdict_ne_skipped (visits : List Visit) (e : Examples) (j : Judge) :
    (j.verdict visits e).1 ≠ .skipped := by
  cases j with
  | offlineReplicas | leaderAgreement => exact MetaGroup.verdict_ne_skipped _ e
  | resourceUsage => exact ResourceUsage.verdict_ne_skipped _ e

theorem performs_handler (h : ∀ v ∈ a.visits, v.isUnreadable = false) (d : Descriptor) (j : Judge)
    (e : Examples) :
    let texts := j.evidence d a a.visits a.clusters
    let result := j.verdict a.visits (texts.foldl .add e)
    (j.handler d a).Performs e texts (a.visits.flatMap j.tells ++ result.2) (.ok result.1) := by
  cases j with
  | offlineReplicas => exact MetaGroup.performs_offlineReplicas h d e
  | leaderAgreement => exact MetaGroup.performs_leaderAgreement h d e
  | resourceUsage => exact ResourceUsage.performs_resourceUsage h d e

theorem handler_halts (h : a.visits.find? (·.isUnreadable) = some v) {tags : List Tag}
    {fault : Json.Fault} (hs : v.snapshot = .error (.decode tags fault)) (d : Descriptor)
    (j : Judge) (e : Examples) :
    ∃ chain, String.intercalate ": " chain = j.reason v tags fault ∧
      (j.handler d a).Performs e
        (j.evidence d a (a.visits.takeWhile (!·.isUnreadable))
          (a.clusters.takeWhile (· ≠ v.cluster)))
        ((a.visits.takeWhile (!·.isUnreadable)).flatMap j.tells ++ v.events)
        (.error (.error chain)) := by
  obtain ⟨before, after, front, back, hclusters, hvisits, hbefore, hfront, hv⟩ :=
    Archive.exists_stop h
  -- Checks that go from visit to visit and the check that goes from cluster to cluster stop at the
  -- same visit, which this splitting of the visits tells.
  have hsplit : a.visits = (before.flatMap a.visitsOf ++ front) ++
      v :: (back ++ after.flatMap a.visitsOf) := by
    simp [Archive.visits, hclusters, hvisits]
  have hreadable : ∀ u ∈ before.flatMap a.visitsOf ++ front, u.isUnreadable = false := by
    intro u hu
    rcases List.mem_append.mp hu with hu | hu
    · obtain ⟨c, hc, hu⟩ := List.mem_flatMap.mp hu
      exact hbefore c hc u hu
    · exact hfront u hu
  have hseen : a.visits.takeWhile (!·.isUnreadable) = before.flatMap a.visitsOf ++ front := by
    rw [hsplit, List.takeWhile_append_of_pos (by simpa using hreadable),
      List.takeWhile_cons_of_neg (by simp [hv]), List.append_nil]
  have hno : (ArchiveError.decode tags fault).isNoMatches = false := rfl
  rw [hseen, Archive.takeWhile_clusters hclusters]
  cases j with
  | offlineReplicas =>
    refine ⟨_, ?_, MetaGroup.offlineReplicas_halts hsplit hreadable hs hno d e⟩
    rw [String.intercalate_singleton, reason_eq, cause, String.append_empty]
  | leaderAgreement =>
    refine ⟨_, ?_, MetaGroup.leaderAgreement_halts hclusters hvisits hbefore hfront hs hno d e⟩
    rw [ArchiveError.chain, String.intercalate_cons_cons, String.intercalate_cons_cons,
      String.intercalate_singleton, reason_eq, cause]
    exact (congrArg (_ ++ ·) String.append_assoc).trans String.append_assoc.symm
  | resourceUsage =>
    refine ⟨_, ?_, ResourceUsage.resourceUsage_halts hsplit hreadable hs hno d e⟩
    rw [String.intercalate_singleton, reason_eq, cause, String.append_empty]

theorem calm_script (d : Descriptor) (a : Archive) (j : Judge) :
    ((Check.mk d (some j.handler)).script a).Calm := by
  refine Check.calm_script ?_ a
  cases j with
  | offlineReplicas => exact .inl rfl
  | leaderAgreement => exact .inr (.inl rfl)
  | resourceUsage => exact .inr (.inr rfl)

/-- The check has judged every visit. -/
structure Finishes (j : Judge) (d : Descriptor) (limit : UInt64) (a : Archive) : Prop where
  outcome : (j.run d limit a).1 = (j.verdict a.visits (j.run d limit a).2.examples).1
  examples : (j.run d limit a).2.examples =
    (j.evidence d a a.visits a.clusters).foldl Examples.add (.empty limit)
  events : (j.run d limit a).2.events =
    a.visits.flatMap j.tells ++ (j.verdict a.visits (j.run d limit a).2.examples).2

/-- The check is skipped at a visit whose snapshot, of an artifact with these tags, cannot be
decoded. -/
structure StopsAt (j : Judge) (d : Descriptor) (limit : UInt64) (a : Archive) (v : Visit)
    (tags : List Tag) (fault : Json.Fault) : Prop where
  outcome : (j.run d limit a).1 = .skipped
  examples : (j.run d limit a).2.examples =
    ((j.evidence d a (a.visits.takeWhile (!·.isUnreadable))
      (a.clusters.takeWhile (· ≠ v.cluster))).foldl Examples.add (.empty limit)).setError
        (j.reason v tags fault)
  events : (j.run d limit a).2.events =
    (a.visits.takeWhile (!·.isUnreadable)).flatMap j.tells ++ v.events ++
      [⟨.warn, .runner, s!"Check {d.code} could not complete: {j.reason v tags fault}"⟩]

theorem finishes (h : ∀ v ∈ a.visits, v.isUnreadable = false) (j : Judge) (d : Descriptor)
    (limit : UInt64) : j.Finishes d limit a := by
  obtain ⟨houtcome, hexamples, hevents⟩ :=
    runCheck_of_ok (j.calm_script d a) (j.performs_handler h d _)
  exact ⟨hexamples ▸ houtcome, hexamples, hexamples ▸ hevents⟩

theorem stopsAt (h : a.visits.find? (·.isUnreadable) = some v) {tags : List Tag}
    {fault : Json.Fault} (hs : v.snapshot = .error (.decode tags fault)) (j : Judge)
    (d : Descriptor) (limit : UInt64) : j.StopsAt d limit a v tags fault := by
  obtain ⟨chain, hchain, hhalts⟩ := j.handler_halts h hs d (.empty limit)
  have hrun := runCheck_of_error (j.calm_script d a) hhalts
  rw [hchain] at hrun
  exact ⟨hrun.1, hrun.2.1, hrun.2.2⟩

/-- Without cancellation the checks of snapshots run to their end together or are skipped together.
They are skipped exactly when the first snapshot of a visited server cannot be decoded, and then
stop at the first such visit. Until then each check has warned once of every visited server without
a snapshot, in the order of the visits, and its evidence is that of the visits before, or of the
clusters before when it judges clusters as a whole. -/
theorem run_until_unreadable (a : Archive) (limit : UInt64) (d : Judge → Descriptor) :
    (MetaGroup.checks ++ ResourceUsage.checks).map Check.handler =
      [offlineReplicas, leaderAgreement, resourceUsage].map (fun j => some j.handler) ∧
    (a.visits.Pairwise fun u v => compare u.cluster v.cluster = .lt ∨
      u.cluster = v.cluster ∧ compare u.server v.server = .lt) ∧
    (∀ v ∈ a.visits, v.isMissing = (a.capture? v.cluster v.server).isNone) ∧
    (∀ v ∈ a.visits, v.isUnreadable = true ↔
      ∃ x fault, a.capture? v.cluster v.server = some x ∧
        x.decode Snapshot.record.read = .error (.decode x.tags.toList fault)) ∧
    (∀ j, (run j (d j) limit a).1 = .skipped ↔ ∃ v ∈ a.visits, v.isUnreadable = true) ∧
    (a.visits.find? (·.isUnreadable) = none → ∀ j, Finishes j (d j) limit a) ∧
    ∀ v, a.visits.find? (·.isUnreadable) = some v → ∃ x fault,
      a.capture? v.cluster v.server = some x ∧
      x.decode Snapshot.record.read = .error (.decode x.tags.toList fault) ∧
      ∀ j, StopsAt j (d j) limit a v x.tags.toList fault := by
  have hfinish : a.visits.find? (·.isUnreadable) = none → ∀ j, Finishes j (d j) limit a :=
    fun hnone j => finishes (by simpa using List.find?_eq_none.mp hnone) j (d j) limit
  have hstop : ∀ v, a.visits.find? (·.isUnreadable) = some v → ∃ x fault,
      a.capture? v.cluster v.server = some x ∧
      x.decode Snapshot.record.read = .error (.decode x.tags.toList fault) ∧
      ∀ j, StopsAt j (d j) limit a v x.tags.toList fault := by
    intro v hv
    obtain ⟨x, fault, hcapture, hdecode, hs⟩ :=
      Archive.exists_fault (List.mem_of_find?_eq_some hv) (List.find?_some hv)
    exact ⟨x, fault, hcapture, hdecode, fun j => stopsAt hv hs j (d j) limit⟩
  refine ⟨rfl, a.ascending_visits, fun v hv => Archive.isMissing_of_mem hv,
    fun v hv => Archive.isUnreadable_iff hv, fun j => ?_, hfinish, hstop⟩
  cases hfind : a.visits.find? (·.isUnreadable) with
  | none =>
    have hne : (j.run (d j) limit a).1 ≠ .skipped :=
      (hfinish hfind j).outcome ▸ j.verdict_ne_skipped _ _
    simpa [hne] using List.find?_eq_none.mp hfind
  | some v =>
    obtain ⟨x, fault, _, _, hstops⟩ := hstop v hfind
    exact ⟨fun _ => ⟨v, List.mem_of_find?_eq_some hfind, List.find?_some hfind⟩,
      fun _ => (hstops j).outcome⟩

example :
    let a : Archive := .ofArtifacts
      [Specimen.rawSnapshot "C2" "s1" "\x7b", Specimen.rawSnapshot "C1" "s2" "\x7b\x7d"]
    [offlineReplicas, leaderAgreement, resourceUsage].map
      (fun j => (j.run ResourceUsage.descriptor 1 a).1) = [.skipped, .skipped, .skipped] := by
  decide +kernel

end Judge

end CaptureAudit
