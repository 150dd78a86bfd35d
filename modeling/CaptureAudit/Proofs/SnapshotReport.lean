import CaptureAudit.Archive.Specimen
import CaptureAudit.Proofs.PoolReport
import CaptureAudit.Proofs.SnapshotChecks

/-! Reports on snapshots: archives with the same first snapshot of each server get the same results.
-/

namespace CaptureAudit

theorem conclude_congr (code : String) {x y : Ending × Trace} (hending : x.1 = y.1)
    (hexamples : x.2.examples = y.2.examples) :
    (conclude code x).1 = (conclude code y).1 ∧
      (conclude code x).2.examples = (conclude code y).2.examples := by
  obtain ⟨e, t⟩ := x
  obtain ⟨f, u⟩ := y
  obtain rfl : e = f := hending
  have hu : t.examples = u.examples := hexamples
  cases e <;> simp [conclude, hu]

namespace Check

/-- The checks of the meta group and of JetStream resources, with any thresholds. -/
def JudgesSnapshots (c : Check) : Prop :=
  c.handler = some MetaGroup.offlineReplicas ∨ c.handler = some MetaGroup.leaderAgreement ∨
    c.handler = some ResourceUsage.resourceUsage

variable {c : Check}

theorem steady_script (h : c.JudgesSnapshots) (a : Archive) : (c.script a).Steady := by
  rcases h with h | h | h <;> simp only [script, h]
  · exact MetaGroup.steady_offlineReplicas _ a
  · exact MetaGroup.steady_leaderAgreement _ a
  · exact ResourceUsage.steady_resourceUsage _ a

theorem calm_script (h : c.JudgesSnapshots) (a : Archive) : (c.script a).Calm :=
  (c.steady_script h a).calm

theorem effect_script (h : c.JudgesSnapshots) {a b : Archive} (hab : a.SameCaptures b) :
    (c.script a).effect = (c.script b).effect := by
  rcases h with h | h | h <;> simp only [script, h]
  · exact MetaGroup.effect_offlineReplicas hab _
  · exact MetaGroup.effect_leaderAgreement hab _
  · exact ResourceUsage.effect_resourceUsage hab _

end Check

theorem runCheck_congr {c : Check} (h : c.JudgesSnapshots) {a b : Archive} (hab : a.SameCaptures b)
    (limit : UInt64) :
    (runCheck quiet false limit a c).1 = (runCheck quiet false limit b c).1 ∧
      (runCheck quiet false limit a c).2.examples =
        (runCheck quiet false limit b c).2.examples := by
  have hquiet : ∀ n, quiet n = false := fun _ => rfl
  have hfresh : (Trace.fresh limit false).cancelled = false := rfl
  have hrun : ∀ x : Archive, _ := fun x => Script.run_calm hquiet (c.calm_script h x) hfresh
  refine conclude_congr c.code ?_ ?_
  · rw [(hrun a).1, (hrun b).1, c.effect_script h hab]
  · rw [(hrun a).2.1, (hrun b).2.1, c.effect_script h hab]

namespace Runner

theorem lets_of_judgesSnapshots {c : Check} (h : c.JudgesSnapshots) (r : Runner) (a : Archive) :
    r.Lets a c := by
  intro _
  rw [runCheck, cancelled_conclude]
  exact (Script.run_calm (fun _ => rfl) (c.calm_script h a) rfl).2.2

theorem settled_congr {c : Check} (h : c.JudgesSnapshots) {a b : Archive} (hab : a.SameCaptures b)
    (r : Runner) : r.settled a c = r.settled b c := by
  obtain ⟨houtcome, hexamples⟩ := runCheck_congr h hab r.limit
  rw [settled, settled, houtcome, hexamples]

/-- Checks of snapshots give the same results, with the same evidence and errors, on archives that
have the same first snapshot of each server. So neither the order of artifacts nor later snapshots
of the same servers matter, nor anything that is no snapshot. -/
theorem results_of_sameCaptures (limit : UInt64) (skip : List String) (checks : List Check)
    (hchecks : ∀ c ∈ checks, c.JudgesSnapshots) :
    let report (a : Archive) (time : Timestamp) : Report :=
      ((Runner.ofLimits limit skip 1).run a time false checks).1
    let Agree (a b : Archive) : Prop := ∀ time time',
      (report a time).results = (report b time').results ∧
        (report a time).outcomes = (report b time').outcomes
    (∀ a b : Archive, (∀ cluster server, a.capture? cluster server = b.capture? cluster server) →
      Agree a b) ∧
    (∀ a b : Archive, a.artifacts.Perm b.artifacts →
      (∀ cluster server,
        (a.artifacts.filter (·.carries (Archive.snapshotTags cluster server))).length ≤ 1) →
      Agree a b) ∧
    (∀ (a b : Archive) before later after, a.artifacts = before ++ after →
      b.artifacts = before ++ later ++ after →
      (∀ x ∈ later, ∀ cluster server, x.carries (Archive.snapshotTags cluster server) = true →
        ∃ y ∈ before, y.carries (Archive.snapshotTags cluster server) = true) →
      Agree a b) ∧
    ∀ a b : Archive, a.artifacts.filter (·.tags.contains .snapshot) =
      b.artifacts.filter (·.tags.contains .snapshot) → Agree a b := by
  intro report Agree
  have hagree : ∀ a b : Archive, a.SameCaptures b → Agree a b := by
    intro a b hab time time'
    have hlets : ∀ x : Archive, ∀ c ∈ checks, (ofLimits limit skip 1).Lets x c :=
      fun x c hc => lets_of_judgesSnapshots (hchecks c hc) _ x
    have hresults : checks.map ((ofLimits limit skip 1).settled a) =
        checks.map ((ofLimits limit skip 1).settled b) :=
      List.map_congr_left fun c hc => settled_congr (hchecks c hc) hab _
    simp only [report, results_run (hlets a), results_run (hlets b), hresults]
    exact ⟨rfl, rfl⟩
  exact ⟨hagree, fun a b hp hone => hagree a b (.of_perm hp hone),
    fun a b before later after ha hb hlater => hagree a b (.of_later ha hb hlater),
    fun a b hf => hagree a b (.of_filter hf)⟩

/-- Servers without snapshots, in a cluster of their own, and metadata come and go. -/
theorem results_of_sameCaptures_of_others :
    let checks := MetaGroup.checks ++ ResourceUsage.checks
    let seen := [Specimen.rawSnapshot "C1" "s1"
      "\x7b\"data\":\x7b\"meta_cluster\":\x7b\"replicas\":[\x7b\"offline\":true\x7d]\x7d\x7d\x7d"]
    let a : Archive := .ofArtifacts seen
    let b : Archive := .ofArtifacts
      (Specimen.withoutSnapshots ++ seen ++ [Specimen.metadata {}])
    let report (x : Archive) : Report :=
      ((Runner.ofLimits 1 [] 1).run x Report.epoch false checks).1
    (∀ c ∈ checks, c.JudgesSnapshots) ∧ (report a).count .fail = 1 ∧
      (report a).results = (report b).results := by
  intro checks seen a b report
  have hchecks : ∀ c ∈ checks, c.JudgesSnapshots := by
    intro c hc
    simp only [checks, MetaGroup.checks, ResourceUsage.checks, List.cons_append, List.nil_append,
      List.mem_cons, List.not_mem_nil, or_false] at hc
    rcases hc with rfl | rfl | rfl
    · exact .inl rfl
    · exact .inr (.inl rfl)
    · exact .inr (.inr rfl)
  have hothers : Specimen.withoutSnapshots.filter (·.tags.contains .snapshot) = [] :=
    List.filter_eq_nil_iff.mpr (by decide +kernel)
  have hmetadata : [Specimen.metadata {}].filter (·.tags.contains .snapshot) = [] :=
    List.filter_eq_nil_iff.mpr (by decide +kernel)
  have hfilter : a.artifacts.filter (·.tags.contains .snapshot) =
      b.artifacts.filter (·.tags.contains .snapshot) := by
    change seen.filter _ = (Specimen.withoutSnapshots ++ seen ++ [Specimen.metadata {}]).filter _
    rw [List.filter_append, List.filter_append, hothers, hmetadata, List.nil_append,
      List.append_nil]
  have hfail : (report a).count .fail = 1 := by decide +kernel
  exact ⟨hchecks, hfail, ((results_of_sameCaptures 1 [] checks hchecks).2.2.2 a b hfilter
    Report.epoch Report.epoch).1⟩

end Runner

end CaptureAudit
