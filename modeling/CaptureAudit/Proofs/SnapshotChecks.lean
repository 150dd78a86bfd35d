import CaptureAudit.Checks.MetaGroup
import CaptureAudit.Checks.ResourceUsage
import CaptureAudit.Proofs.Captures
import CaptureAudit.Proofs.ScriptEffect

/-! The checks of snapshots see nothing of an archive but the first snapshot of each server: what
else is in it changes none of their results. -/

namespace CaptureAudit

open Archive (captured snapshotTags)
open Script

/-- A step of a loop over visits that does nothing where nothing was captured, and whose effect does
not depend on what the loading told of. -/
structure Overlooks {β : Type} (f : β → Visit → Script β) : Prop where
  missing : ∀ x v, v.isMissing = true → (f x v).effect = pure x
  silent : ∀ x v, (f x v.silent).effect = (f x v).effect

theorem Overlooks.effect_foldlM {β : Type} {f : β → Visit → Script β} (h : Overlooks f)
    (visits : List Visit) (x : β) :
    (visits.foldlM f x).effect = ((captured visits).foldlM f x).effect := by
  have hkeep : ∀ x v, (!v.isMissing) = false → (f x v).effect = pure x :=
    fun x v hv => h.missing x v (by simpa using hv)
  rw [effect_foldlM_filter hkeep, captured, List.foldlM_map]
  exact effect_foldlM_congr (fun x v _ => (h.silent x v).symm) x

namespace MetaGroup

theorem steady_judgeReplicas (v : Visit) (snapshot : Snapshot) :
    (judgeReplicas v snapshot).Steady := by
  unfold judgeReplicas
  split
  · exact steady_note _
  · split
    · exact steady_pure ()
    · split
      · exact steady_note _
      · exact steady_forM fun _ => steady_record _

theorem steady_visitReplicas (v : Visit) : (visitReplicas v).Steady := by
  refine steady_bind (steady_forM steady_note) fun _ => steady_bind steady_checkpoint fun _ => ?_
  split
  · exact steady_judgeReplicas v _
  · split
    · exact steady_note _
    · trivial

theorem steady_concludeWith (instances : String) : (concludeWith instances).Steady := by
  refine steady_evidence_bind (fun e e' h => ?_) fun e => ?_
  · simp [Examples.isEmpty, h]
  · split
    · exact steady_pure _
    · exact steady_bind (steady_note _) fun _ => steady_pure _

theorem overlooks_visitReplicas : Overlooks fun _ v => visitReplicas v where
  missing x v hv := by
    obtain ⟨e, he, hmissing⟩ := v.exists_noMatches hv
    simp [visitReplicas, he, hmissing, warn]
  silent x v := by
    simp only [visitReplicas, List.forM_eq_forM, effect_bind, effect_notes]
    rfl

theorem effect_offlineReplicas {a b : Archive} (h : a.SameCaptures b) (d : Descriptor) :
    (offlineReplicas d a).effect = (offlineReplicas d b).effect := by
  rw [offlineReplicas, offlineReplicas, effect_bind, effect_bind, forM_eq_foldlM, forM_eq_foldlM,
    overlooks_visitReplicas.effect_foldlM a.visits, overlooks_visitReplicas.effect_foldlM b.visits,
    h.captured_visits]

theorem steady_offlineReplicas (d : Descriptor) (a : Archive) : (offlineReplicas d a).Steady :=
  steady_bind (steady_forM steady_visitReplicas) fun _ => steady_concludeWith _

theorem steady_reportedLeader (v : Visit) : (reportedLeader v).Steady := by
  refine steady_bind steady_checkpoint fun _ => steady_bind (steady_forM steady_note) fun _ => ?_
  split
  · split
    · exact steady_bind (steady_note _) fun _ => steady_pure _
    · trivial
  · split
    · exact steady_bind (steady_note _) fun _ => steady_pure _
    · split
      · exact steady_pure _
      · split
        · exact steady_bind (steady_note _) fun _ => steady_pure _
        · exact steady_pure _

/-- The groups after one more visit. -/
def addLeader (groups : Groups) (v : Visit) : Script Groups := do
  match ← reportedLeader v with
  | some leader => pure (groups.alter leader [] (· ++ [v.server]))
  | none => pure groups

theorem collectGroups_eq_foldlM (visits : List Visit) (groups : Groups) :
    collectGroups visits groups = visits.foldlM addLeader groups := by
  induction visits generalizing groups with
  | nil => rfl
  | cons v rest ih =>
    rw [collectGroups, List.foldlM_cons, addLeader, Script.bind_bind]
    refine congrArg (_ >>= ·) (funext fun leader? => ?_)
    cases leader? <;> exact ih _

theorem overlooks_addLeader : Overlooks addLeader where
  missing groups v hv := by
    obtain ⟨e, he, hmissing⟩ := v.exists_noMatches hv
    simp [addLeader, reportedLeader, he, hmissing, warn]
  silent groups v := by
    simp only [addLeader, reportedLeader, List.forM_eq_forM, effect_bind, effect_notes]
    rfl

theorem effect_judgeCluster (a : Archive) (cluster : String) :
    (judgeCluster a cluster).effect =
      (((captured (a.visitsOf cluster)).foldlM addLeader .empty) >>= fun groups =>
        if 1 < groups.entries.length then Script.record (disagreementText cluster groups)
        else pure ()).effect := by
  rw [judgeCluster, effect_bind, effect_bind, collectGroups_eq_foldlM,
    overlooks_addLeader.effect_foldlM]

theorem effect_leaderAgreement {a b : Archive} (h : a.SameCaptures b) (d : Descriptor) :
    (leaderAgreement d a).effect = (leaderAgreement d b).effect := by
  have hnothing : ∀ (a : Archive) (_ : Unit) (cluster : String),
      (!(captured (a.visitsOf cluster)).isEmpty) = false →
      (judgeCluster a cluster).effect = pure () := by
    intro a _ cluster hempty
    have hnil : captured (a.visitsOf cluster) = [] := by simpa using hempty
    rw [effect_judgeCluster, hnil]
    rfl
  have hclusters : (a.clusters.foldlM (fun _ c => judgeCluster a c) ()).effect =
      (b.clusters.foldlM (fun _ c => judgeCluster b c) ()).effect := by
    have hsame := h.capturedClusters
    rw [Archive.capturedClusters, Archive.capturedClusters] at hsame
    rw [effect_foldlM_filter (hnothing a), effect_foldlM_filter (hnothing b), hsame]
    refine effect_foldlM_congr (fun _ c _ => ?_) ()
    rw [effect_judgeCluster, effect_judgeCluster, h.captured_visitsOf]
  rw [leaderAgreement, leaderAgreement, effect_bind, effect_bind, forM_eq_foldlM, forM_eq_foldlM,
    hclusters]

theorem steady_collectGroups (visits : List Visit) (groups : Groups) :
    (collectGroups visits groups).Steady := by
  induction visits generalizing groups with
  | nil => trivial
  | cons v rest ih =>
    refine steady_bind (steady_reportedLeader v) fun leader? => ?_
    cases leader? <;> exact ih _

theorem steady_leaderAgreement (d : Descriptor) (a : Archive) : (leaderAgreement d a).Steady := by
  refine steady_bind (steady_forM fun c => steady_bind (steady_collectGroups _ _) fun groups => ?_)
    fun _ => steady_concludeWith _
  split
  · exact steady_record _
  · exact steady_pure _

end MetaGroup

namespace ResourceUsage

theorem steady_judgeUsages (threshold : String → Float) (v : Visit) (usages : List Usage)
    (exceeded : Nat) : (judgeUsages threshold v usages exceeded).Steady := by
  induction usages generalizing exceeded with
  | nil => trivial
  | cons u rest ih =>
    refine steady_bind ?_ fun n => ih (exceeded + n)
    unfold judgeUsage
    split
    · exact steady_bind (steady_record _) fun _ => steady_pure _
    · split
      · exact steady_bind (steady_record _) fun _ => steady_pure _
      · exact steady_pure _

theorem steady_visitServer (threshold : String → Float) (exceeded : Nat) (v : Visit) :
    (visitServer threshold exceeded v).Steady := by
  refine steady_bind (steady_forM steady_note) fun _ => steady_bind steady_checkpoint fun _ => ?_
  split
  · split
    · exact steady_bind (steady_note _) fun _ => steady_pure _
    · trivial
  · split
    · exact steady_pure _
    · split
      · exact steady_pure _
      · exact steady_judgeUsages _ _ _ _

theorem judgeUsages_silent (threshold : String → Float) (v : Visit) (usages : List Usage)
    (exceeded : Nat) :
    judgeUsages threshold v.silent usages exceeded = judgeUsages threshold v usages exceeded := by
  induction usages generalizing exceeded with
  | nil => rfl
  | cons u rest ih => exact congrArg (judgeUsage threshold v u >>= ·) (funext fun n => ih _)

theorem overlooks_visitServer (threshold : String → Float) : Overlooks (visitServer threshold) where
  missing exceeded v hv := by
    obtain ⟨e, he, hmissing⟩ := v.exists_noMatches hv
    simp [visitServer, he, hmissing]
  silent exceeded v := by
    have hjudge : judgeUsages threshold v.silent = judgeUsages threshold v :=
      funext fun usages => funext fun exceeded => judgeUsages_silent threshold v usages exceeded
    simp only [visitServer, List.forM_eq_forM, effect_bind, effect_notes, hjudge]
    rfl

theorem effect_resourceUsage {a b : Archive} (h : a.SameCaptures b) (d : Descriptor) :
    (resourceUsage d a).effect = (resourceUsage d b).effect := by
  rw [resourceUsage, resourceUsage, effect_bind, effect_bind,
    (overlooks_visitServer _).effect_foldlM a.visits,
    (overlooks_visitServer _).effect_foldlM b.visits, h.captured_visits]

theorem steady_resourceUsage (d : Descriptor) (a : Archive) : (resourceUsage d a).Steady := by
  refine steady_bind (steady_foldlM (steady_visitServer _)) fun exceeded => ?_
  split
  · exact steady_bind (steady_note _) fun _ => steady_pure _
  · refine steady_evidence_bind (fun e e' h => ?_) fun e => ?_
    · simp [Examples.isEmpty, h]
    · split
      · exact steady_pure _
      · exact steady_bind (steady_note _) fun _ => steady_pure _

end ResourceUsage

end CaptureAudit
