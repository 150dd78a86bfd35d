import CaptureAudit.Proofs.Findings
import CaptureAudit.Proofs.LeaderGroups

/-! The check of offline replicas offers one example for every replica that a server of the meta
group marks offline, and fails when there is one. -/

namespace CaptureAudit.MetaGroup

variable {a : Archive} {v : Visit} {p : Peer × Nat}

/-- The server takes part in the meta group, and this replica of its list, at this place, is marked
offline. -/
def MarksOffline (v : Visit) (p : Peer × Nat) : Prop :=
  ∃ s data group, v.snapshot = .ok s ∧ s.data = some data ∧ data.disabled = false ∧
    data.metaGroup = some group ∧ group.replicas[p.2]? = some p.1 ∧ p.1.offline = true

def offlineReplicasOf (v : Visit) : List (Peer × Nat) :=
  match v.metaGroup? with
  | none => []
  | some group => group.replicas.zipIdx.filter (·.1.offline)

theorem mem_offlineReplicasOf : p ∈ offlineReplicasOf v ↔ MarksOffline v p := by
  rw [offlineReplicasOf]
  constructor
  · intro h
    cases hgroup : v.metaGroup? with
    | none => simp [hgroup] at h
    | some group =>
      rw [hgroup] at h
      obtain ⟨hp, hoffline⟩ := List.mem_filter.mp h
      obtain ⟨s, data, hs, hdata, hdisabled, hmeta⟩ := Visit.metaGroup?_eq_some_iff.mp hgroup
      have hplace : group.replicas[p.2]? = some p.1 := List.mem_zipIdx_iff_getElem?.mp hp
      exact ⟨s, data, group, hs, hdata, hdisabled, hmeta, hplace, hoffline⟩
  · rintro ⟨s, data, group, hs, hdata, hdisabled, hmeta, hp, hoffline⟩
    have hgroup := Visit.metaGroup?_eq_some_iff.mpr ⟨s, data, hs, hdata, hdisabled, hmeta⟩
    rw [hgroup]
    exact List.mem_filter.mpr ⟨List.mem_zipIdx_iff_getElem?.mpr hp, hoffline⟩

theorem pairwise_offlineReplicasOf (v : Visit) :
    (offlineReplicasOf v).Pairwise fun p q => p.2 < q.2 := by
  rw [offlineReplicasOf]
  -- The places were counted through, and what is left of them ascends still.
  cases v.metaGroup? with
  | none => exact .nil
  | some group =>
    have hplaces : (group.replicas.zipIdx.map Prod.snd).Pairwise (· < ·) := by
      rw [List.zipIdx_map_snd]
      exact List.pairwise_lt_range'
    exact (List.pairwise_map.mp hplaces).filter _

theorem offlineTexts_eq (v : Visit) :
    offlineTexts v =
      (offlineReplicasOf v).map fun p => offlineText v.cluster v.server p.1.name := by
  rw [offlineTexts, offlineReplicasOf]
  cases v.metaGroup? with
  | none => rfl
  | some group =>
    have hreplicas : group.replicas.filter (·.offline) =
        (group.replicas.zipIdx.filter (·.1.offline)).map Prod.fst := by
      conv_lhs => rw [← List.zipIdx_map_fst 0 group.replicas]
      exact List.filter_map
    simp only [hreplicas, List.map_map]
    rfl

def offlineEntries (a : Archive) : List (Finding (Peer × Nat)) := a.findings offlineReplicasOf

def entryText (f : Finding (Peer × Nat)) : String := offlineText f.cluster f.server f.item.1.name

/-- Where every snapshot that was captured can be read, the check of offline replicas offers one
example for every replica that a visited server of the meta group marks offline, by cluster and
server and then in the order of the server's list, and fails when it offered one. The examples are
counted in 64 bits. -/
theorem run_offlineReplicas (a : Archive) (d : Descriptor) (limit : UInt64)
    (hread : ∀ v ∈ a.visits, ∀ x, a.capture? v.cluster v.server = some x →
      ∃ s, x.decode Snapshot.record.read = .ok s) :
    (checks.filter (·.code = "META_001")).map Check.handler = [some offlineReplicas] ∧
    (∀ f, f ∈ offlineEntries a ↔
      ∃ v ∈ a.visits, v.cluster = f.cluster ∧ v.server = f.server ∧ MarksOffline v f.item) ∧
    (offlineEntries a).Pairwise (Finding.Precedes fun p q => p.2 < q.2) ∧
    let run := runCheck quiet false limit a ⟨d, some offlineReplicas⟩
    run.2.examples =
      { stored := ((offlineEntries a).map entryText).take limit.toNat, limit
        offered := UInt64.ofNat (offlineEntries a).length, error := none } ∧
    run.1 = (if run.2.examples.offered = 0 then .pass else .fail) ∧
    ((offlineEntries a).length < 0x10000000000000000 →
      run.2.examples.offered.toNat = (offlineEntries a).length ∧
      (run.1 = .fail ↔ offlineEntries a ≠ []) ∧ (run.1 = .pass ↔ offlineEntries a = [])) := by
  have hreadable : ∀ v ∈ a.visits, v.isUnreadable = false :=
    fun v hv => Archive.isUnreadable_eq_false hv (hread v hv)
  have hfinishes := Judge.offlineReplicas.finishes hreadable d limit
  have htexts : a.visits.flatMap offlineTexts = (offlineEntries a).map entryText := by
    rw [offlineEntries, Archive.map_findings]
    exact List.flatMap_congr fun v _ => offlineTexts_eq v
  have hexamples : (Judge.offlineReplicas.run d limit a).2.examples =
      { stored := ((offlineEntries a).map entryText).take limit.toNat, limit
        offered := UInt64.ofNat (offlineEntries a).length, error := none } := by
    rw [hfinishes.examples, Judge.evidence, htexts, Examples.foldl_add_empty, List.length_map]
  have houtcome : (Judge.offlineReplicas.run d limit a).1 =
      if (Judge.offlineReplicas.run d limit a).2.examples.offered = 0 then .pass else .fail := by
    rw [hfinishes.outcome, Judge.verdict, outcome_verdict]
  refine ⟨rfl, fun f => ?_, Archive.pairwise_findings pairwise_offlineReplicasOf, hexamples,
    houtcome, fun hcount => ?_⟩
  · simp only [offlineEntries, Archive.mem_findings, mem_offlineReplicasOf]
  · obtain ⟨hoffered, hnone⟩ := count_eq hcount
    rw [List.length_eq_zero_iff] at hnone
    change (Judge.offlineReplicas.run d limit a).2.examples.offered.toNat = _ ∧
      ((Judge.offlineReplicas.run d limit a).1 = _ ↔ _) ∧
      ((Judge.offlineReplicas.run d limit a).1 = _ ↔ _)
    rw [houtcome, hexamples]
    by_cases hnil : offlineEntries a = []
    · simp [hnil]
    · simp [hnil, hnone, hoffered]

/-- One example fits of the three that are offered; two of these are for the same peer. -/
theorem run_offlineReplicas_beyond_room :
    let a : Archive := .ofArtifacts (Specimen.snapshot "C2" "srv4" (Specimen.disabled "srv4") ::
      Specimen.snapshot "C0" "srv9"
        (Specimen.withPeers "srv9" "srv9" [("srv8", true), ("srv7", false), ("srv8", true)]) ::
      Specimen.withOfflinePeer)
    let run := runCheck quiet false 1 a ⟨.plain "META_001" suite "" "", some offlineReplicas⟩
    run.2.examples.stored = ["C0 - srv9 reports peer srv8 as offline"] ∧
      run.2.examples.offered.toNat = 3 ∧ run.1 = .fail := by
  intro a
  have hdecode : ∀ x ∈ a.artifacts, ∃ s, x.decode Snapshot.record.read = .ok s := by
    intro x hx
    simp only [a, Archive.ofArtifacts, Specimen.withOfflinePeer, List.mem_cons, List.not_mem_nil,
      or_false] at hx
    rcases hx with rfl | rfl | rfl | rfl <;> exact ⟨_, Specimen.decode_snapshot _ _ _⟩
  have hvisits : a.visits = [a.visit "C0" "srv9", a.visit "C1" "srv1", a.visit "C1" "srv2",
      a.visit "C2" "srv4"] := by
    have hclusters : a.clusters = ["C0", "C1", "C2"] := by decide +kernel
    have hfirst : a.serversOf "C0" = ["srv9"] := by decide +kernel
    have hsecond : a.serversOf "C1" = ["srv1", "srv2"] := by decide +kernel
    have hthird : a.serversOf "C2" = ["srv4"] := by decide +kernel
    simp [Archive.visits, Archive.visitsOf, hclusters, hfirst, hsecond, hthird]
  have hsnapshots : (a.visit "C0" "srv9").snapshot = .ok (Specimen.withPeers "srv9" "srv9"
        [("srv8", true), ("srv7", false), ("srv8", true)]) ∧
      (a.visit "C1" "srv1").snapshot =
        .ok (Specimen.withPeers "srv1" "srv1" [("srv2", false), ("srv3", true)]) ∧
      (a.visit "C1" "srv2").snapshot =
        .ok (Specimen.withPeers "srv2" "srv1" [("srv1", false), ("srv3", false)]) ∧
      (a.visit "C2" "srv4").snapshot = .ok (Specimen.disabled "srv4") := by
    refine ⟨?_, ?_, ?_, ?_⟩ <;> apply Specimen.snapshot_visit <;>
      simp [a, Archive.capture?, Archive.ofArtifacts, Specimen.withOfflinePeer,
        Specimen.carries_snapshot]
  have htexts : (offlineEntries a).map entryText = ["C0 - srv9 reports peer srv8 as offline",
      "C0 - srv9 reports peer srv8 as offline", "C1 - srv1 reports peer srv3 as offline"] := by
    obtain ⟨h0, h1, h2, h3⟩ := hsnapshots
    rw [offlineEntries, Archive.map_findings, hvisits]
    simp only [offlineReplicasOf, Visit.metaGroup?, Visit.jetStream?, List.flatMap_cons, h0, h1, h2,
      h3]
    rfl
  have hlength : (offlineEntries a).length = 3 := by
    have hmap := congrArg List.length htexts
    rwa [List.length_map] at hmap
  obtain ⟨-, -, -, hexamples, -, hcounted⟩ :=
    run_offlineReplicas a (.plain "META_001" suite "" "") 1
      fun v _ x hx => hdecode x (List.mem_of_find?_eq_some hx)
  obtain ⟨hoffered, hfail, -⟩ := hcounted (by omega)
  have hsome : offlineEntries a ≠ [] := List.ne_nil_of_length_pos (by omega)
  refine ⟨?_, hoffered.trans hlength, hfail.mpr hsome⟩
  rw [hexamples, htexts]
  rfl

end CaptureAudit.MetaGroup
