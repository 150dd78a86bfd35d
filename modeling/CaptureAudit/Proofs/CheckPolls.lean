import CaptureAudit.Proofs.ScriptPolls
import CaptureAudit.Proofs.UnreadableSnapshot

/-! How the checks of snapshots poll: once at every visit, before they judge it. A check ends at the
first visit that ends on its own, with the polls and the evidence of the visits before. -/

namespace CaptureAudit

open Script (Plays PollsAfter Unseen)

namespace MetaGroup

variable {signal : Nat → Bool} {a : Archive} {v : Visit} {t : Trace}

theorem plain_judgeReplicas (v : Visit) (snapshot : Snapshot) :
    (judgeReplicas v snapshot).Plain := by
  unfold judgeReplicas
  split
  · exact Script.plain_note _
  · split
    · exact Script.plain_pure ()
    · split
      · exact Script.plain_note _
      · exact Script.plain_forM fun _ => Script.plain_record _

theorem pollsAfter_visitReplicas (v : Visit) : PollsAfter v.events (visitReplicas v) := by
  refine ⟨_, ?_, rfl⟩
  split
  · exact plain_judgeReplicas v _
  · split
    · exact Script.plain_note _
    · trivial

theorem pollsAfter_addLeader (groups : Groups) (v : Visit) :
    PollsAfter [] (addLeader groups v) := by
  rw [addLeader, reportedLeader, Script.bind_bind]
  refine ⟨_, ?_, rfl⟩
  refine Script.plain_bind (Script.plain_bind (Script.plain_forM Script.plain_note) fun _ => ?_) ?_
  · split
    · split
      · exact Script.plain_bind (Script.plain_note _) fun _ => Script.plain_pure _
      · trivial
    · split
      · exact Script.plain_bind (Script.plain_note _) fun _ => Script.plain_pure _
      · split
        · exact Script.plain_pure _
        · split
          · exact Script.plain_bind (Script.plain_note _) fun _ => Script.plain_pure _
          · exact Script.plain_pure _
  · intro leader?
    cases leader? <;> exact Script.plain_pure _

theorem plain_concludeWith (instances : String) : (concludeWith instances).Plain := by
  intro e
  change Script.Plain (if e.isEmpty then _ else _)
  split
  · exact Script.plain_pure _
  · exact Script.plain_bind (Script.plain_note _) fun _ => Script.plain_pure _

theorem yields_offlineReplicas (d : Descriptor) (a : Archive) : (offlineReplicas d a).Yields := by
  refine Script.yields_bind ?_ fun _ => (plain_concludeWith _).yields
  rw [Script.forM_eq_foldlM]
  exact Script.yields_foldlM (fun _ v => (pollsAfter_visitReplicas v).yields) ()

theorem polls_offlineReplicas (h : ∀ v ∈ a.visits, v.isUnreadable = false) (d : Descriptor)
    (ht : Unseen signal t a.visits.length) :
    ((offlineReplicas d a).play signal t).2.polls = t.polls + a.visits.length := by
  have hwalk : (a.visits.forM visitReplicas).Plays signal t (a.visits.flatMap offlineTexts)
      (a.visits.flatMap (Visit.tells offlineWarning remarks)) a.visits.length (.ok ()) := by
    rw [Script.forM_eq_foldlM]
    exact PollsAfter.foldlM (fun _ v => pollsAfter_visitReplicas v)
      (fun _ v hv e => performs_visitReplicas (h v hv) e) ht ()
  exact hwalk.polls_play_bind (plain_concludeWith _)

/-- The check ends at a visit at which this visit alone would end it. -/
theorem offlineReplicas_ends {before after : List Visit} (hvisits : a.visits = before ++ v :: after)
    (hbefore : ∀ u ∈ before, u.isUnreadable = false) (ht : Unseen signal t before.length)
    {last : List Event} {halt : Halt} (hv : ∀ t', t'.cancelled = false →
      t'.polls = t.polls + before.length →
      (visitReplicas v).Plays signal t' [] last 1 (.error halt))
    (d : Descriptor) :
    (offlineReplicas d a).Plays signal t (before.flatMap offlineTexts)
      (before.flatMap (Visit.tells offlineWarning remarks) ++ last) (before.length + 1)
      (.error halt) := by
  refine .bind_of_halt ?_
  rw [hvisits, Script.forM_eq_foldlM]
  exact PollsAfter.foldlM_of_halt (fun _ v => pollsAfter_visitReplicas v)
    (fun _ u hu e => performs_visitReplicas (hbefore u hu) e) ht (fun _ => hv) ()

variable {cluster : String}

theorem yields_leaderAgreement (d : Descriptor) (a : Archive) : (leaderAgreement d a).Yields := by
  refine Script.yields_bind ?_ fun _ => (plain_concludeWith _).yields
  rw [Script.forM_eq_foldlM]
  refine Script.yields_foldlM (fun _ cluster => ?_) ()
  rw [judgeCluster, collectGroups_eq_foldlM]
  refine Script.yields_bind ?_ fun groups => ?_
  · exact Script.yields_foldlM (fun groups v => (pollsAfter_addLeader groups v).yields) .empty
  · split
    · exact (Script.plain_record _).yields
    · exact (Script.plain_pure ()).yields

theorem plays_judgeCluster {clusters : List String}
    (h : ∀ v ∈ clusters.flatMap a.visitsOf, v.isUnreadable = false) (_ : Unit) :
    ∀ cluster ∈ clusters, ∀ t, Unseen signal t (a.visitsOf cluster).length →
      (judgeCluster a cluster).Plays signal t (disagreements a cluster)
        ((a.visitsOf cluster).flatMap (Visit.tells leaderWarning remarks))
        (a.visitsOf cluster).length (.ok ()) := by
  intro cluster hcluster t ht
  have hreadable : ∀ v ∈ a.visitsOf cluster, v.isUnreadable = false :=
    fun v hv => h v (List.mem_flatMap.mpr ⟨cluster, hcluster, hv⟩)
  have hgroups := PollsAfter.foldlM pollsAfter_addLeader
    (fun groups v hv e => performs_addLeader (hreadable v hv) groups e) ht .empty
  rw [List.flatMap_eq_nil_iff.mpr fun _ _ => rfl, ← collectGroups_eq_foldlM] at hgroups
  have hjudge : ∀ t, (if 1 < (groupsOf a cluster).entries.length then
      Script.record (disagreementText cluster (groupsOf a cluster)) else pure ()).Plays signal t
      (disagreements a cluster) [] 0 (.ok ()) := by
    intro t
    rw [disagreements]
    split
    · exact .of_plain (Script.plain_record _) (.record _ _)
    · exact .pure () t
  rw [← List.append_nil (List.flatMap _ _)]
  exact hgroups.bind (f := fun groups => if 1 < groups.entries.length then
    Script.record (disagreementText cluster groups) else pure ()) (hjudge _)

theorem judgeCluster_ends {front back : List Visit}
    (hvisits : a.visitsOf cluster = front ++ v :: back)
    (hfront : ∀ u ∈ front, u.isUnreadable = false) (ht : Unseen signal t front.length)
    {last : List Event} {halt : Halt} (hv : ∀ groups t', t'.cancelled = false →
      t'.polls = t.polls + front.length →
      (addLeader groups v).Plays signal t' [] last 1 (.error halt)) :
    (judgeCluster a cluster).Plays signal t []
      (front.flatMap (Visit.tells leaderWarning remarks) ++ last) (front.length + 1)
      (.error halt) := by
  have htexts : front.flatMap (fun _ => ([] : List String)) = [] := by simp
  refine .bind_of_halt ?_
  rw [collectGroups_eq_foldlM, hvisits, ← htexts]
  exact PollsAfter.foldlM_of_halt pollsAfter_addLeader
    (fun groups u hu e => performs_addLeader (hfront u hu) groups e) ht hv .empty

theorem polls_leaderAgreement (h : ∀ v ∈ a.visits, v.isUnreadable = false) (d : Descriptor)
    (ht : Unseen signal t a.visits.length) :
    ((leaderAgreement d a).play signal t).2.polls = t.polls + a.visits.length := by
  have hlength : a.visits.length = (a.clusters.map fun c => (a.visitsOf c).length).sum :=
    List.length_flatMap
  rw [hlength] at ht ⊢
  have hwalk := Plays.foldlM (plays_judgeCluster h) ht ()
  rw [← Script.forM_eq_foldlM] at hwalk
  exact hwalk.polls_play_bind (plain_concludeWith _)

theorem leaderAgreement_ends {former latter : List String} {front back : List Visit}
    (hclusters : a.clusters = former ++ cluster :: latter)
    (hvisits : a.visitsOf cluster = front ++ v :: back)
    (hbefore : ∀ u ∈ former.flatMap a.visitsOf ++ front, u.isUnreadable = false)
    (ht : Unseen signal t (former.flatMap a.visitsOf ++ front).length)
    {last : List Event} {halt : Halt} (hv : ∀ groups t', t'.cancelled = false →
      t'.polls = t.polls + (former.flatMap a.visitsOf ++ front).length →
      (addLeader groups v).Plays signal t' [] last 1 (.error halt)) (d : Descriptor) :
    (leaderAgreement d a).Plays signal t (former.flatMap (disagreements a))
      ((former.flatMap a.visitsOf ++ front).flatMap (Visit.tells leaderWarning remarks) ++ last)
      ((former.flatMap a.visitsOf ++ front).length + 1) (.error halt) := by
  have hformer : ∀ u ∈ former.flatMap a.visitsOf, u.isUnreadable = false :=
    fun u hu => hbefore u (List.mem_append_left _ hu)
  have hfront : ∀ u ∈ front, u.isUnreadable = false :=
    fun u hu => hbefore u (List.mem_append_right _ hu)
  have hlength : (former.flatMap a.visitsOf ++ front).length =
      (former.map fun c => (a.visitsOf c).length).sum + front.length := by
    rw [List.length_append, List.length_flatMap]
  rw [hlength] at ht hv ⊢
  refine .bind_of_halt ?_
  rw [hclusters, Script.forM_eq_foldlM, List.flatMap_append, List.flatMap_assoc, List.append_assoc,
    Nat.add_assoc]
  refine Plays.foldlM_of_halt (plays_judgeCluster hformer) (ht.mono (Nat.le_add_right _ _))
    (fun _ t' hcalm hpolls => ?_) ()
  -- The polls of the cluster go on counting where those of the clusters before have stopped.
  refine judgeCluster_ends hvisits hfront ⟨hcalm, fun i hi => ?_⟩
    fun groups t'' hcalm'' hpolls'' => ?_
  · rw [hpolls, Nat.add_assoc]
    exact ht.silent _ (Nat.add_lt_add_left hi _)
  · exact hv groups t'' hcalm'' (by rw [hpolls'', hpolls, Nat.add_assoc])

end MetaGroup

namespace ResourceUsage

variable {signal : Nat → Bool} {a : Archive} {v : Visit} {t : Trace}

theorem plain_judgeUsages (threshold : String → Float) (v : Visit) (us : List Usage)
    (exceeded : Nat) : (judgeUsages threshold v us exceeded).Plain := by
  induction us generalizing exceeded with
  | nil => exact Script.plain_pure _
  | cons u us ih =>
    refine Script.plain_bind ?_ fun n => ih _
    unfold judgeUsage
    split
    · exact Script.plain_bind (Script.plain_record _) fun _ => Script.plain_pure _
    · split
      · exact Script.plain_bind (Script.plain_record _) fun _ => Script.plain_pure _
      · exact Script.plain_pure _

theorem pollsAfter_visitServer (threshold : String → Float) (exceeded : Nat) (v : Visit) :
    PollsAfter v.events (visitServer threshold exceeded v) := by
  refine ⟨_, ?_, rfl⟩
  split
  · split
    · exact Script.plain_bind (Script.plain_note _) fun _ => Script.plain_pure _
    · trivial
  · split
    · exact Script.plain_pure _
    · split
      · exact Script.plain_pure _
      · exact plain_judgeUsages threshold v _ exceeded

theorem plain_conclude (exceeded : Nat) :
    (if 0 < exceeded then do
      Script.note
        ⟨.error, .serverChecks, s!"Found {exceeded} JetStream resource(s) over their limit"⟩
      pure Outcome.fail
    else do
      let e ← Script.evidence
      if e.isEmpty then pure .pass
      else do
        Script.note ⟨.warn, .serverChecks,
          s!"Found {e.offered.toNat} JetStream resource(s) above the usage threshold"⟩
        pure .passWithIssues).Plain := by
  split
  · exact Script.plain_bind (Script.plain_note _) fun _ => Script.plain_pure _
  · intro e
    change Script.Plain (if e.isEmpty then _ else _)
    split
    · exact Script.plain_pure _
    · exact Script.plain_bind (Script.plain_note _) fun _ => Script.plain_pure _

theorem yields_resourceUsage (d : Descriptor) (a : Archive) : (resourceUsage d a).Yields := by
  refine Script.yields_bind ?_ fun exceeded => (plain_conclude exceeded).yields
  exact Script.yields_foldlM (fun n v => (pollsAfter_visitServer (threshold d) n v).yields) 0

theorem polls_resourceUsage (h : ∀ v ∈ a.visits, v.isUnreadable = false) (d : Descriptor)
    (ht : Unseen signal t a.visits.length) :
    ((resourceUsage d a).play signal t).2.polls = t.polls + a.visits.length := by
  have hwalk := PollsAfter.foldlM (fun n v => pollsAfter_visitServer (threshold d) n v)
    (fun n v hv e => performs_visitServer (h v hv) (threshold d) n e) ht 0
  exact hwalk.polls_play_bind (plain_conclude _)

theorem resourceUsage_ends {before after : List Visit} (hvisits : a.visits = before ++ v :: after)
    (hbefore : ∀ u ∈ before, u.isUnreadable = false) (ht : Unseen signal t before.length)
    {last : List Event} {halt : Halt} (d : Descriptor) (hv : ∀ exceeded t', t'.cancelled = false →
      t'.polls = t.polls + before.length →
      (visitServer (threshold d) exceeded v).Plays signal t' [] last 1 (.error halt)) :
    (resourceUsage d a).Plays signal t (before.flatMap (visitTexts (threshold d)))
      (before.flatMap (Visit.tells warning fun _ => []) ++ last) (before.length + 1)
      (.error halt) := by
  refine .bind_of_halt ?_
  rw [hvisits]
  exact PollsAfter.foldlM_of_halt (fun n v => pollsAfter_visitServer (threshold d) n v)
    (fun n u hu e => performs_visitServer (hbefore u hu) (threshold d) n e) ht hv 0

end ResourceUsage

end CaptureAudit
