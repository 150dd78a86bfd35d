import CaptureAudit.Proofs.OneLineFaults
import CaptureAudit.Proofs.ScriptTexts
import CaptureAudit.Proofs.SnapshotReport
import CaptureAudit.Proofs.Walk

/-! The names that the checks of snapshots take from an archive. What a check records of a server or
fails with is made of such names and of texts that let no two of them touch, so it forges no verdict
unless a name does. -/

namespace CaptureAudit

open Text

/-- The leader and the members of the meta group. -/
def Snapshot.names (s : Snapshot) : List String :=
  match s.data.bind JetStream.metaGroup with
  | some group => group.leader :: group.replicas.map Peer.name
  | none => []

def Visit.names (v : Visit) : List String :=
  match v.snapshot with
  | .ok s => s.names
  | .error _ => []

def CaptureMetadata.names (m : CaptureMetadata) : List String :=
  [m.serverName, m.serverVersion, m.userName]

/-- The texts of an archive that a report may show: what its artifacts are tagged with, the members
of the meta group that the snapshots name, and the metadata of the capture. -/
def Archive.names (a : Archive) : List String :=
  a.artifacts.flatMap (fun x => x.tags.toList.map Tag.value) ++ a.visits.flatMap Visit.names ++
    (Runner.metadataOf a).1.names

theorem Tag.sound_text {t : Tag} (h : Sound t.value) : Sound t.text := by
  have hname : OneLine t.dimension.name := by cases t.dimension <;> decide
  exact (hname.append (show OneLine ":" by decide)).closed.append h

theorem Tag.sound_describe {tags : List Tag} (h : ∀ t ∈ tags, Sound t.value) :
    Sound (describe tags) := by
  cases tags with
  | nil => exact (show OneLine "<no tags>" by decide).sound
  | cons t rest =>
    refine (sound_intercalate joint_comma _).mpr fun text htext => ?_
    obtain ⟨t, ht, rfl⟩ := List.mem_map.mp htext
    exact sound_text (h t ht)

namespace Visit

/-- Neither the names of the visit nor the errors that it ends with forge a verdict. -/
structure Sound (v : Visit) : Prop where
  cluster : Text.Sound v.cluster
  server : Text.Sound v.server
  names : ∀ name ∈ v.names, Text.Sound name
  error : ∀ e, v.snapshot = .error e → ¬e.isNoMatches = true → ∀ text ∈ e.chain, Text.Sound text

variable {v : Visit}

theorem Sound.loading (h : v.Sound) : Text.Sound s!"failed to load JSZ for server {v.server}" :=
  (OneLine.closed (by decide)).append h.server

theorem Sound.failure (h : v.Sound) {e : ArchiveError} (he : v.snapshot = .error e)
    (hcaptured : ¬e.isNoMatches = true) :
    Text.Sound s!"failed to load JSZ for server {v.server}: {e.message}" := by
  refine (h.loading.append_joint joint_colon).append (h.error e he hcaptured _ ?_)
  unfold ArchiveError.chain
  split <;> exact List.mem_cons_self

end Visit

theorem ArchiveError.sound_chain_decode {tags : List Tag} {fault : Json.Fault}
    (htags : ∀ t ∈ tags, Sound t.value) (hfault : OneLine fault.message) :
    ∀ text ∈ (decode tags fault).chain, Sound text := by
  have hmessage : Sound (decode tags fault).message :=
    (OneLine.closed (by decide) |>.append (Tag.sound_describe htags) |>.append_joint joint_colon
      |>.append_oneLine hfault).sound
  simp only [chain, List.forall_mem_cons]
  exact ⟨hmessage, hfault.sound, by simp⟩

/-- The names of the clusters and all that the visits take up forge no verdict. -/
structure Archive.Sound (a : Archive) : Prop where
  cluster : ∀ cluster ∈ a.clusters, Text.Sound cluster
  visit : ∀ v ∈ a.visits, v.Sound

theorem Archive.sound_of_names {a : Archive} (h : ∀ name ∈ a.names, Text.Sound name) :
    a.Sound := by
  have htag : ∀ x ∈ a.artifacts, ∀ t ∈ x.tags.toList, Text.Sound t.value := by
    intro x hx t ht
    refine h _ (List.mem_append_left _ (List.mem_append_left _ ?_))
    exact List.mem_flatMap.mpr ⟨x, hx, List.mem_map_of_mem ht⟩
  refine ⟨fun cluster hcluster => ?_, fun v hv => ?_⟩
  · obtain ⟨x, hx, ht⟩ := mem_tagValues.mp hcluster
    exact htag x hx _ (SortedSet.contains_iff.mp ht)
  obtain ⟨x, hx, hcluster, hserver⟩ := visit_mem_visits_iff.mp (eq_visit_of_mem hv ▸ hv)
  refine ⟨htag x hx _ (SortedSet.contains_iff.mp hcluster),
    htag x hx _ (SortedSet.contains_iff.mp hserver), fun name hname => ?_, fun e he => ?_⟩
  · refine h name (List.mem_append_left _ (List.mem_append_right _ ?_))
    exact List.mem_flatMap.mpr ⟨v, hv, hname⟩
  · intro hcaptured
    rw [snapshot_of_mem hv] at he
    cases hcapture : a.capture? v.cluster v.server with
    | none =>
      rw [hcapture] at he
      exact absurd (Except.error.inj he ▸ rfl) hcaptured
    | some y =>
      rw [hcapture] at he
      obtain ⟨fault, rfl, hshort⟩ := Artifact.exists_of_decode he
      exact ArchiveError.sound_chain_decode (htag y (List.mem_of_find?_eq_some hcapture)) hshort

open Script

theorem sound_cancelledError : Sound cancelledError :=
  (show OneLine cancelledError by decide).sound

namespace MetaGroup

variable {v : Visit} {a : Archive}

theorem sound_offlineText {cluster server peer : String} (hc : Sound cluster) (hs : Sound server)
    (hp : Sound peer) : Sound (offlineText cluster server peer) :=
  (hc.append_joint (by decide) |>.append hs |>.append_joint (by decide) |>.append hp
    |>.append_joint (by decide)).sound

theorem says_judgeReplicas (h : v.Sound) {s : Snapshot} (hs : v.snapshot = .ok s) :
    (judgeReplicas v s).Says Sound fun _ => True := by
  unfold judgeReplicas
  split
  · exact says_note _
  · next data hdata =>
    split
    · exact says_pure trivial
    · split
      · exact says_note _
      · next group hgroup =>
        refine says_forM fun p hp => says_record (sound_offlineText h.cluster h.server ?_)
        refine h.names _ ?_
        simp only [Visit.names, hs, Snapshot.names, hdata, Option.bind_some, hgroup]
        exact List.mem_cons_of_mem _ (List.mem_map_of_mem (List.mem_of_mem_filter hp))

theorem says_visitReplicas (h : v.Sound) : (visitReplicas v).Says Sound fun _ => True := by
  refine says_bind (says_forM fun e _ => says_note e) fun _ _ =>
    says_bind (says_checkpoint sound_cancelledError) fun _ _ => ?_
  split
  · next s hs => exact says_judgeReplicas h hs
  · next e he =>
    split
    · exact says_note _
    · next hcaptured =>
      rw [Says, String.intercalate_singleton]
      exact h.failure he hcaptured

theorem says_concludeWith (instances : String) :
    (concludeWith instances).Says Sound fun _ => True := by
  refine says_bind says_evidence fun e _ => ?_
  split
  · exact says_pure trivial
  · exact says_bind (says_note _) fun _ _ => says_pure trivial

theorem says_offlineReplicas (h : a.Sound) (d : Descriptor) :
    (offlineReplicas d a).Says Sound fun _ => True :=
  says_bind (says_forM fun v hv => says_visitReplicas (h.visit v hv)) fun _ _ =>
    says_concludeWith _

theorem says_reportedLeader (h : v.Sound) :
    (reportedLeader v).Says Sound fun leader? => ∀ leader ∈ leader?, Sound leader := by
  have hnone : ∀ event, (do Script.note event; pure none : Script (Option String)).Says Sound
      fun leader? => ∀ leader ∈ leader?, Sound leader :=
    fun event => says_bind (says_note event) fun _ _ => says_pure (by simp)
  refine says_bind (says_checkpoint sound_cancelledError) fun _ _ =>
    says_bind (says_forM fun e _ => says_note e) fun _ _ => ?_
  split
  · next e he =>
    split
    · exact hnone _
    · next hcaptured =>
      refine (sound_intercalate joint_colon _).mpr ?_
      exact List.forall_mem_cons.mpr ⟨h.loading, h.error e he hcaptured⟩
  · next s hs =>
    split
    · exact hnone _
    · next data hdata =>
      split
      · exact says_pure (by simp)
      · split
        · exact hnone _
        · next group hgroup =>
          refine says_pure fun leader hleader => ?_
          obtain rfl := Option.some.inj hleader
          split
          · exact (show OneLine noLeader by decide).sound
          · refine h.names _ ?_
            simp only [Visit.names, hs, Snapshot.names, hdata, Option.bind_some, hgroup]
            exact List.mem_cons_self

/-- The leaders and the servers of the groups forge no verdict. -/
def SoundGroups (groups : Groups) : Prop :=
  ∀ leader servers, groups.get? leader = some servers →
    Sound leader ∧ ∀ server ∈ servers, Sound server

theorem SoundGroups.alter {groups : Groups} (h : SoundGroups groups) {leader server : String}
    (hl : Sound leader) (hs : Sound server) :
    SoundGroups (groups.alter leader [] (· ++ [server])) := by
  intro other servers hget
  rw [SortedMap.get?_alter] at hget
  split at hget
  · next he =>
    obtain rfl := Option.some.inj hget
    refine ⟨he ▸ hl, fun s hmem => ?_⟩
    rcases List.mem_append.mp hmem with hold | hnew
    · cases hg : groups.get? leader with
      | none => simp [hg] at hold
      | some old => exact (h leader old hg).2 s (by simpa [hg] using hold)
    · exact List.mem_singleton.mp hnew ▸ hs
  · exact h other servers hget

theorem says_collectGroups {visits : List Visit} (hv : ∀ v ∈ visits, v.Sound) {groups : Groups}
    (h : SoundGroups groups) : (collectGroups visits groups).Says Sound SoundGroups := by
  induction visits generalizing groups with
  | nil => exact h
  | cons v rest ih =>
    have hrest := fun u hu => hv u (List.mem_cons_of_mem v hu)
    refine says_bind (says_reportedLeader (hv v List.mem_cons_self)) fun leader? hleader => ?_
    cases leader? with
    | none => exact ih hrest h
    | some leader => exact ih hrest (h.alter (hleader leader rfl) (hv v List.mem_cons_self).server)

theorem sound_disagreementText {cluster : String} {groups : Groups} (hc : Sound cluster)
    (h : SoundGroups groups) : Sound (disagreementText cluster groups) := by
  have hservers : ∀ g ∈ groups.entries, Sound (String.intercalate ", " g.2) := fun g hg =>
    (sound_intercalate joint_comma _).mpr (h g.1 g.2 (SortedMap.get?_eq_some_iff.mpr hg)).2
  have hgroup : ∀ g ∈ groups.entries, Sound (describeGroup g) := fun g hg =>
    ((h g.1 g.2 (SortedMap.get?_eq_some_iff.mpr hg)).1.append_joint (by decide)
      |>.append (hservers g hg) |>.append_joint (by decide)).sound
  have hgroups : Sound (describeGroups groups) := by
    refine (sound_intercalate joint_comma _).mpr fun text htext => ?_
    obtain ⟨g, hg, rfl⟩ := List.mem_map.mp htext
    exact hgroup g hg
  exact (OneLine.closed (by decide) |>.append hc |>.append_joint (by decide) |>.append hgroups
    |>.append_joint (by decide)).sound

theorem soundGroups_empty : SoundGroups .empty := by
  intro leader servers h
  simp at h

theorem says_judgeCluster (h : a.Sound) {cluster : String} (hcluster : cluster ∈ a.clusters) :
    (judgeCluster a cluster).Says Sound fun _ => True := by
  have hv : ∀ v ∈ a.visitsOf cluster, v.Sound :=
    fun v hv => h.visit v (List.mem_flatMap.mpr ⟨cluster, hcluster, hv⟩)
  refine says_bind (says_collectGroups hv soundGroups_empty) fun groups hgroups => ?_
  split
  · exact says_record (sound_disagreementText (h.cluster cluster hcluster) hgroups)
  · exact says_pure trivial

theorem says_leaderAgreement (h : a.Sound) (d : Descriptor) :
    (leaderAgreement d a).Says Sound fun _ => True :=
  says_bind (says_forM fun _ hc => says_judgeCluster h hc) fun _ _ => says_concludeWith _

end MetaGroup

namespace ResourceUsage

variable {v : Visit} {a : Archive} {threshold : String → Float}

/-- Every usage text begins this way. -/
theorem closed_usage (h : v.Sound) {u : Usage} (hu : OneLine u.resource) :
    Closed s!"{v.cluster} - {v.server} {u.resource} usage {percent 1 u.ratio}" :=
  h.cluster.append_joint (by decide) |>.append h.server |>.append_joint (by decide)
    |>.append_oneLine hu |>.append_oneLine (by decide) |>.append_oneLine (oneLine_fixedPlaces 1 _)

theorem sound_overLimitText (h : v.Sound) {u : Usage} (hu : OneLine u.resource) :
    Sound (overLimitText v.cluster v.server u) := by
  have hnumbers : OneLine s!"({u.used.toNat} of {u.limit.toNat} bytes)" :=
    OneLine.append (by decide) (oneLine_nat _) |>.append (by decide) |>.append (oneLine_nat _)
      |>.append (by decide)
  exact (closed_usage h hu |>.append_oneLine (by decide) |>.append_oneLine hnumbers).sound

theorem sound_aboveThresholdText (h : v.Sound) {u : Usage} (hu : OneLine u.resource) (x : Float) :
    Sound (aboveThresholdText v.cluster v.server u x) := by
  have hshare : OneLine s!"{percent 0 x}% threshold" :=
    (oneLine_fixedPlaces 0 _).append (by decide)
  exact (closed_usage h hu |>.append_oneLine (by decide) |>.append_oneLine hshare).sound

theorem says_judgeUsage (h : v.Sound) {u : Usage} (hu : OneLine u.resource) :
    (judgeUsage threshold v u).Says Sound fun _ => True := by
  unfold judgeUsage
  split
  · exact says_bind (says_record (sound_overLimitText h hu)) fun _ _ => says_pure trivial
  · split
    · exact says_bind (says_record (sound_aboveThresholdText h hu _)) fun _ _ => says_pure trivial
    · exact says_pure trivial

theorem says_judgeUsages (h : v.Sound) {us : List Usage} (hu : ∀ u ∈ us, OneLine u.resource)
    (exceeded : Nat) : (judgeUsages threshold v us exceeded).Says Sound fun _ => True := by
  induction us generalizing exceeded with
  | nil => trivial
  | cons u us ih =>
    exact says_bind (says_judgeUsage h (hu u List.mem_cons_self)) fun n _ =>
      ih (fun w hw => hu w (List.mem_cons_of_mem u hw)) _

theorem oneLine_resource {data : JetStream} : ∀ u ∈ usages data, OneLine u.resource := by
  have husage : ∀ resource used limit, ∀ u ∈ usage? resource used limit, u.resource = resource := by
    intro resource used limit u hu
    unfold usage? at hu
    split at hu
    · exact Option.some.inj hu ▸ rfl
    · exact absurd hu (by simp)
  unfold usages
  split
  · simp
  · simp only [List.mem_append, Option.mem_toList]
    rintro u (hu | hu)
    · rw [husage _ _ _ u hu]
      decide
    · rw [husage _ _ _ u hu]
      decide

theorem says_visitServer (h : v.Sound) (exceeded : Nat) :
    (visitServer threshold exceeded v).Says Sound fun _ => True := by
  refine says_bind (says_forM fun e _ => says_note e) fun _ _ =>
    says_bind (says_checkpoint sound_cancelledError) fun _ _ => ?_
  split
  · next e he =>
    split
    · exact says_bind (says_note _) fun _ _ => says_pure trivial
    · next hcaptured =>
      rw [Says, String.intercalate_singleton]
      exact h.failure he hcaptured
  · split
    · exact says_pure trivial
    · split
      · exact says_pure trivial
      · exact says_judgeUsages h oneLine_resource exceeded

theorem says_resourceUsage (h : a.Sound) (d : Descriptor) :
    (resourceUsage d a).Says Sound fun _ => True := by
  refine says_bind (says_foldlM trivial fun x v hv _ => says_visitServer (h.visit v hv) x)
    fun exceeded _ => ?_
  split
  · exact says_bind (says_note _) fun _ _ => says_pure trivial
  · refine says_bind says_evidence fun e _ => ?_
    split
    · exact says_pure trivial
    · exact says_bind (says_note _) fun _ _ => says_pure trivial

end ResourceUsage

theorem Check.says_of_judgesSnapshots {c : Check} {a : Archive} (hc : c.JudgesSnapshots)
    (h : a.Sound) : c.Says Text.Sound a := by
  unfold Check.Says Check.script
  rcases hc with hc | hc | hc <;> simp only [hc]
  · exact MetaGroup.says_offlineReplicas h _
  · exact MetaGroup.says_leaderAgreement h _
  · exact ResourceUsage.says_resourceUsage h _

end CaptureAudit
