import CaptureAudit.Proofs.SnapshotText
import CaptureAudit.Proofs.UnreadableSnapshot
import Mathlib.Data.Finset.Card

/-! The check of leaders. Its groups sort the servers of a cluster by the leader that they report,
and there is more than one group exactly when two servers disagree. -/

namespace CaptureAudit

theorem Archive.isUnreadable_eq_false {a : Archive} {v : Visit} (h : v ∈ a.visits)
    (hread : ∀ x, a.capture? v.cluster v.server = some x →
      ∃ s, x.decode Snapshot.record.read = .ok s) : v.isUnreadable = false := by
  refine Bool.eq_false_iff.mpr fun hbad => ?_
  obtain ⟨x, fault, hcapture, hdecode⟩ := (isUnreadable_iff h).mp hbad
  obtain ⟨s, hs⟩ := hread x hcapture
  rw [hs] at hdecode
  exact absurd hdecode (by simp)

namespace Specimen

theorem carries_snapshot {cluster server c t : String} {s : Snapshot} :
    (snapshot cluster server s).carries (Archive.snapshotTags c t) = true ↔
      c = cluster ∧ t = server := by
  rw [snapshot, rawSnapshot, Artifact.carries_ofTags_iff]
  simp [Archive.snapshotTags, tags, Tag.cluster, Tag.server, Tag.snapshot]

theorem decode_snapshot (cluster server : String) (s : Snapshot) :
    (snapshot cluster server s).decode Snapshot.record.read = .ok s :=
  Artifact.decode_ofTags s.read_toJson

theorem snapshot_visit {a : Archive} {cluster server : String} {s : Snapshot}
    (h : a.capture? cluster server = some (snapshot cluster server s)) :
    (a.visit cluster server).snapshot = .ok s := by
  rw [Archive.visit_snapshot, h]
  exact decode_snapshot _ _ _

end Specimen

namespace MetaGroup

variable {v : Visit} {leader : String} {visits : List Visit}

/-- The server takes part in the meta group, and this is the leader that it knows. -/
def Reports (v : Visit) (leader : String) : Prop :=
  ∃ s data group, v.snapshot = .ok s ∧ s.data = some data ∧ data.disabled = false ∧
    data.metaGroup = some group ∧
    leader = if group.leader.isEmpty then noLeader else group.leader

theorem leader?_eq_some_iff : leader? v = some leader ↔ Reports v leader := by
  rw [leader?, Option.map_eq_some_iff]
  constructor
  · rintro ⟨group, hgroup, rfl⟩
    obtain ⟨s, data, hs, hdata, hdisabled, hmeta⟩ := Visit.metaGroup?_eq_some_iff.mp hgroup
    exact ⟨s, data, group, hs, hdata, hdisabled, hmeta, rfl⟩
  · rintro ⟨s, data, group, hs, hdata, hdisabled, hmeta, rfl⟩
    exact ⟨group, Visit.metaGroup?_eq_some_iff.mpr ⟨s, data, hs, hdata, hdisabled, hmeta⟩, rfl⟩

theorem leader?_of_member {server : String}
    (h : v.snapshot = .ok (Specimen.member server leader)) :
    leader? v = some (if leader.isEmpty then noLeader else leader) :=
  leader?_eq_some_iff.mpr ⟨_, _, _, h, rfl, rfl, rfl, rfl⟩

theorem leader?_of_disabled {server : String} (h : v.snapshot = .ok (Specimen.disabled server)) :
    leader? v = none := by
  simp [leader?, Visit.metaGroup?, Visit.jetStream?, h, Specimen.disabled, Option.filter]

/-- The servers that report this leader, in the order of the visits. -/
def reporters (visits : List Visit) (leader : String) : List String :=
  (visits.filter fun v => leader? v = some leader).map Visit.server

theorem mem_reporters {server : String} : server ∈ reporters visits leader ↔
    ∃ v ∈ visits, v.server = server ∧ Reports v leader := by
  simp only [reporters, List.mem_map, List.mem_filter, decide_eq_true_eq, leader?_eq_some_iff]
  constructor
  · rintro ⟨v, ⟨hv, hreports⟩, he⟩
    exact ⟨v, hv, he, hreports⟩
  · rintro ⟨v, hv, he, hreports⟩
    exact ⟨v, ⟨hv, hreports⟩, he⟩

theorem joinGroups_of_some (h : leader? v = some leader) (groups : Groups) :
    joinGroups groups v = groups.alter leader [] (· ++ [v.server]) := by
  rw [joinGroups, h]

theorem joinGroups_of_none (h : leader? v = none) (groups : Groups) :
    joinGroups groups v = groups := by
  rw [joinGroups, h]

theorem get?_foldl_joinGroups (visits : List Visit) (leader : String) :
    (visits.foldl joinGroups .empty).get? leader =
      if reporters visits leader = [] then none else some (reporters visits leader) := by
  induction visits using List.reverseRecOn with
  | nil => rfl
  | append_singleton visits v ih =>
    have hreporters : reporters (visits ++ [v]) leader =
        reporters visits leader ++ if leader? v = some leader then [v.server] else [] := by
      by_cases hv : leader? v = some leader <;> simp [reporters, hv]
    rw [List.foldl_append, List.foldl_cons, List.foldl_nil, hreporters]
    cases hv : leader? v with
    | none => simpa [joinGroups_of_none hv] using ih
    | some other =>
      rw [joinGroups_of_some hv, SortedMap.get?_alter]
      by_cases he : leader = other
      · subst he
        rw [ih]
        by_cases hnil : reporters visits leader = [] <;> simp [hnil]
      · have hne : other ≠ leader := fun h => he h.symm
        simpa [he, hne] using ih

theorem mem_groups {servers : List String} :
    (leader, servers) ∈ (visits.foldl joinGroups .empty).entries ↔
      servers = reporters visits leader ∧ servers ≠ [] := by
  rw [← SortedMap.get?_eq_some_iff, get?_foldl_joinGroups]
  by_cases h : reporters visits leader = []
  · simp [h]
  · rw [if_neg h, Option.some.injEq]
    constructor
    · rintro rfl
      exact ⟨rfl, h⟩
    · exact fun he => he.1.symm

theorem mem_leaders : leader ∈ (visits.foldl joinGroups .empty).keys ↔
    ∃ v ∈ visits, Reports v leader := by
  rw [SortedMap.mem_keys_iff]
  constructor
  · rintro ⟨servers, hget⟩
    obtain ⟨rfl, hne⟩ := mem_groups.mp (SortedMap.get?_eq_some_iff.mp hget)
    obtain ⟨server, hserver⟩ := List.exists_mem_of_ne_nil _ hne
    obtain ⟨v, hv, _, hreports⟩ := mem_reporters.mp hserver
    exact ⟨v, hv, hreports⟩
  · rintro ⟨v, hv, hreports⟩
    have hserver : v.server ∈ reporters visits leader := mem_reporters.mpr ⟨v, hv, rfl, hreports⟩
    exact ⟨_, SortedMap.get?_eq_some_iff.mpr (mem_groups.mpr ⟨rfl, List.ne_nil_of_mem hserver⟩)⟩

/-- Two servers of the cluster report different leaders. -/
def Disagrees (visits : List Visit) : Prop :=
  ∃ u ∈ visits, ∃ v ∈ visits, ∃ l m, Reports u l ∧ Reports v m ∧ l ≠ m

theorem one_lt_length_groups_iff :
    1 < (visits.foldl joinGroups .empty).entries.length ↔ Disagrees visits := by
  let groups := visits.foldl joinGroups .empty
  have hcard : groups.entries.length = groups.keys.toFinset.card := by
    rw [List.toFinset_card_of_nodup groups.nodup_keys, SortedMap.keys, List.length_map]
  rw [hcard, Finset.one_lt_card]
  simp only [List.mem_toFinset]
  constructor
  · rintro ⟨l, hl, m, hm, hne⟩
    obtain ⟨u, hu, hul⟩ := mem_leaders.mp hl
    obtain ⟨v, hv, hvm⟩ := mem_leaders.mp hm
    exact ⟨u, hu, v, hv, l, m, hul, hvm, hne⟩
  · rintro ⟨u, hu, v, hv, l, m, hul, hvm, hne⟩
    exact ⟨l, mem_leaders.mpr ⟨u, hu, hul⟩, m, mem_leaders.mpr ⟨v, hv, hvm⟩, hne⟩

/-- The groups sort the servers of a cluster by their leaders. -/
structure Sorts (groups : Groups) (visits : List Visit) : Prop where
  leaders : groups.keys.Pairwise fun l m => compare l m = .lt
  servers : ∀ g ∈ groups.entries, g.2.Pairwise fun s t => compare s t = .lt
  occurs : ∀ leader, leader ∈ groups.keys ↔ ∃ v ∈ visits, Reports v leader
  placed : ∀ v ∈ visits, ∀ leader, Reports v leader →
    ∀ g ∈ groups.entries, v.server ∈ g.2 ↔ g.1 = leader
  responding : ∀ g ∈ groups.entries, ∀ server ∈ g.2,
    ∃ v ∈ visits, v.server = server ∧ Reports v g.1

theorem Reports.unique {m : String} (h : Reports v leader) (h' : Reports v m) : leader = m :=
  Option.some.inj ((leader?_eq_some_iff.mpr h).symm.trans (leader?_eq_some_iff.mpr h'))

theorem sorts_foldl_joinGroups
    (hascending : visits.Pairwise fun u v => compare u.server v.server = .lt) :
    Sorts (visits.foldl joinGroups .empty) visits := by
  have hentry : ∀ g ∈ (visits.foldl joinGroups .empty).entries, g.2 = reporters visits g.1 :=
    fun g hg => (mem_groups.mp hg).1
  have hdistinct : ∀ u ∈ visits, ∀ v ∈ visits, u.server = v.server → u = v := by
    have hnodup : (visits.map Visit.server).Nodup :=
      nodup_of_ascending (List.pairwise_map.mpr hascending)
    exact fun u hu v hv => List.inj_on_of_nodup_map hnodup hu hv
  refine ⟨SortedMap.ascending_keys _, fun g hg => ?_, fun _ => mem_leaders, ?_, ?_⟩
  · rw [hentry g hg]
    exact List.pairwise_map.mpr (hascending.filter _)
  · intro v hv leader hreports g hg
    rw [hentry g hg, mem_reporters]
    constructor
    · rintro ⟨u, hu, hserver, hu'⟩
      obtain rfl := hdistinct u hu v hv hserver
      exact hu'.unique hreports
    · rintro rfl
      exact ⟨v, hv, rfl, hreports⟩
  · intro g hg server hserver
    rw [hentry g hg] at hserver
    exact mem_reporters.mp hserver

theorem flatMap_disagreements (a : Archive) (clusters : List String) :
    clusters.flatMap (disagreements a) =
      (clusters.filter fun c => 1 < (groupsOf a c).entries.length).map
        fun c => disagreementText c (groupsOf a c) := by
  induction clusters with
  | nil => rfl
  | cons c clusters ih =>
    rw [List.flatMap_cons, ih, List.filter_cons, disagreements]
    by_cases hc : 1 < (groupsOf a c).entries.length <;> simp [hc]

/-- The clusters whose servers disagree, in ascending order. -/
def disagreeing (a : Archive) : List String :=
  a.clusters.filter fun c => 1 < (groupsOf a c).entries.length

theorem mem_disagreeing {a : Archive} {cluster : String} :
    cluster ∈ disagreeing a ↔ Disagrees (a.visitsOf cluster) := by
  have hgroups : 1 < (groupsOf a cluster).entries.length ↔ Disagrees (a.visitsOf cluster) :=
    one_lt_length_groups_iff
  rw [disagreeing, List.mem_filter, decide_eq_true_eq, hgroups]
  refine and_iff_right_of_imp ?_
  rintro ⟨v, hv, _⟩
  obtain ⟨server, hserver, rfl⟩ := List.mem_map.mp hv
  obtain ⟨x, hx, hcluster, _⟩ := Archive.mem_tagValuesWith.mp hserver
  exact Archive.mem_tagValues.mpr ⟨x, hx, hcluster⟩

theorem sorts_groupsOf (a : Archive) (cluster : String) :
    Sorts (groupsOf a cluster) (a.visitsOf cluster) := by
  refine sorts_foldl_joinGroups (List.pairwise_map.mpr ?_)
  exact a.ascending_tagValuesWith .server (.cluster cluster)

theorem outcome_verdict (instances : String) (e : Examples) :
    (verdict instances e).1 = if e.offered = 0 then .pass else .fail := by
  by_cases h : e.offered = 0 <;> simp [verdict, Examples.isEmpty, h]

/-- Where every snapshot that was captured can be read, the check of leaders offers one example for
every cluster with two servers that report different leaders, in ascending order of the clusters,
and fails when there is one. An example prints the groups that sort the servers of its cluster by
their leaders, every group with all its servers. The examples are counted in 64 bits, and a list has
fewer items than these can count. -/
theorem run_leaderAgreement (a : Archive) (d : Descriptor) (limit : UInt64)
    (hcount : a.clusters.length < 0x10000000000000000)
    (hread : ∀ v ∈ a.visits, ∀ x, a.capture? v.cluster v.server = some x →
      ∃ s, x.decode Snapshot.record.read = .ok s) :
    (checks.filter (·.code = "META_002")).map Check.handler = [some leaderAgreement] ∧
    ∃ clusters : List String,
      (∀ c, c ∈ clusters ↔ Disagrees (a.visitsOf c)) ∧
      clusters.Pairwise (fun b c => compare b c = .lt) ∧
      (∀ c, Sorts (groupsOf a c) (a.visitsOf c)) ∧
      let run := runCheck quiet false limit a ⟨d, some leaderAgreement⟩
      run.2.examples.stored =
        (clusters.map fun c =>
          "Members of " ++ c ++ " disagree on meta leader (" ++
            String.intercalate ", " ((groupsOf a c).entries.map fun g =>
              g.1 ++ ": [" ++ String.intercalate ", " g.2 ++ "]") ++ ")").take limit.toNat ∧
      run.2.examples.offered.toNat = clusters.length ∧ run.2.examples.error = none ∧
      run.1 = if clusters = [] then .pass else .fail := by
  have hreadable : ∀ v ∈ a.visits, v.isUnreadable = false :=
    fun v hv => Archive.isUnreadable_eq_false hv (hread v hv)
  have hfinishes := Judge.leaderAgreement.finishes hreadable d limit
  have hexamples : (Judge.leaderAgreement.run d limit a).2.examples =
      ⟨((disagreeing a).map fun c => disagreementText c (groupsOf a c)).take limit.toNat, limit,
        UInt64.ofNat (disagreeing a).length, none⟩ := by
    rw [hfinishes.examples, Judge.evidence, flatMap_disagreements, Examples.foldl_add_empty,
      List.length_map]
    rfl
  have hoffered : (UInt64.ofNat (disagreeing a).length).toNat = (disagreeing a).length := by
    have hle : (disagreeing a).length ≤ a.clusters.length := List.length_filter_le _ _
    exact UInt64.toNat_ofNat_of_lt' (Nat.lt_of_le_of_lt hle hcount)
  have hnone : UInt64.ofNat (disagreeing a).length = 0 ↔ disagreeing a = [] := by
    rw [← UInt64.toNat_inj, hoffered, UInt64.toNat_zero, List.length_eq_zero_iff]
  have houtcome : (Judge.leaderAgreement.run d limit a).1 =
      if disagreeing a = [] then .pass else .fail := by
    rw [hfinishes.outcome, hexamples, Judge.verdict, outcome_verdict]
    exact if_congr hnone rfl rfl
  refine ⟨rfl, disagreeing a, fun _ => mem_disagreeing, (a.ascending_tagValues _).filter _,
    sorts_groupsOf a, congrArg Examples.stored hexamples, ?_, congrArg Examples.error hexamples,
    houtcome⟩
  exact (congrArg (UInt64.toNat ∘ Examples.offered) hexamples).trans hoffered

/-- Two clusters disagree, in one of them with a server that knows no leader. -/
theorem run_leaderAgreement_two_clusters :
    let a : Archive := .ofArtifacts (Specimen.snapshot "C2" "srv4" (Specimen.disabled "srv4") ::
      Specimen.snapshot "C3" "srv6" (Specimen.member "srv6" "srv7") ::
      Specimen.snapshot "C3" "srv5" (Specimen.member "srv5" "") :: Specimen.disagreeing)
    let run := runCheck quiet false 5 a ⟨.plain "META_002" suite "" "", some leaderAgreement⟩
    run.2.examples.stored =
        ["Members of C1 disagree on meta leader (srv1: [srv1, srv2], srv2: [srv3])",
          "Members of C3 disagree on meta leader (NO_LEADER: [srv5], srv7: [srv6])"] ∧
      run.2.examples.offered.toNat = 2 ∧ run.1 = .fail := by
  intro a
  have hdecode : ∀ x ∈ a.artifacts, ∃ s, x.decode Snapshot.record.read = .ok s := by
    intro x hx
    simp only [a, Archive.ofArtifacts, Specimen.disagreeing, List.mem_cons, List.not_mem_nil,
      or_false] at hx
    rcases hx with rfl | rfl | rfl | rfl | rfl | rfl <;> exact ⟨_, Specimen.decode_snapshot _ _ _⟩
  have hclusters : a.clusters = ["C1", "C2", "C3"] := by decide +kernel
  have hgroups : (groupsOf a "C1").entries = [("srv1", ["srv1", "srv2"]), ("srv2", ["srv3"])] ∧
      (groupsOf a "C2").entries = [] ∧
      (groupsOf a "C3").entries = [("NO_LEADER", ["srv5"]), ("srv7", ["srv6"])] := by
    have hsnapshots : (a.visit "C1" "srv1").snapshot = .ok (Specimen.member "srv1" "srv1") ∧
        (a.visit "C1" "srv2").snapshot = .ok (Specimen.member "srv2" "srv1") ∧
        (a.visit "C1" "srv3").snapshot = .ok (Specimen.member "srv3" "srv2") ∧
        (a.visit "C2" "srv4").snapshot = .ok (Specimen.disabled "srv4") ∧
        (a.visit "C3" "srv5").snapshot = .ok (Specimen.member "srv5" "") ∧
        (a.visit "C3" "srv6").snapshot = .ok (Specimen.member "srv6" "srv7") := by
      refine ⟨?_, ?_, ?_, ?_, ?_, ?_⟩ <;> apply Specimen.snapshot_visit <;>
        simp [a, Archive.capture?, Archive.ofArtifacts, Specimen.disagreeing,
          Specimen.carries_snapshot]
    have hfirst : a.serversOf "C1" = ["srv1", "srv2", "srv3"] := by decide +kernel
    have hsecond : a.serversOf "C2" = ["srv4"] := by decide +kernel
    have hthird : a.serversOf "C3" = ["srv5", "srv6"] := by decide +kernel
    obtain ⟨h1, h2, h3, h4, h5, h6⟩ := hsnapshots
    have hserver : ∀ cluster server, (a.visit cluster server).server = server := fun _ _ => rfl
    simp only [groupsOf, Archive.visitsOf, hfirst, hsecond, hthird, List.map_cons, List.map_nil,
      List.foldl_cons, List.foldl_nil, joinGroups_of_some (leader?_of_member h1),
      joinGroups_of_some (leader?_of_member h2), joinGroups_of_some (leader?_of_member h3),
      joinGroups_of_none (leader?_of_disabled h4), joinGroups_of_some (leader?_of_member h5),
      joinGroups_of_some (leader?_of_member h6), hserver]
    decide +kernel
  obtain ⟨hfirst, hsecond, hthird⟩ := hgroups
  obtain ⟨-, clusters, hmem, hascending, -, hstored, hoffered, -, houtcome⟩ :=
    run_leaderAgreement a (.plain "META_002" suite "" "") 5 (by rw [hclusters]; decide)
      fun v _ x hx => hdecode x (List.mem_of_find?_eq_some hx)
  obtain rfl : clusters = ["C1", "C3"] := by
    refine eq_of_ascending hascending (by decide) fun c => ?_
    rw [hmem, ← mem_disagreeing, disagreeing, hclusters]
    simp [hfirst, hsecond, hthird]
  refine ⟨hstored.trans ?_, hoffered, houtcome.trans (if_neg (by simp))⟩
  simp only [List.map_cons, List.map_nil, hfirst, hthird]
  rfl

end MetaGroup

end CaptureAudit
