import CaptureAudit.Proofs.OfflineReplicas
import CaptureAudit.Proofs.RoundedWords

/-! The check of JetStream resources offers one example for every limited resource that is used
above its limit or above its threshold. Its outcome is the worst of them. -/

namespace CaptureAudit.ResourceUsage

variable {a : Archive} {v : Visit} {u : Usage} {data : JetStream} {d : Descriptor}

/-- The resource has a positive limit, of which so much is used. -/
def Limited (data : JetStream) (u : Usage) : Prop :=
  ∃ limits, data.limits = some limits ∧ 0 < u.limit.toNat ∧
    (u.resource = memory ∧ u.used = data.memory ∧ (u.limit.toNat : Int) = limits.maxMemory.toInt ∨
      u.resource = storage ∧ u.used = data.storage ∧
        (u.limit.toNat : Int) = limits.maxStorage.toInt)

/-- The server is enabled and uses so much of a limited resource. -/
def Uses (v : Visit) (u : Usage) : Prop :=
  ∃ s data, v.snapshot = .ok s ∧ s.data = some data ∧ data.disabled = false ∧ Limited data u

theorem Uses.limit_pos (h : Uses v u) : 0 < u.limit.toNat := by
  obtain ⟨s, data, -, -, -, limits, -, hlimit, -⟩ := h
  exact hlimit

theorem usage?_eq_some_iff {resource : String} {used : UInt64} {limit : Int64} :
    usage? resource used limit = some u ↔ u.resource = resource ∧ u.used = used ∧
      0 < u.limit.toNat ∧ (u.limit.toNat : Int) = limit.toInt := by
  have hsign : 0 < limit ↔ 0 < limit.toInt := Int64.lt_iff_toInt_lt
  by_cases hpos : 0 < limit
  · -- A positive limit is the same number without its sign.
    have hlimit : (limit.toUInt64.toNat : Int) = limit.toInt := by
      have hnat := Int64.toNat_toUInt64_of_le (Int64.le_of_lt hpos)
      rw [hnat, Int64.toNatClampNeg, Int.toNat_of_nonneg (Int.le_of_lt (hsign.mp hpos))]
    rw [usage?, if_pos hpos, Option.some.injEq]
    constructor
    · rintro rfl
      have hlimit' : 0 < limit.toUInt64.toNat := by
        have := hsign.mp hpos
        omega
      exact ⟨rfl, rfl, hlimit', hlimit⟩
    · rintro ⟨rfl, rfl, -, heq⟩
      have hsame : u.limit = limit.toUInt64 := UInt64.toNat_inj.mp (by omega)
      rw [← hsame]
  · rw [usage?, if_neg hpos]
    rw [hsign] at hpos
    refine iff_of_false (by simp) ?_
    rintro ⟨-, -, hlimit, heq⟩
    omega

theorem mem_usages : u ∈ usages data ↔ Limited data u := by
  cases hlimits : data.limits with
  | none => simp [usages, Limited, hlimits]
  | some limits =>
    simp only [usages, Limited, hlimits, List.mem_append, Option.mem_toList, usage?_eq_some_iff,
      Option.some.injEq, exists_eq_left']
    tauto

theorem pairwise_usages (data : JetStream) :
    (usages data).Pairwise fun u w => u.resource = memory ∧ w.resource = storage := by
  rw [usages]
  cases data.limits with
  | none => exact .nil
  | some limits =>
    refine List.pairwise_append.mpr ⟨?_, ?_, fun u hu w hw => ?_⟩
    · cases usage? memory data.memory limits.maxMemory <;> simp
    · cases usage? storage data.storage limits.maxStorage <;> simp
    · rw [Option.mem_toList, usage?_eq_some_iff] at hu hw
      exact ⟨hu.1, hw.1⟩

theorem mem_visitUsages : u ∈ visitUsages v ↔ Uses v u := by
  have hjet : u ∈ visitUsages v ↔ ∃ data, v.jetStream? = some data ∧ u ∈ usages data := by
    cases hjet : v.jetStream? <;> simp [visitUsages, hjet]
  simp only [hjet, Visit.jetStream?_eq_some_iff, mem_usages]
  constructor
  · rintro ⟨data, ⟨s, hs, hdata, hdisabled⟩, hlimited⟩
    exact ⟨s, data, hs, hdata, hdisabled, hlimited⟩
  · rintro ⟨s, data, hs, hdata, hdisabled, hlimited⟩
    exact ⟨data, ⟨s, hs, hdata, hdisabled⟩, hlimited⟩

theorem pairwise_visitUsages (v : Visit) :
    (visitUsages v).Pairwise fun u w => u.resource = memory ∧ w.resource = storage := by
  rw [visitUsages]
  cases v.jetStream? with
  | none => exact .nil
  | some data => exact pairwise_usages data

def IsHigh (d : Descriptor) (u : Usage) : Prop :=
  1 < u.ratio ∨ threshold d u.resource < u.ratio

instance : DecidablePred (IsHigh d) := fun _ => inferInstanceAs (Decidable (_ ∨ _))

def highUsages (a : Archive) (d : Descriptor) : List (Finding Usage) :=
  a.findings fun v => (visitUsages v).filter (IsHigh d)

def highUsageText (d : Descriptor) (f : Finding Usage) : String :=
  if 1 < f.item.ratio then overLimitText f.cluster f.server f.item
  else aboveThresholdText f.cluster f.server f.item (threshold d f.item.resource)

theorem visitTexts_eq (d : Descriptor) (v : Visit) : visitTexts (threshold d) v =
    ((visitUsages v).filter (IsHigh d)).map fun u => highUsageText d ⟨v.cluster, v.server, u⟩ := by
  rw [visitTexts]
  induction visitUsages v with
  | nil => rfl
  | cons u us ih =>
    rw [List.flatMap_cons, ih, usageTexts]
    by_cases hover : 1 < u.ratio
    · have hhigh : IsHigh d u := .inl hover
      simp [hover, hhigh, highUsageText]
    · by_cases habove : threshold d u.resource < u.ratio
      · have hhigh : IsHigh d u := .inr habove
        simp [hover, habove, hhigh, highUsageText]
      · have hlow : ¬ IsHigh d u := fun h => h.elim hover habove
        simp [hover, habove, hlow]

theorem mem_highUsages {f : Finding Usage} : f ∈ highUsages a d ↔
    ∃ v ∈ a.visits, v.cluster = f.cluster ∧ v.server = f.server ∧ Uses v f.item ∧
      IsHigh d f.item := by
  simp only [highUsages, Archive.mem_findings, List.mem_filter, mem_visitUsages, decide_eq_true_eq]

theorem overLimits_pos_iff :
    0 < (a.visits.map overLimits).sum ↔ ∃ f ∈ highUsages a d, 1 < f.item.ratio := by
  have hzero : (a.visits.map overLimits).sum = 0 ↔
      ∀ v ∈ a.visits, ∀ u ∈ visitUsages v, ¬ 1 < u.ratio := by
    simp [List.sum_eq_zero_iff, overLimits, List.countP_eq_zero]
  rw [Nat.pos_iff_ne_zero, ne_eq, hzero]
  push Not
  simp only [mem_highUsages, mem_visitUsages]
  constructor
  · rintro ⟨v, hv, u, hu, hover⟩
    exact ⟨⟨v.cluster, v.server, u⟩, ⟨v, hv, rfl, rfl, hu, .inl hover⟩, hover⟩
  · rintro ⟨f, ⟨v, hv, -, -, hu, -⟩, hover⟩
    exact ⟨v, hv, f.item, hu, hover⟩

theorem zero_lt_limit (hu : u ∈ usages data) : 0 < u.limit.toFloat := by
  obtain ⟨limits, -, hlimit, -⟩ := mem_usages.mp hu
  exact Decimal.zero_lt_toFloat hlimit

theorem outcome_verdict (exceeded : Nat) (e : Examples) : (verdict exceeded e).1 =
    if 0 < exceeded then .fail else if e.offered = 0 then .pass else .passWithIssues := by
  by_cases hover : 0 < exceeded
  · simp [verdict, hover]
  · by_cases hnone : e.offered = 0 <;> simp [verdict, hover, Examples.isEmpty, hnone]

theorem verdict_eq_fail_iff {exceeded : Nat} {e : Examples} :
    (verdict exceeded e).1 = .fail ↔ 0 < exceeded := by
  rw [outcome_verdict]
  by_cases hover : 0 < exceeded <;> by_cases hnone : e.offered = 0 <;> simp [hover, hnone]

theorem verdict_eq_passWithIssues_iff {exceeded : Nat} {e : Examples} :
    (verdict exceeded e).1 = .passWithIssues ↔ ¬ 0 < exceeded ∧ e.offered ≠ 0 := by
  rw [outcome_verdict]
  by_cases hover : 0 < exceeded <;> by_cases hnone : e.offered = 0 <;> simp [hover, hnone]

theorem verdict_eq_pass_iff {exceeded : Nat} {e : Examples} :
    (verdict exceeded e).1 = .pass ↔ ¬ 0 < exceeded ∧ e.offered = 0 := by
  rw [outcome_verdict]
  by_cases hover : 0 < exceeded <;> by_cases hnone : e.offered = 0 <;> simp [hover, hnone]

theorem outcome_run (hreadable : ∀ v ∈ a.visits, v.isUnreadable = false) (d : Descriptor)
    (limit : UInt64) : (Judge.resourceUsage.run d limit a).1 =
      (verdict (a.visits.map overLimits).sum (Judge.resourceUsage.run d limit a).2.examples).1 := by
  rw [(Judge.resourceUsage.finishes hreadable d limit).outcome, Judge.verdict]

theorem run_eq_fail_iff (hreadable : ∀ v ∈ a.visits, v.isUnreadable = false) (limit : UInt64) :
    (Judge.resourceUsage.run d limit a).1 = .fail ↔ ∃ f ∈ highUsages a d, 1 < f.item.ratio := by
  rw [outcome_run hreadable, verdict_eq_fail_iff, overLimits_pos_iff]

/-- Where every snapshot that was captured can be read, the check of JetStream resources offers one
example for every resource of a visited server with a positive limit that is used above this limit
or above its threshold, by cluster and server and then memory before storage. It fails when one is
above its limit, and else passes with issues when one is above its threshold. It divides by the
limits of such resources only, which are above zero as doubles too. The examples are counted in 64
bits. -/
theorem run_resourceUsage (a : Archive) (d : Descriptor) (limit : UInt64)
    (hread : ∀ v ∈ a.visits, ∀ x, a.capture? v.cluster v.server = some x →
      ∃ s, x.decode Snapshot.record.read = .ok s) :
    (checks.filter (·.code = "SERVER_001")).map Check.handler = [some resourceUsage] ∧
    (∀ data, ∀ u ∈ usages data, 0 < u.limit.toFloat) ∧
    (∀ f, f ∈ highUsages a d ↔
      ∃ v ∈ a.visits, v.cluster = f.cluster ∧ v.server = f.server ∧ Uses v f.item ∧
        (1 < f.item.ratio ∨ threshold d f.item.resource < f.item.ratio)) ∧
    (highUsages a d).Pairwise
      (Finding.Precedes fun u w => u.resource = memory ∧ w.resource = storage) ∧
    let run := runCheck quiet false limit a ⟨d, some resourceUsage⟩
    run.2.examples =
      { stored := ((highUsages a d).map (highUsageText d)).take limit.toNat, limit
        offered := UInt64.ofNat (highUsages a d).length, error := none } ∧
    (run.1 = .fail ↔ ∃ f ∈ highUsages a d, 1 < f.item.ratio) ∧
    ((highUsages a d).length < 0x10000000000000000 →
      run.2.examples.offered.toNat = (highUsages a d).length ∧
      (run.1 = .passWithIssues ↔ (∀ f ∈ highUsages a d, ¬ 1 < f.item.ratio) ∧
        ∃ f ∈ highUsages a d, threshold d f.item.resource < f.item.ratio) ∧
      (run.1 = .pass ↔ highUsages a d = [])) := by
  have hreadable : ∀ v ∈ a.visits, v.isUnreadable = false :=
    fun v hv => Archive.isUnreadable_eq_false hv (hread v hv)
  have hfinishes := Judge.resourceUsage.finishes hreadable d limit
  have htexts : a.visits.flatMap (visitTexts (threshold d)) =
      (highUsages a d).map (highUsageText d) := by
    rw [highUsages, Archive.map_findings]
    exact List.flatMap_congr fun v _ => visitTexts_eq d v
  have hexamples : (Judge.resourceUsage.run d limit a).2.examples =
      { stored := ((highUsages a d).map (highUsageText d)).take limit.toNat, limit
        offered := UInt64.ofNat (highUsages a d).length, error := none } := by
    rw [hfinishes.examples, Judge.evidence, htexts, Examples.foldl_add_empty, List.length_map]
  have hpairwise := Archive.pairwise_findings (a := a)
    fun v => (pairwise_visitUsages v).filter fun u => decide (IsHigh d u)
  refine ⟨rfl, fun _ _ => zero_lt_limit, fun _ => mem_highUsages, hpairwise, hexamples,
    run_eq_fail_iff hreadable limit, fun hcount => ?_⟩
  obtain ⟨hoffered, hnone⟩ := count_eq hcount
  rw [List.length_eq_zero_iff] at hnone
  have hcounted := congrArg Examples.offered hexamples
  refine ⟨(congrArg UInt64.toNat hcounted).trans hoffered, ?_, ?_⟩
  · change (Judge.resourceUsage.run d limit a).1 = _ ↔ _
    rw [outcome_run hreadable, verdict_eq_passWithIssues_iff, hcounted, ne_eq, hnone,
      overLimits_pos_iff (d := d)]
    push Not
    refine and_congr_right fun hbelow => ?_
    constructor
    · intro hne
      obtain ⟨f, hf⟩ := List.exists_mem_of_ne_nil _ hne
      obtain ⟨v, -, -, -, -, hhigh⟩ := mem_highUsages.mp hf
      exact ⟨f, hf, hhigh.resolve_left (hbelow f hf)⟩
    · rintro ⟨f, hf, -⟩
      exact List.ne_nil_of_mem hf
  · change (Judge.resourceUsage.run d limit a).1 = _ ↔ _
    rw [outcome_run hreadable, verdict_eq_pass_iff, hcounted, hnone, overLimits_pos_iff (d := d)]
    refine and_iff_right_of_imp fun hnil => ?_
    simp [hnil]

/-- A resource above its limit and one above its threshold, next to one without a limit and to a
server that is disabled. -/
theorem run_resourceUsage_beyond_room :
    let a : Archive := .ofArtifacts [Specimen.snapshot "C2" "srv3" (Specimen.disabled "srv3"),
      Specimen.snapshot "C1" "srv2" (Specimen.withUsage "srv2" 7 (-1) 19 20),
      Specimen.snapshot "C1" "srv1" (Specimen.withUsage "srv1" 3 2 1 2)]
    let run := runCheck quiet false 1 a ⟨descriptor, some resourceUsage⟩
    run.2.examples.stored =
        ["C1 - srv1 memory usage 150.0% exceeds its limit (3 of 2 bytes)"] ∧
      run.2.examples.offered.toNat = 2 ∧ run.1 = .fail := by
  intro a
  have hdecode : ∀ x ∈ a.artifacts, ∃ s, x.decode Snapshot.record.read = .ok s := by
    intro x hx
    simp only [a, Archive.ofArtifacts, List.mem_cons, List.not_mem_nil, or_false] at hx
    rcases hx with rfl | rfl | rfl <;> exact ⟨_, Specimen.decode_snapshot _ _ _⟩
  have hvisits : a.visits = [a.visit "C1" "srv1", a.visit "C1" "srv2", a.visit "C2" "srv3"] := by
    have hclusters : a.clusters = ["C1", "C2"] := by decide +kernel
    have hfirst : a.serversOf "C1" = ["srv1", "srv2"] := by decide +kernel
    have hsecond : a.serversOf "C2" = ["srv3"] := by decide +kernel
    simp [Archive.visits, Archive.visitsOf, hclusters, hfirst, hsecond]
  have hsnapshots : (a.visit "C1" "srv1").snapshot = .ok (Specimen.withUsage "srv1" 3 2 1 2) ∧
      (a.visit "C1" "srv2").snapshot = .ok (Specimen.withUsage "srv2" 7 (-1) 19 20) ∧
      (a.visit "C2" "srv3").snapshot = .ok (Specimen.disabled "srv3") := by
    refine ⟨?_, ?_, ?_⟩ <;> apply Specimen.snapshot_visit <;>
      simp [a, Archive.capture?, Archive.ofArtifacts, Specimen.carries_snapshot]
  have hhigh : highUsages a descriptor =
      [⟨"C1", "srv1", memory, 3, 2⟩, ⟨"C1", "srv2", storage, 19, 20⟩] := by
    obtain ⟨h0, h1, h2⟩ := hsnapshots
    rw [highUsages, Archive.findings, hvisits]
    simp only [visitUsages, Visit.jetStream?, List.flatMap_cons, h0, h1, h2]
    decide +kernel
  obtain ⟨-, -, -, -, hexamples, hfail, hcounted⟩ :=
    run_resourceUsage a descriptor 1 fun v _ x hx => hdecode x (List.mem_of_find?_eq_some hx)
  rw [hhigh] at hexamples hfail hcounted
  refine ⟨?_, (hcounted (by decide)).1, hfail.mpr ⟨_, List.mem_cons_self, by decide +kernel⟩⟩
  rw [hexamples]
  decide +kernel

end CaptureAudit.ResourceUsage
