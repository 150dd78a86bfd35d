import CaptureAudit.Proofs.UsageEvidence

/-! A usage above its limit, as far as doubles tell the two apart. They do below `2 ^ 53`. -/

namespace CaptureAudit

theorem Decimal.nearestDouble_lt_of_lt {n m : Nat} (hn : n < 2 ^ 53) (h : n < m) :
    nearestDouble n < nearestDouble m := by
  -- The next number is a double too, so rounding goes no further down from above it.
  have hexact : nearestDouble (n + 1) = n + 1 := nearestDouble_of_le (by omega)
  have hle : nearestDouble (n + 1) ≤ nearestDouble m := nearestDouble_mono h
  rw [nearestDouble_of_le (Nat.le_of_lt hn)]
  omega

namespace ResourceUsage

open Decimal (nearestDouble)

variable {a : Archive}

/-- Where every snapshot that was captured can be read, the check of JetStream resources fails
exactly when a usage is above its limit once both are rounded to doubles. So no failure is without a
usage above its limit, and every usage above a limit below `2 ^ 53` is a failure. -/
theorem run_resourceUsage_by_doubles (a : Archive) (d : Descriptor) (limit : UInt64)
    (hread : ∀ v ∈ a.visits, ∀ x, a.capture? v.cluster v.server = some x →
      ∃ s, x.decode Snapshot.record.read = .ok s) :
    let outcome := (runCheck quiet false limit a ⟨d, some resourceUsage⟩).1
    (outcome = .fail ↔ ∃ v ∈ a.visits, ∃ u, Uses v u ∧
      nearestDouble u.limit.toNat < nearestDouble u.used.toNat) ∧
    (outcome = .fail → ∃ v ∈ a.visits, ∃ u, Uses v u ∧ u.limit.toNat < u.used.toNat) ∧
    ((∃ v ∈ a.visits, ∃ u, Uses v u ∧ u.limit.toNat < 2 ^ 53 ∧ u.limit.toNat < u.used.toNat) →
      outcome = .fail) := by
  have hreadable : ∀ v ∈ a.visits, v.isUnreadable = false :=
    fun v hv => Archive.isUnreadable_eq_false hv (hread v hv)
  have hfail : (Judge.resourceUsage.run d limit a).1 = .fail ↔ ∃ v ∈ a.visits, ∃ u, Uses v u ∧
      nearestDouble u.limit.toNat < nearestDouble u.used.toNat := by
    rw [run_eq_fail_iff hreadable]
    simp only [mem_highUsages]
    constructor
    · rintro ⟨f, ⟨v, hv, -, -, huses, -⟩, hover⟩
      exact ⟨v, hv, f.item, huses, (Decimal.one_lt_div_toFloat_iff huses.limit_pos).mp hover⟩
    · rintro ⟨v, hv, u, huses, hlt⟩
      have hover : 1 < u.ratio := (Decimal.one_lt_div_toFloat_iff huses.limit_pos).mpr hlt
      exact ⟨⟨v.cluster, v.server, u⟩, ⟨v, hv, rfl, rfl, huses, .inl hover⟩, hover⟩
  refine ⟨hfail, fun h => ?_, fun h => ?_⟩
  · obtain ⟨v, hv, u, huses, hlt⟩ := hfail.mp h
    refine ⟨v, hv, u, huses, Nat.lt_of_not_le fun hle => ?_⟩
    have hle' := Decimal.nearestDouble_mono hle
    omega
  · obtain ⟨v, hv, u, huses, hsmall, hlt⟩ := h
    exact hfail.mpr ⟨v, hv, u, huses, Decimal.nearestDouble_lt_of_lt hsmall hlt⟩

/-- One byte above the last limit of which doubles tell all numbers apart. -/
theorem run_resourceUsage_by_doubles_at_last :
    let a : Archive := .ofArtifacts [Specimen.snapshot "C1" "srv1"
      (Specimen.withUsage "srv1" 9007199254740992 9007199254740991 0 0)]
    (runCheck quiet false 20 a ⟨descriptor, some resourceUsage⟩).1 = .fail := by
  intro a
  have hdecode : ∀ x ∈ a.artifacts, ∃ s, x.decode Snapshot.record.read = .ok s := by
    intro x hx
    obtain rfl : x = _ := List.mem_singleton.mp hx
    exact ⟨_, Specimen.decode_snapshot _ _ _⟩
  have hcapture : a.capture? "C1" "srv1" = some (Specimen.snapshot "C1" "srv1"
      (Specimen.withUsage "srv1" 9007199254740992 9007199254740991 0 0)) := by
    simp [a, Archive.capture?, Archive.ofArtifacts, Specimen.carries_snapshot]
  have hvisit : a.visit "C1" "srv1" ∈ a.visits := by
    obtain ⟨hcluster, hserver⟩ := Archive.mem_of_capture? (Option.isSome_of_eq_some hcapture)
    exact List.mem_flatMap.mpr ⟨_, hcluster, List.mem_map_of_mem hserver⟩
  have hsnapshot := Specimen.snapshot_visit hcapture
  have huses : Uses (a.visit "C1" "srv1") ⟨memory, 9007199254740992, 9007199254740991⟩ :=
    ⟨_, _, hsnapshot, rfl, rfl, _, rfl, by decide, .inl ⟨rfl, rfl, by decide⟩⟩
  obtain ⟨-, -, hfails⟩ :=
    run_resourceUsage_by_doubles a descriptor 20 fun v _ x hx =>
      hdecode x (List.mem_of_find?_eq_some hx)
  exact hfails ⟨_, hvisit, _, huses, by decide, by decide⟩

/-- One byte more, and a usage above its limit goes for one at it. -/
theorem passes_above_limit :
    let a : Archive := .ofArtifacts [Specimen.rawSnapshot "C1" "srv1"
      ("\x7b\"data\":\x7b\"memory\":9007199254740993," ++
        "\"config\":\x7b\"max_memory\":9007199254740992\x7d\x7d\x7d")]
    (∃ v ∈ a.visits, ∃ u, Uses v u ∧ u.limit.toNat < u.used.toNat) ∧
      (runCheck quiet false 20 a ⟨descriptor, some resourceUsage⟩).1 = .passWithIssues := by
  intro a
  have hover : ∃ v ∈ a.visits, ∃ u ∈ visitUsages v, u.limit.toNat < u.used.toNat := by
    decide +kernel
  have houtcome : (runCheck quiet false 20 a ⟨descriptor, some resourceUsage⟩).1 =
      .passWithIssues := by decide +kernel
  obtain ⟨v, hv, u, hu, hlt⟩ := hover
  exact ⟨⟨v, hv, u, mem_visitUsages.mp hu, hlt⟩, houtcome⟩

end ResourceUsage

end CaptureAudit
