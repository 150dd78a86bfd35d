import CaptureAudit.Proofs.ExitStatus
import CaptureAudit.Proofs.PoolOrder

/-! The report of a run does not depend on the number of workers or on the order in which they
work. -/

namespace CaptureAudit

theorem Runner.skips_iff {r : Runner} {c : Check} :
    r.skips c = true ↔ ∃ s ∈ r.skip, Text.eqIgnoreAsciiCase s c.code = true := by
  simp [skips]

theorem Runner.results_run {r : Runner} {archive : Archive} {time : Timestamp} {checks : List Check}
    (h : ∀ c ∈ checks, r.Lets archive c) :
    (r.run archive time false checks).1 =
      .ofResults time (metadataOf archive).1 r.skip (checks.map (r.settled archive)) := by
  rw [← executeAll_undisturbed h]
  rfl

/-- Checks that do not cancel the analysis are reported alike by any number of workers, in whatever
order these take up checks and go on with them. Such a run stops only when every check has its
result, and it has the moves of every other complete run. -/
theorem Pool.report_of_any_order (limit : UInt64) (skip : List String) (workers : Nat)
    (archive : Archive) (time : Timestamp) (checks : List Check)
    (hlet : ∀ c ∈ checks, (¬∃ s ∈ skip, Text.eqIgnoreAsciiCase s c.code = true) →
      (runCheck quiet false limit archive c).2.cancelled = false) :
    let r := Runner.ofLimits limit skip workers
    let report := ((Runner.ofLimits limit skip 1).run archive time false checks).1
    (∃ moves, ∀ schedule p, Move.fire ∉ schedule →
      (Pool.ofChecks false checks).follow r archive schedule = some p →
      schedule.length ≤ moves ∧
      (p.isComplete = false → ∃ move ≠ Move.fire, (p.step r archive move).isSome = true) ∧
      (p.isComplete = true → p.report r archive time = report) ∧
      ∀ t ∈ p.running, ¬∃ s ∈ skip, Text.eqIgnoreAsciiCase s t.check.code = true) ∧
    report.results = checks.map (fun c =>
      if ∃ s ∈ skip, Text.eqIgnoreAsciiCase s c.code = true then
        .ofOutcome c.descriptor .skipped (.empty limit)
      else
        .ofOutcome c.descriptor (runCheck quiet false limit archive c).1
          (runCheck quiet false limit archive c).2.examples) ∧
    report.outcomes.keys = Outcome.all ∧
    (∀ o, report.count o = report.results.countP fun result => result.outcome = o) ∧
    (Outcome.all.map report.count).sum = checks.length ∧
    (report.hasFailures = true ↔ ∃ result ∈ report.results, result.outcome = .fail) ∧
    ∀ verbose request c processors analyzed w w',
      (analyze request c processors).run w = (.ok analyzed, w') →
        (((runAnalyze verbose c request processors).run w).1.status = 1 ↔
          ∃ result ∈ analyzed.results, result.outcome = .fail) := by
  intro r report
  have hskips : ∀ c, r.skips c = true ↔ ∃ s ∈ skip, Text.eqIgnoreAsciiCase s c.code = true :=
    fun _ => Runner.skips_iff
  have hlets : ∀ c ∈ checks, r.Lets archive c := by
    intro c hc hskip
    refine hlet c hc fun hs => ?_
    simp [(hskips c).mpr hs] at hskip
  have hreport : report = .ofResults time (Runner.metadataOf archive).1 skip
      (checks.map (r.settled archive)) := Runner.results_run hlets
  refine ⟨⟨(Pool.ofChecks false checks).remaining r archive, ?_⟩, ?_, ?_, ?_, ?_, ?_, ?_⟩
  · intro schedule p hfire hf
    have hp := (Undisturbed.ofChecks r archive checks).follow hlets hfire hf
    have hleft := (Undisturbed.ofChecks r archive checks).remaining_follow hlets hfire hf
    refine ⟨by omega, exists_move (Nat.le_max_left 1 workers), fun hc => ?_, fun t ht => ?_⟩
    · rw [Pool.report, hp.results hc, hreport]
      rfl
    · have hs := (hp.accounted.running t ht).2
      exact fun hex => by simp [(hskips t.check).mpr hex] at hs
  · rw [hreport]
    refine List.map_congr_left fun c _ => ?_
    by_cases hs : ∃ s ∈ skip, Text.eqIgnoreAsciiCase s c.code = true
    · rw [if_pos hs, Runner.settled, if_pos ((hskips c).mpr hs)]
      rfl
    · rw [if_neg hs, Runner.settled, if_neg fun hskip => hs ((hskips c).mp hskip)]
      rfl
  · rw [hreport]
    exact Tally.keys_ofOutcomes _
  · intro o
    rw [hreport]
    exact Report.count_ofResults o
  · rw [hreport, Report.sum_count_ofResults, List.length_map]
  · rw [hreport]
    exact Report.hasFailures_ofResults
  · intro verbose request c processors analyzed w w' h
    exact runAnalyze_status_eq_one_iff verbose h

/-- Two workers; the check on the skip list would cancel the analysis if it ran. -/
theorem Pool.report_of_any_order_two_workers :
    let failing : Check :=
      ⟨.plain "T_FAIL" "" "fails" "Fails", some fun _ _ => .add "bad" (.done .fail)⟩
    let panicking : Check := ⟨.plain "T_PANIC" "" "panics" "Panics", some fun _ _ => .panic none⟩
    let cancelling : Check :=
      ⟨.plain "T_STOP" "" "stops" "Stops", some fun _ _ => .cancel (.done .pass)⟩
    let checks := [failing, panicking, cancelling]
    let r := Runner.ofLimits 3 ["t_stop"] 2
    (∀ c ∈ checks, (¬∃ s ∈ ["t_stop"], Text.eqIgnoreAsciiCase s c.code = true) →
      (runCheck quiet false 3 (.ofArtifacts []) c).2.cancelled = false) ∧
    ∀ schedule p, Move.fire ∉ schedule →
      (Pool.ofChecks false checks).follow r (.ofArtifacts []) schedule = some p →
      p.isComplete = true → p.report r (.ofArtifacts []) Report.epoch =
        ((Runner.ofLimits 3 ["t_stop"] 1).run (.ofArtifacts []) Report.epoch false checks).1 := by
  intro failing panicking cancelling checks r
  have hlet : ∀ c ∈ checks, (¬∃ s ∈ ["t_stop"], Text.eqIgnoreAsciiCase s c.code = true) →
      (runCheck quiet false 3 (.ofArtifacts []) c).2.cancelled = false := by
    intro c hc hskip
    simp only [checks, List.mem_cons, List.not_mem_nil, or_false] at hc
    rcases hc with rfl | rfl | rfl
    · rfl
    · rfl
    · exact absurd ⟨"t_stop", by simp, by decide⟩ hskip
  refine ⟨hlet, fun schedule p hfire hf hc => ?_⟩
  obtain ⟨moves, horder⟩ := (Pool.report_of_any_order 3 ["t_stop"] 2 (.ofArtifacts []) Report.epoch
    checks hlet).1
  exact (horder schedule p hfire hf).2.2.1 hc

end CaptureAudit
