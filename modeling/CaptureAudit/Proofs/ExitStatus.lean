import CaptureAudit.Program.Basic
import CaptureAudit.Proofs.SessionRuns
import CaptureAudit.Proofs.Tally

/-! The exit status of an analysis tells whether a check failed. -/

namespace CaptureAudit

variable {request : AnalysisRequest} {c : Configuration} {processors : Option Nat}
  {report : Report} {w w' : World}

theorem saveReport_report {saved : Report}
    (h : (saveReport request report).run w = (.ok saved, w')) : saved = report := by
  unfold saveReport at h
  cases hs : request.save with
  | none =>
    rw [hs] at h
    exact (Except.ok.inj (congrArg Prod.fst h)).symm
  | some path =>
    rw [hs] at h
    simp only [Session.run_bind] at h
    split at h
    · exact absurd (congrArg Prod.fst h) (by simp [pure, Session.run])
    · rw [Session.run_bind] at h
      exact (Except.ok.inj (congrArg Prod.fst h)).symm

/-- The report of an analysis is put together from the results of its checks. -/
theorem analyze_report (h : (analyze request c processors).run w = (.ok report, w')) :
    ∃ time metadata skipped results, report = Report.ofResults time metadata skipped results := by
  unfold analyze at h
  rw [Session.run_bind] at h
  split at h
  · exact absurd (congrArg Prod.fst h) (by simp [pure, Session.run])
  · simp only [Session.run_bind] at h
    split at h
    · exact absurd (congrArg Prod.fst h) (by simp [pure, Session.run])
    · simp only [Session.run_bind] at h
      exact ⟨_, _, _, _, saveReport_report h⟩

theorem runAnalyze_status (verbose : Bool)
    (h : (analyze request c processors).run w = (.ok report, w')) :
    ((runAnalyze verbose c request processors).run w).1.status =
      if report.hasFailures then 1 else 0 := by
  unfold runAnalyze
  rw [Session.run_bind, h]
  by_cases hf : report.hasFailures = true
  · simp only [hf, if_true]
    rfl
  · simp only [hf]
    rfl

theorem runAnalyze_status_eq_one_iff (verbose : Bool)
    (h : (analyze request c processors).run w = (.ok report, w')) :
    ((runAnalyze verbose c request processors).run w).1.status = 1 ↔
      ∃ result ∈ report.results, result.outcome = .fail := by
  obtain ⟨time, metadata, skipped, results, rfl⟩ := analyze_report h
  have hiff : (Report.ofResults time metadata skipped results).hasFailures = true ↔
      ∃ result ∈ results, result.outcome = .fail := Report.hasFailures_ofResults
  rw [runAnalyze_status verbose h]
  refine Iff.trans ?_ hiff
  by_cases hf : (Report.ofResults time metadata skipped results).hasFailures = true <;> simp [hf]

end CaptureAudit
