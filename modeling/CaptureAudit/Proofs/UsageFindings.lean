import CaptureAudit.Proofs.VisitFindings
import Mathlib.Algebra.GroupWithZero.Nat

/-! What the check of JetStream resources records and tells of archives, up to the first visit whose
snapshot could not be read. -/

namespace CaptureAudit

open Script (Performs)

namespace ResourceUsage

variable {a : Archive} {v : Visit}

def warning (v : Visit) : Event :=
  ⟨.warn, .serverChecks, s!"Artifact 'JSZ' is missing for server {v.server}"⟩

/-- The evidence in a usage: a text when it is above its limit, else when it is above the threshold.
-/
def usageTexts (threshold : String → Float) (v : Visit) (u : Usage) : List String :=
  if 1 < u.ratio then [overLimitText v.cluster v.server u]
  else if threshold u.resource < u.ratio then
    [aboveThresholdText v.cluster v.server u (threshold u.resource)]
  else []

/-- The limited resources of an enabled server. -/
def visitUsages (v : Visit) : List Usage := (v.jetStream?.map usages).getD []

theorem performs_judgeUsage (threshold : String → Float) (v : Visit) (u : Usage) (e : Examples) :
    (judgeUsage threshold v u).Performs e (usageTexts threshold v u) []
      (.ok (if 1 < u.ratio then 1 else 0)) := by
  rw [judgeUsage, usageTexts]
  by_cases hover : 1 < u.ratio
  · simp only [hover, if_true]
    exact (Performs.record _ e).bind (.pure 1 _)
  · by_cases habove : threshold u.resource < u.ratio
    · simp only [hover, habove, if_true, if_false]
      exact (Performs.record _ e).bind (.pure 0 _)
    · simp only [hover, habove, if_false]
      exact .pure 0 e

theorem performs_judgeUsages (threshold : String → Float) (v : Visit) (us : List Usage)
    (exceeded : Nat) (e : Examples) :
    (judgeUsages threshold v us exceeded).Performs e (us.flatMap (usageTexts threshold v)) []
      (.ok (exceeded + us.countP fun u => 1 < u.ratio)) := by
  induction us generalizing exceeded e with
  | nil => exact .pure exceeded e
  | cons u us ih =>
    have hcount : exceeded + (u :: us).countP (fun u => 1 < u.ratio) =
        exceeded + (if 1 < u.ratio then 1 else 0) + us.countP fun u => 1 < u.ratio := by
      rw [List.countP_cons]
      simp only [decide_eq_true_eq]
      omega
    rw [hcount]
    exact (performs_judgeUsage threshold v u e).bind (ih _ _)

/-- How many of the resources of a server are above their limits. -/
def overLimits (v : Visit) : Nat := (visitUsages v).countP fun u => 1 < u.ratio

def visitTexts (threshold : String → Float) (v : Visit) : List String :=
  (visitUsages v).flatMap (usageTexts threshold v)

theorem performs_visitServer (h : v.isUnreadable = false) (threshold : String → Float)
    (exceeded : Nat) (e : Examples) :
    (visitServer threshold exceeded v).Performs e (visitTexts threshold v)
      (v.tells warning fun _ => []) (.ok (exceeded + overLimits v)) := by
  rcases Visit.snapshot_cases h with ⟨s, hs, hmissing⟩ | ⟨err, hs, hno, hmissing, hdata⟩
  · simp only [visitServer, hs, Visit.tells, hmissing, Bool.false_eq_true, if_false]
    refine performs_notes_checkpoint ?_
    rcases Visit.jetStream?_cases hs with
      ⟨hdata, hjet⟩ | ⟨data, hdata, hdisabled, hjet⟩ | ⟨data, hdata, hdisabled, hjet⟩
    · simp only [visitTexts, overLimits, visitUsages, hdata, hjet]
      exact .pure exceeded e
    · simp only [visitTexts, overLimits, visitUsages, hdata, hdisabled, hjet, if_true]
      exact .pure exceeded e
    · simp only [visitTexts, overLimits, visitUsages, hdata, hdisabled, hjet, Bool.false_eq_true,
        if_false]
      exact performs_judgeUsages threshold v (usages data) exceeded e
  · have hnone : visitUsages v = [] := by simp [visitUsages, hdata]
    simp only [visitServer, hs, hno, if_true, Visit.tells, hmissing, visitTexts, overLimits, hnone]
    exact performs_notes_checkpoint ((Performs.note _ e).bind (.pure exceeded e))

theorem visitServer_halts {err : ArchiveError} (hs : v.snapshot = .error err)
    (hno : err.isNoMatches = false) (threshold : String → Float) (exceeded : Nat) (e : Examples) :
    (visitServer threshold exceeded v).Performs e [] v.events
      (.error (.error [s!"failed to load JSZ for server {v.server}: {err.message}"])) := by
  simp only [visitServer, hs, hno, Bool.false_eq_true, if_false]
  simpa using performs_notes_checkpoint (v := v) (Performs.fail _ e)

/-- The outcome by the number of resources above their limits and the evidence, and what is told of
it. -/
def verdict (exceeded : Nat) (e : Examples) : Outcome × List Event :=
  if 0 < exceeded then
    (.fail, [⟨.error, .serverChecks, s!"Found {exceeded} JetStream resource(s) over their limit"⟩])
  else if e.isEmpty then (.pass, [])
  else
    (.passWithIssues, [⟨.warn, .serverChecks,
      s!"Found {e.offered.toNat} JetStream resource(s) above the usage threshold"⟩])

theorem verdict_ne_skipped (exceeded : Nat) (e : Examples) :
    (verdict exceeded e).1 ≠ .skipped := by
  unfold verdict
  split
  · simp
  · split <;> simp

theorem performs_resourceUsage (h : ∀ v ∈ a.visits, v.isUnreadable = false) (d : Descriptor)
    (e : Examples) :
    let texts := a.visits.flatMap (visitTexts (threshold d))
    let result := verdict (a.visits.map overLimits).sum (texts.foldl Examples.add e)
    (resourceUsage d a).Performs e texts
      (a.visits.flatMap (Visit.tells warning fun _ => []) ++ result.2) (.ok result.1) := by
  intro texts result
  have hwalk : (a.visits.foldlM (visitServer (threshold d)) 0).Performs e texts
      (a.visits.flatMap (Visit.tells warning fun _ => []))
      (.ok (a.visits.map overLimits).sum) := by
    rw [List.sum_eq_foldl, List.foldl_map]
    exact .foldlM (fun n v hv e => performs_visitServer (h v hv) (threshold d) n e) 0 e
  rw [← List.append_nil texts]
  refine hwalk.bind ?_
  simp only [result, verdict]
  by_cases hover : 0 < (a.visits.map overLimits).sum
  · simp only [hover, if_true]
    exact (Performs.note _ _).bind (.pure Outcome.fail _)
  · simp only [hover, if_false]
    refine (Performs.evidence _).bind ?_
    by_cases hempty : (texts.foldl Examples.add e).isEmpty = true
    · simp only [hempty, if_true]
      exact .pure Outcome.pass _
    · simp only [hempty]
      exact (Performs.note _ _).bind (.pure Outcome.passWithIssues _)

theorem resourceUsage_halts {before after : List Visit} (hvisits : a.visits = before ++ v :: after)
    (hbefore : ∀ u ∈ before, u.isUnreadable = false) {err : ArchiveError}
    (hs : v.snapshot = .error err) (hno : err.isNoMatches = false) (d : Descriptor) (e : Examples) :
    (resourceUsage d a).Performs e (before.flatMap (visitTexts (threshold d)))
      (before.flatMap (Visit.tells warning fun _ => []) ++ v.events)
      (.error (.error [s!"failed to load JSZ for server {v.server}: {err.message}"])) := by
  refine .bind_of_halt ?_
  rw [hvisits]
  exact .foldlM_of_halt
    (fun n u hu e => performs_visitServer (hbefore u hu) (threshold d) n e)
    (fun n e => visitServer_halts hs hno (threshold d) n e) 0 e

end ResourceUsage

end CaptureAudit
