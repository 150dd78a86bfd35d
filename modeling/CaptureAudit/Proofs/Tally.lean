import CaptureAudit.Proofs.Ascending
import CaptureAudit.Report.Basic
import Mathlib.Algebra.GroupWithZero.Nat

/-! A tally has all four outcomes and counts each of them, so its counts add up to the number of
results. -/

namespace CaptureAudit

namespace Tally

theorem count_alter (t : Tally) (o x : Outcome) :
    count (t.alter o 0 (· + 1)) x = t.count x + if x = o then 1 else 0 := by
  simp only [count, SortedMap.get?_alter]
  by_cases hx : x = o <;> simp [hx]

theorem count_foldl_alter (os : List Outcome) (t : Tally) (x : Outcome) :
    count (os.foldl (fun t o => t.alter o 0 (· + 1)) t) x = t.count x + os.count x := by
  induction os generalizing t with
  | nil => simp
  | cons o os ih =>
    rw [List.foldl_cons, ih, count_alter, List.count_cons]
    by_cases hx : x = o
    · simp [hx]
      omega
    · simp [hx, Ne.symm hx]

theorem keys_foldl_alter (os : List Outcome) {t : Tally} (h : ∀ o, o ∈ t.keys) :
    (os.foldl (fun t o => t.alter o 0 (· + 1)) t).keys = t.keys := by
  induction os generalizing t with
  | nil => rfl
  | cons o os ih =>
    have hk : (t.alter o 0 (· + 1)).keys = t.keys := SortedMap.keys_insert_of_mem (h o)
    rw [List.foldl_cons, ih fun x => by rw [hk]; exact h x, hk]

theorem keys_zero : zero.keys = Outcome.all := by decide

theorem count_zero (o : Outcome) : zero.count o = 0 := by
  cases o <;> decide

theorem keys_ofOutcomes (os : List Outcome) : (ofOutcomes os).keys = Outcome.all := by
  have hall : ∀ o, o ∈ zero.keys := by
    intro o
    cases o <;> decide
  rw [ofOutcomes, keys_foldl_alter os hall, keys_zero]

theorem count_ofOutcomes (os : List Outcome) (o : Outcome) :
    (ofOutcomes os).count o = os.count o := by
  rw [ofOutcomes, count_foldl_alter, count_zero, Nat.zero_add]

end Tally

theorem Outcome.sum_count (os : List Outcome) :
    (Outcome.all.map fun o => os.count o).sum = os.length := by
  induction os with
  | nil => rfl
  | cons o os ih =>
    simp only [Outcome.all, List.map_cons, List.map_nil, List.sum_cons, List.sum_nil] at ih ⊢
    cases o <;> simp <;> omega

namespace Report

variable {time : Timestamp} {metadata : CaptureMetadata} {skipped : List String}
  {results : List CheckResult}

theorem count_ofResults (o : Outcome) :
    (ofResults time metadata skipped results).count o =
      results.countP fun result => result.outcome = o := by
  simp only [count, ofResults, tally, Tally.count_ofOutcomes, List.count, List.countP_map]
  rfl

theorem sum_count_ofResults :
    (Outcome.all.map (ofResults time metadata skipped results).count).sum = results.length := by
  have hc : (ofResults time metadata skipped results).count =
      fun o => (results.map CheckResult.outcome).count o := by
    funext o
    exact Tally.count_ofOutcomes _ o
  rw [hc, Outcome.sum_count, List.length_map]

theorem hasFailures_ofResults :
    (ofResults time metadata skipped results).hasFailures = true ↔
      ∃ result ∈ results, result.outcome = .fail := by
  simp [hasFailures, count_ofResults, List.countP_pos_iff]

end Report

end CaptureAudit
