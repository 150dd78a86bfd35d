import CaptureAudit.Proofs.PoolCancellation

/-! The results of an analysis that may be cancelled at any moment, from outside or by a check,
while any number of workers is at work. -/

namespace CaptureAudit.Pool

variable {p q : Pool} {r : Runner} {archive : Archive} {checks : List Check} {move : Move}
  {course : Option (Nat × Course)} {before schedule : List Move} {done : List (Nat × Course)}

/-- All that is known of a pool by the moves made and the courses told. -/
structure Traced (r : Runner) (archive : Archive) (checks : List Check) (bound : Nat) (p : Pool)
    (before : List Move) (done : List (Nat × Course)) : Prop where
  coursed : Coursed r archive checks p done
  uncalled : Uncalled p before done
  spared : Spared r p done
  single : r.workers = 1 → Single p before done
  load : p.load r archive + before.countP (· ≠ .fire) ≤ bound

namespace Traced

theorem ofChecks (r : Runner) (archive : Archive) (fired : Bool) (checks : List Check) :
    Traced r archive checks ((Pool.ofChecks fired checks).load r archive)
      (Pool.ofChecks fired checks) [] [] where
  coursed := .ofChecks r archive fired checks
  uncalled := ⟨by simp, by simp⟩
  spared := ⟨by simp, by simp [Pool.ofChecks]⟩
  single _ :=
    ⟨by simp [Pool.ofChecks], 0, 0, 0, by simp, by simp [CutShort, kinds], by simp, by simp⟩
  load := Nat.le_refl _

theorem moves {bound : Nat} (h : Traced r archive checks bound p before done)
    (hm : Moves r archive p move course q) :
    Traced r archive checks bound q (before ++ [move]) (done ++ course.toList) where
  coursed := h.coursed.moves hm
  uncalled := h.uncalled.moves h.coursed hm
  spared := h.spared.moves hm
  single hw := (h.single hw).moves hw h.coursed.accounted hm
  load := by
    have hload := load_moves h.coursed.accounted hm
    have hbound := h.load
    rw [List.countP_append]
    omega

theorem follow {fired : Bool}
    (hf : (Pool.ofChecks fired checks).follow r archive schedule = some q) :
    Traced r archive checks ((Pool.ofChecks fired checks).load r archive) q schedule
      ((Pool.ofChecks fired checks).courses r archive schedule) := by
  have h := Traced.ofChecks r archive fired checks
  simpa using courses_invariant moves h hf

end Traced

/-- However often and whenever an analysis is cancelled, every check gets one result: each schedule
can be brought to an end, and then the results are those of the courses that the checks took. Checks
that are skipped or not reached are never gone on with, only as many checks are interrupted as there
are workers, and a single worker's checks are undisturbed, then one at most is interrupted, and then
none is reached. -/
theorem results_of_any_cancellation (limit : UInt64) (skip : List String) (workers : Nat)
    (archive : Archive) (checks : List Check) (fired : Bool) :
    let r := Runner.ofLimits limit skip workers
    ∃ moves, ∀ schedule p, (Pool.ofChecks fired checks).follow r archive schedule = some p →
      let courses := (Pool.ofChecks fired checks).courses r archive schedule
      schedule.countP (· ≠ .fire) ≤ moves ∧
      (p.isComplete = false → ∃ move ≠ Move.fire, (p.step r archive move).isSome = true) ∧
      (courses.map Prod.fst).Nodup ∧
      (∀ e ∈ courses, e.2 = .skipListed ∨ e.2 = .unreached → Move.advance e.1 ∉ schedule) ∧
      courses.countP (·.2 = .interrupted) ≤ max 1 workers ∧
      (p.isComplete = true →
        p.results.length = checks.length ∧
        (∀ i c, checks[i]? = some c → ∃ course result, (i, course) ∈ courses ∧
          p.results[i]? = some result ∧ course.Gives r archive c result) ∧
        ∀ time, (Outcome.all.map (p.report r archive time).count).sum = checks.length) ∧
      (workers ≤ 1 →
        (∃ n k m, k ≤ 1 ∧ CutShort (kinds courses) n k m) ∧
        ((schedule.filterMap Move.started?).Pairwise (· < ·) →
          (courses.map Prod.fst).Pairwise (· < ·))) := by
  intro r
  refine ⟨(Pool.ofChecks fired checks).load r archive, fun schedule p hf => ?_⟩
  intro courses
  have h : Traced r archive checks _ p schedule courses := .follow hf
  refine ⟨(Nat.le_add_left _ _).trans h.load, exists_move (Nat.le_max_left 1 workers),
    h.coursed.nodup, h.uncalled.done, (Nat.le_add_right _ _).trans h.spared.bounded, fun hc => ?_,
    fun hw => ?_⟩
  · have hlength := h.coursed.accounted.length_results hc
    refine ⟨hlength, fun i c hcheck => h.coursed.result_of_complete hc hcheck, fun time => ?_⟩
    rw [report, Report.sum_count_ofResults, hlength]
  · have hsingle := h.single (Nat.max_eq_left hw)
    obtain ⟨n, k, m, hk, hcut, -, -⟩ := hsingle.cut
    refine ⟨⟨n, k, m, hk, hcut⟩, fun hstarts => ?_⟩
    rw [← hsingle.order] at hstarts
    exact (List.pairwise_append.mp hstarts).1

/-- Two workers. The second check cancels the analysis while the first is about to look. -/
theorem results_of_any_cancellation_by_check :
    let looking : Check := ⟨.plain "T_LOOK" "" "looks" "Looks",
      some fun _ _ => .add "seen" (.poll fun b => if b then .fail ["late"] else .done .pass)⟩
    let stopping : Check :=
      ⟨.plain "T_STOP" "" "stops" "Stops", some fun _ _ => .cancel (.done .pass)⟩
    let skipped : Check := ⟨.plain "T_SKIP" "" "skipped" "Skipped", none⟩
    let last : Check := ⟨.plain "T_LAST" "" "last" "Last", some fun _ _ => .panic none⟩
    let checks := [looking, stopping, skipped, last]
    let r := Runner.ofLimits 3 ["t_skip"] 2
    let schedule : List Move := [.start 0, .advance 0, .start 1, .advance 1, .advance 1, .start 2,
      .start 3, .fire, .advance 0, .advance 0]
    (Pool.ofChecks false checks).courses r (.ofArtifacts []) schedule =
        [(1, .interrupted), (2, .skipListed), (3, .unreached), (0, .interrupted)] ∧
      ∃ p result, (Pool.ofChecks false checks).follow r (.ofArtifacts []) schedule = some p ∧
        p.isComplete = true ∧ p.results[0]? = some result ∧
        Course.interrupted.Gives r (.ofArtifacts []) looking result := by
  intro looking stopping skipped last checks r schedule
  have hcourses : (Pool.ofChecks false checks).courses r (.ofArtifacts []) schedule =
      [(1, .interrupted), (2, .skipListed), (3, .unreached), (0, .interrupted)] := by decide +kernel
  have hcomplete : ((Pool.ofChecks false checks).follow r (.ofArtifacts []) schedule).any
      isComplete = true := by decide +kernel
  obtain ⟨p, hf, hc⟩ := (Option.any_eq_true _ _).mp hcomplete
  obtain ⟨moves, h⟩ := results_of_any_cancellation 3 ["t_skip"] 2 (.ofArtifacts []) checks false
  obtain ⟨-, hresults, -⟩ := (h schedule p hf).2.2.2.2.2.1 hc
  obtain ⟨course, result, hmem, hresult, hgives⟩ := hresults 0 looking rfl
  rw [hcourses] at hmem
  obtain rfl : course = .interrupted := by simpa using hmem
  exact ⟨hcourses, p, result, hf, hc, hresult, hgives⟩

end CaptureAudit.Pool
