import CaptureAudit.Proofs.PoolOrder

/-! Runs that may be cancelled at any moment. Every check that has its result came by it on one
course, and the result is the one that belongs to that course. -/

namespace CaptureAudit

/-- The signal of an analysis that polls find cancelled from a certain one on. -/
def firedFrom (first : Nat) : Nat → Bool := fun n => first ≤ n

/-- The result at the end of a course. An interrupted check keeps the evidence that its script
recorded. -/
def Course.Gives (r : Runner) (archive : Archive) (c : Check) (result : CheckResult) :
    Course → Prop
  | .skipListed => r.skips c = true ∧ result = .ofOutcome c.descriptor .skipped (.empty r.limit)
  | .unreached => r.skips c = false ∧
    result = .ofOutcome c.descriptor .skipped ((Examples.empty r.limit).setError cancelledError)
  | .interrupted => r.skips c = false ∧ ∃ first, result = .ofOutcome c.descriptor .skipped
    ((runCheck (firedFrom first) false r.limit archive c).2.examples.setError cancelledError)
  | .undisturbed => r.skips c = false ∧
    result = .ofOutcome c.descriptor (runCheck quiet false r.limit archive c).1
      (runCheck quiet false r.limit archive c).2.examples

/-- What is left of a task ends as its whole script does. While nobody has cancelled, the polls to
come may be answered by any signal; afterwards all are answered by a cancelled one. -/
def Task.Follows (r : Runner) (archive : Archive) (t : Task) : Bool → Prop
  | false => ∀ signal : Nat → Bool, (∀ n < t.trace.polls, signal n = false) →
    t.script.run signal t.trace = (t.check.script archive).run signal (.fresh r.limit false)
  | true => ∃ first ≤ t.trace.polls, t.script.run (firedFrom first) t.trace =
    (t.check.script archive).run (firedFrom first) (.fresh r.limit false)

namespace Task.Follows

variable {r : Runner} {archive : Archive} {t : Task} {fired : Bool}

theorem fire (h : t.Follows r archive fired) : t.Follows r archive true := by
  cases fired with
  | true => exact h
  | false =>
    exact ⟨t.trace.polls, Nat.le_refl _, h _ fun n hn => decide_eq_false (Nat.not_le.mpr hn)⟩

theorem or_cancelled (h : t.Follows r archive fired) (cancelled : Bool) :
    t.Follows r archive (fired || cancelled) := by
  cases cancelled with
  | false => rwa [Bool.or_false]
  | true =>
    rw [Bool.or_true]
    exact h.fire

theorem going (h : t.Follows r archive fired) {script : Script Outcome} {trace : Trace}
    (goes : t.script.step fired t.trace = .going script trace) :
    ({ t with script, trace } : Task).Follows r archive fired := by
  cases fired with
  | false =>
    intro signal hsignal
    have hle := Script.polls_of_going goes
    rw [← h signal fun n hn => hsignal n (Nat.lt_of_lt_of_le hn hle)]
    exact (Script.run_of_going goes fun hpoll => hsignal _ hpoll).symm
  | true =>
    obtain ⟨first, hfirst, hrun⟩ := h
    refine ⟨first, hfirst.trans (Script.polls_of_going goes), ?_⟩
    rw [← hrun]
    exact (Script.run_of_going goes fun _ => decide_eq_true hfirst).symm

theorem ended (h : t.Follows r archive fired) (hskip : r.skips t.check = false) {ending : Ending}
    {o : Outcome} {u : Trace} (ends : t.script.step fired t.trace = .ended ending)
    (concludes : conclude t.check.code (ending, t.trace) = (o, u)) :
    (Course.ended fired).Gives r archive t.check (Runner.keep t.check o u.examples fired) := by
  have halone : ∀ signal, t.script.run signal t.trace =
      (t.check.script archive).run signal (.fresh r.limit false) →
      runCheck signal false r.limit archive t.check = (o, u) := by
    intro signal hrun
    rw [runCheck, ← hrun, Script.run_of_ended ends, concludes]
  cases fired with
  | false =>
    have hquiet := halone quiet (h quiet fun _ _ => rfl)
    exact ⟨hskip, by simp [Runner.keep, hquiet]⟩
  | true =>
    obtain ⟨first, _, hrun⟩ := h
    exact ⟨hskip, first, by simp [Runner.keep, halone _ hrun]⟩

end Task.Follows

namespace Pool

variable {p q : Pool} {r : Runner} {archive : Archive} {checks : List Check} {move : Move}
  {course : Option (Nat × Course)} {before schedule : List Move} {done : List (Nat × Course)}

/-- What every move keeps of a pool, the moves made and the courses told, a whole schedule keeps. -/
theorem courses_invariant {I : Pool → List Move → List (Nat × Course) → Prop}
    (hstep : ∀ {p q move course before done}, I p before done → Moves r archive p move course q →
      I q (before ++ [move]) (done ++ course.toList))
    (h : I p before done) (hf : p.follow r archive schedule = some q) :
    I q (before ++ schedule) (done ++ p.courses r archive schedule) := by
  induction schedule generalizing p before done with
  | nil =>
    obtain rfl := Option.some.inj hf
    simpa [courses] using h
  | cons move rest ih =>
    obtain ⟨m, hm, hrest⟩ := Option.bind_eq_some_iff.mp hf
    have hlast := ih (hstep h (moves_of_step hm)) hrest
    simpa [courses, hm] using hlast

/-- The courses told so far are those of the checks that have their results, and every task follows
its script. -/
structure Coursed (r : Runner) (archive : Archive) (checks : List Check) (p : Pool)
    (done : List (Nat × Course)) : Prop where
  accounted : Accounted r checks p
  keys : (done.map Prod.fst).Perm p.finished.keys
  gives : ∀ e ∈ done, ∃ c result, checks[e.1]? = some c ∧ p.finished.get? e.1 = some result ∧
    e.2.Gives r archive c result
  running : ∀ t ∈ p.running, t.Follows r archive p.fired

theorem Accounted.not_mem_keys_waiting (h : Accounted r checks p) {e : Nat × Check}
    (he : e ∈ p.waiting) : e.1 ∉ p.finished.keys := by
  intro hk
  exact List.disjoint_left.mp (List.disjoint_of_nodup_append h.nodup) (List.mem_map_of_mem he)
    (List.mem_append_right _ hk)

theorem Accounted.not_mem_keys_running (h : Accounted r checks p) {t : Task}
    (ht : t ∈ p.running) : t.position ∉ p.finished.keys := by
  have hnd := (List.nodup_append.mp h.nodup).2.1
  exact List.disjoint_left.mp (List.disjoint_of_nodup_append hnd) (List.mem_map_of_mem ht)

theorem Accounted.ne_of_waiting (h : Accounted r checks p) {e : Nat × Check} (he : e ∈ p.waiting)
    {t : Task} (ht : t ∈ p.running) : e.1 ≠ t.position := by
  intro heq
  exact List.disjoint_left.mp (List.disjoint_of_nodup_append h.nodup) (List.mem_map_of_mem he)
    (List.mem_append_left _ (heq ▸ List.mem_map_of_mem ht))

namespace Coursed

theorem ofChecks (r : Runner) (archive : Archive) (fired : Bool) (checks : List Check) :
    Coursed r archive checks (Pool.ofChecks fired checks) [] :=
  ⟨.ofChecks fired checks, .nil, by simp, by simp [Pool.ofChecks]⟩

theorem nodup (h : Coursed r archive checks p done) : (done.map Prod.fst).Nodup :=
  h.keys.nodup_iff.mpr p.finished.nodup_keys

theorem finish (h : Coursed r archive checks p done) {i : Nat} {c : Check} {result : CheckResult}
    {course : Course} (hp : i ∈ p.positions) (hnew : i ∉ p.finished.keys)
    (hc : checks[i]? = some c) (hgives : course.Gives r archive c result) :
    Coursed r archive checks (p.finish i result) (done ++ [(i, course)]) := by
  refine ⟨h.accounted.finish hp result, ?_, ?_, fun t ht => h.running t (List.mem_of_mem_filter ht)⟩
  · have hkeep : p.finished.keys.filter (· ≠ i) = p.finished.keys :=
      List.filter_eq_self.mpr fun k hk => by simpa using fun he : k = i => hnew (he ▸ hk)
    have hinsert : (p.finished.insert i result).keys.Perm (i :: p.finished.keys) := by
      have hperm := SortedMap.keys_insert_perm (m := p.finished) (k := i) (v := result)
      rwa [hkeep] at hperm
    rw [List.map_append]
    exact (List.perm_append_singleton _ _).trans ((h.keys.cons i).trans hinsert.symm)
  · intro e he
    rcases List.mem_append.mp he with he | he
    · obtain ⟨d, old, hd, hold, hg⟩ := h.gives e he
      have hne : e.1 ≠ i := fun heq => hnew (heq ▸ h.keys.subset (List.mem_map_of_mem he))
      exact ⟨d, old, hd, by rw [Pool.finish, SortedMap.get?_insert, if_neg hne, hold], hg⟩
    · obtain rfl := List.mem_singleton.mp he
      exact ⟨c, result, hc, by rw [Pool.finish, SortedMap.get?_insert, if_pos rfl], hgives⟩

theorem moves (h : Coursed r archive checks p done) (hm : Moves r archive p move course q) :
    Coursed r archive checks q (done ++ course.toList) := by
  have ha := h.accounted.moves hm
  cases hm with
  | fire =>
    rw [Option.toList_none, List.append_nil]
    exact ⟨ha, h.keys, h.gives, fun t ht => (h.running t ht).fire⟩
  | skipped waits free skips =>
    exact h.finish (Accounted.mem_positions_waiting waits) (h.accounted.not_mem_keys_waiting waits)
      (h.accounted.waiting _ waits) ⟨skips, rfl⟩
  | missed waits free skips fired =>
    exact h.finish (Accounted.mem_positions_waiting waits) (h.accounted.not_mem_keys_waiting waits)
      (h.accounted.waiting _ waits) ⟨skips, rfl⟩
  | taken waits free skips fired =>
    rw [Option.toList_none, List.append_nil]
    refine ⟨ha, h.keys, h.gives, fun t ht => ?_⟩
    rcases List.mem_cons.mp ht with rfl | ht
    · simp only [fired]
      exact fun _ _ => rfl
    · exact h.running t ht
  | @going task script trace runs goes =>
    rw [Option.toList_none, List.append_nil]
    refine ⟨ha, h.keys, h.gives, fun t ht => ?_⟩
    obtain ⟨other, ho, rfl⟩ := List.mem_map.mp ht
    by_cases he : other.position = task.position
    · rw [if_pos he]
      exact ((h.running task runs).going goes).or_cancelled trace.cancelled
    · rw [if_neg he]
      exact (h.running other ho).or_cancelled trace.cancelled
  | ended runs ends concludes =>
    obtain ⟨hc, hskip⟩ := h.accounted.running _ runs
    exact h.finish (Accounted.mem_positions_running runs) (h.accounted.not_mem_keys_running runs) hc
      ((h.running _ runs).ended hskip ends concludes)

/-- When all is done each check has one course and the result that belongs to it. -/
theorem result_of_complete (h : Coursed r archive checks p done) (hc : p.isComplete = true)
    {i : Nat} {c : Check} (hcheck : checks[i]? = some c) :
    ∃ course result, (i, course) ∈ done ∧ p.results[i]? = some result ∧
      course.Gives r archive c result := by
  have hi : i ∈ p.finished.keys := by
    rw [h.accounted.keys_of_complete hc]
    exact List.mem_range.mpr (List.getElem?_eq_some_iff.mp hcheck).1
  obtain ⟨⟨k, course⟩, he, rfl⟩ := List.mem_map.mp (h.keys.symm.subset hi)
  obtain ⟨d, result, hd, hresult, hgives⟩ := h.gives _ he
  obtain rfl : c = d := Option.some.inj (hcheck.symm.trans hd)
  exact ⟨course, result, he, by rw [h.accounted.results_getElem? hc, hresult], hgives⟩

end Coursed

end Pool

end CaptureAudit
