import CaptureAudit.Proofs.PoolAccount
import CaptureAudit.Proofs.ScriptSteps
import CaptureAudit.Proofs.Tally

/-! Runs in which nobody cancels. Each check ends as it does alone, so the order in which workers
take up checks and go on with them shows nowhere in the report, and every order comes to its end
after the same number of moves. -/

namespace CaptureAudit

/-- The signal of an analysis that nobody cancels. -/
def quiet : Nat → Bool := fun _ => false

theorem cancelled_conclude (code : String) (e : Ending × Trace) :
    (conclude code e).2.cancelled = e.2.cancelled := by
  obtain ⟨ending, t⟩ := e
  cases ending <;> rfl

namespace Runner

/-- The result of a check that nothing disturbs. -/
def settled (r : Runner) (archive : Archive) (c : Check) : CheckResult :=
  if r.skips c then r.notRun c none
  else
    .ofOutcome c.descriptor (runCheck quiet false r.limit archive c).1
      (runCheck quiet false r.limit archive c).2.examples

/-- The check does not cancel the analysis when it runs, if it runs. -/
def Lets (r : Runner) (archive : Archive) (c : Check) : Prop :=
  r.skips c = false → (runCheck quiet false r.limit archive c).2.cancelled = false

theorem execute_undisturbed {r : Runner} {archive : Archive} {c : Check} (h : r.Lets archive c) :
    (r.execute archive false c).result = r.settled archive c ∧
      (r.execute archive false c).cancelled = false := by
  unfold execute settled
  cases hs : r.skips c with
  | true => simp
  | false =>
    have hc : (runCheck (fun _ => false) false r.limit archive c).2.cancelled = false := h hs
    simp only [Bool.false_eq_true, if_false, keep, hc]
    exact ⟨rfl, trivial⟩

theorem executeAll_undisturbed {r : Runner} {archive : Archive} {checks : List Check}
    (h : ∀ c ∈ checks, r.Lets archive c) :
    (r.executeAll archive false checks).map Step.result = checks.map (r.settled archive) := by
  induction checks with
  | nil => rfl
  | cons c rest ih =>
    obtain ⟨hr, hc⟩ := execute_undisturbed (h c (by simp))
    simp only [executeAll, hc, List.map_cons, hr, ih fun d hd => h d (List.mem_cons_of_mem _ hd)]

/-- The moves that a waiting check needs: its start, its steps, and its end. -/
def cost (r : Runner) (archive : Archive) (c : Check) : Nat :=
  if r.skips c then 1 else (c.script archive).steps quiet (.fresh r.limit false) + 2

end Runner

/-- The moves that a check that was taken up still needs. -/
def Task.cost (t : Task) : Nat := t.script.steps quiet t.trace + 1

namespace Pool

variable {p q : Pool} {r : Runner} {archive : Archive} {checks : List Check}

theorem follow_invariant {I : Pool → Prop} {schedule : List Move}
    (hstep : ∀ {p q move}, move ∈ schedule → I p → p.step r archive move = some q → I q)
    (hp : I p) (h : p.follow r archive schedule = some q) : I q := by
  induction schedule generalizing p with
  | nil =>
    obtain rfl := Option.some.inj h
    exact hp
  | cons move rest ih =>
    obtain ⟨m, hm, hrest⟩ := Option.bind_eq_some_iff.mp h
    exact ih (fun hx => hstep (List.mem_cons_of_mem _ hx)) (hstep (by simp) hp hm) hrest

/-- Nobody cancelled, every check taken up is on its way to the ending that it has alone, and every
result is the one of its check alone. -/
structure Undisturbed (r : Runner) (archive : Archive) (checks : List Check) (p : Pool) : Prop where
  accounted : Accounted r checks p
  fired : p.fired = false
  running : ∀ t ∈ p.running, t.script.run quiet t.trace =
    (t.check.script archive).run quiet (.fresh r.limit false)
  finished : ∀ e ∈ p.finished.entries, ∃ c, checks[e.1]? = some c ∧ e.2 = r.settled archive c

namespace Undisturbed

theorem ofChecks (r : Runner) (archive : Archive) (checks : List Check) :
    Undisturbed r archive checks (Pool.ofChecks false checks) :=
  ⟨.ofChecks false checks, rfl, by simp [Pool.ofChecks], by simp [Pool.ofChecks, SortedMap.empty]⟩

theorem finish (h : Undisturbed r archive checks p) {position : Nat} {c : Check}
    (hp : position ∈ p.positions) (hc : checks[position]? = some c) :
    Undisturbed r archive checks (p.finish position (r.settled archive c)) := by
  refine ⟨h.accounted.finish hp _, h.fired, fun t ht => h.running t (List.mem_of_mem_filter ht), ?_⟩
  intro e he
  rcases SortedMap.mem_insert.mp he with rfl | ⟨_, he⟩
  · exact ⟨c, hc, rfl⟩
  · exact h.finished e he

theorem step (h : Undisturbed r archive checks p) (hlet : ∀ c ∈ checks, r.Lets archive c)
    {move : Move} (hmove : move ≠ .fire) (hs : p.step r archive move = some q) :
    Undisturbed r archive checks q := by
  have ha := h.accounted.step hs
  have hm := moves_of_step hs
  generalize p.course? r move = course at hm
  cases hm with
  | fire => exact absurd rfl hmove
  | @skipped i c waits free skips =>
    have hset : r.settled archive c = r.notRun c none := by rw [Runner.settled, if_pos skips]
    rw [← hset]
    exact h.finish (Accounted.mem_positions_waiting waits) (h.accounted.waiting _ waits)
  | missed waits free skips fired => simp [h.fired] at fired
  | taken waits free skips fired =>
    refine ⟨ha, h.fired, ?_, h.finished⟩
    intro t ht
    rcases List.mem_cons.mp ht with rfl | ht
    · rfl
    · exact h.running t ht
  | @going task script trace runs goes =>
    obtain ⟨hc, hskip⟩ := h.accounted.running task runs
    have hrun := h.running task runs
    have hgo : task.script.run quiet task.trace = script.run quiet trace :=
      Script.run_of_going goes fun _ => h.fired.symm
    -- A script that cancels once is cancelled at its end, as it would be when it runs alone.
    have hnot : trace.cancelled = false := by
      by_contra hcan
      have hend := Script.cancelled_run quiet script (Bool.not_eq_false _ ▸ hcan)
      have halone := hlet _ (List.mem_of_getElem? hc) hskip
      rw [runCheck, cancelled_conclude, ← hrun, hgo] at halone
      exact absurd hend (by simp [halone])
    refine ⟨ha, by simp [putTask, h.fired, hnot], ?_, h.finished⟩
    intro t ht
    obtain ⟨other, ho, rfl⟩ := List.mem_map.mp ht
    by_cases he : other.position = task.position
    · simpa [he, ← hgo] using hrun
    · simpa [he] using h.running other ho
  | @ended task ending o t runs ends concludes =>
    obtain ⟨hc, hskip⟩ := h.accounted.running task runs
    have hrun := h.running task runs
    have hkeep : Runner.keep task.check o t.examples p.fired = r.settled archive task.check := by
      have hend : task.script.run quiet task.trace = (ending, task.trace) :=
        Script.run_of_ended ends
      have halone : runCheck quiet false r.limit archive task.check = (o, t) := by
        rw [runCheck, ← hrun, hend, concludes]
      simp [Runner.keep, h.fired, Runner.settled, hskip, halone]
    rw [hkeep]
    exact h.finish (Accounted.mem_positions_running runs) hc

theorem follow {schedule : List Move} (h : Undisturbed r archive checks p)
    (hlet : ∀ c ∈ checks, r.Lets archive c) (hfire : Move.fire ∉ schedule)
    (hf : p.follow r archive schedule = some q) : Undisturbed r archive checks q :=
  follow_invariant (fun hm hp hs => hp.step hlet (fun he => hfire (he ▸ hm)) hs) h hf

theorem results (h : Undisturbed r archive checks p) (hc : p.isComplete = true) :
    p.results = checks.map (r.settled archive) := by
  refine List.ext_getElem? fun i => ?_
  rw [h.accounted.results_getElem? hc, List.getElem?_map]
  cases hv : p.finished.get? i with
  | some v =>
    obtain ⟨c, hcheck, rfl⟩ := h.finished (i, v) (SortedMap.get?_eq_some_iff.mp hv)
    simp [hcheck]
  | none =>
    have hi : checks.length ≤ i := by
      rw [← h.accounted.length_results hc, ← List.getElem?_eq_none_iff,
        h.accounted.results_getElem? hc, hv]
    simp [List.getElem?_eq_none hi]

end Undisturbed

/-- The moves up to the end. -/
def remaining (r : Runner) (archive : Archive) (p : Pool) : Nat :=
  (p.waiting.map fun e => r.cost archive e.2).sum + (p.running.map Task.cost).sum

theorem Accounted.sum_waiting (h : Accounted r checks p) {e : Nat × Check} (he : e ∈ p.waiting)
    (f : Nat × Check → Nat) :
    (p.waiting.map f).sum = f e + ((p.waiting.filter (·.1 ≠ e.1)).map f).sum := by
  have hp := (perm_cons_filter_key h.nodup_waiting he).map f
  simpa using hp.sum_nat

theorem Accounted.sum_running (h : Accounted r checks p) {t : Task} (ht : t ∈ p.running)
    (f : Task → Nat) :
    (p.running.map f).sum = f t + ((p.running.filter (·.position ≠ t.position)).map f).sum := by
  have hp := (perm_cons_filter_key h.nodup_running ht).map f
  simpa using hp.sum_nat

theorem Accounted.filter_running (h : Accounted r checks p) {e : Nat × Check} (he : e ∈ p.waiting) :
    p.running.filter (·.position ≠ e.1) = p.running := by
  have hd := List.disjoint_of_nodup_append h.nodup
  refine List.filter_eq_self.mpr fun t ht => ?_
  simp only [ne_eq, decide_not, Bool.not_eq_true', decide_eq_false_iff_not]
  intro heq
  exact List.disjoint_left.mp hd (List.mem_map_of_mem he)
    (List.mem_append_left _ (List.mem_map.mpr ⟨t, ht, heq⟩))

theorem Accounted.filter_waiting (h : Accounted r checks p) {t : Task} (ht : t ∈ p.running) :
    p.waiting.filter (·.1 ≠ t.position) = p.waiting := by
  have hd := List.disjoint_of_nodup_append h.nodup
  refine List.filter_eq_self.mpr fun e he => ?_
  simp only [ne_eq, decide_not, Bool.not_eq_true', decide_eq_false_iff_not]
  intro heq
  exact List.disjoint_left.mp hd (List.mem_map.mpr ⟨e, he, heq⟩)
    (List.mem_append_left _ (List.mem_map_of_mem ht))

theorem Accounted.putTask_running (h : Accounted r checks p) {t : Task} (ht : t ∈ p.running)
    (t' : Task) (hp : t'.position = t.position) (f : Task → Nat) :
    ((p.putTask t').running.map f).sum =
      f t' + ((p.running.filter (·.position ≠ t.position)).map f).sum := by
  have hperm := (perm_cons_filter_key h.nodup_running ht).map
    fun other => if other.position = t'.position then t' else other
  have hsame : ((p.running.filter (·.position ≠ t.position)).map
      fun other => if other.position = t'.position then t' else other) =
      p.running.filter (·.position ≠ t.position) := by
    refine (List.map_congr_left fun other ho => ?_).trans (List.map_id _)
    have hne : other.position ≠ t.position := by simpa using List.of_mem_filter ho
    simp [hp, hne]
  rw [List.map_cons, if_pos hp.symm, hsame] at hperm
  simpa [putTask] using (hperm.map f).sum_nat

/-- Every move brings the end one move nearer. -/
theorem Undisturbed.remaining_step (h : Undisturbed r archive checks p) {move : Move}
    (hmove : move ≠ .fire) (hs : p.step r archive move = some q) :
    p.remaining r archive = q.remaining r archive + 1 := by
  have ha := h.accounted
  have hm := moves_of_step hs
  generalize p.course? r move = course at hm
  cases hm with
  | fire => exact absurd rfl hmove
  | @skipped i c waits free skips =>
    have hcost : r.cost archive c = 1 := if_pos skips
    simp only [remaining, Pool.finish, ha.filter_running waits,
      ha.sum_waiting waits fun e => r.cost archive e.2, hcost]
    omega
  | missed waits free skips fired => simp [h.fired] at fired
  | @taken i c waits free skips fired =>
    have hcost : r.cost archive c =
        (c.script archive).steps quiet (.fresh r.limit false) + 2 := if_neg (by simp [skips])
    simp only [remaining, ha.sum_waiting waits fun e => r.cost archive e.2, hcost, List.map_cons,
      List.sum_cons, Task.cost]
    omega
  | @going task script trace runs goes =>
    have hr := ha.sum_running runs Task.cost
    have hsteps : task.script.steps quiet task.trace = script.steps quiet trace + 1 := by
      refine Script.steps_of_going ?_
      simpa [quiet, h.fired] using goes
    have hput := ha.putTask_running runs { task with script, trace } rfl Task.cost
    simp only [remaining, hput, hr, Task.cost, hsteps]
    simp only [putTask]
    omega
  | @ended task ending o t runs ends concludes =>
    have hr := ha.sum_running runs Task.cost
    have hsteps : task.script.steps quiet task.trace = 0 := Script.steps_of_ended ends
    simp only [remaining, Pool.finish, ha.filter_waiting runs, hr, Task.cost, hsteps]
    omega

theorem Undisturbed.remaining_follow (h : Undisturbed r archive checks p)
    (hlet : ∀ c ∈ checks, r.Lets archive c) {schedule : List Move} (hfire : Move.fire ∉ schedule)
    (hf : p.follow r archive schedule = some q) :
    p.remaining r archive = q.remaining r archive + schedule.length := by
  induction schedule generalizing p with
  | nil =>
    obtain rfl := Option.some.inj hf
    rfl
  | cons move rest ih =>
    obtain ⟨m, hm, hrest⟩ := Option.bind_eq_some_iff.mp hf
    have hmove : move ≠ .fire := fun he => hfire (by simp [he])
    have hstep := h.remaining_step hmove hm
    have hlast := ih (h.step hlet hmove hm) (fun hx => hfire (List.mem_cons_of_mem _ hx)) hrest
    simp only [List.length_cons]
    omega

end Pool

end CaptureAudit
