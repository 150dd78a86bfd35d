import CaptureAudit.Proofs.PoolCourse

/-! What cancelling an analysis does to the run as a whole: it interrupts no more checks than there
are workers, and a single worker's checks are undisturbed up to one that is interrupted, after which
none is reached. -/

namespace CaptureAudit

def Move.started? : Move → Option Nat
  | .start position => some position
  | _ => none

@[simp] theorem Move.started?_fire : fire.started? = none := rfl

@[simp] theorem Move.started?_start (i : Nat) : (start i).started? = some i := rfl

@[simp] theorem Move.started?_advance (i : Nat) : (advance i).started? = none := rfl

namespace Pool

variable {p q : Pool} {r : Runner} {archive : Archive} {checks : List Check} {move : Move}
  {course : Option (Nat × Course)} {before schedule : List Move} {done : List (Nat × Course)}

/-- Checks whose script was never begun. -/
structure Uncalled (p : Pool) (before : List Move) (done : List (Nat × Course)) : Prop where
  waiting : ∀ e ∈ p.waiting, Move.advance e.1 ∉ before
  done : ∀ e ∈ done, e.2 = .skipListed ∨ e.2 = .unreached → Move.advance e.1 ∉ before

namespace Uncalled

theorem finish_waiting (h : Uncalled p before done) {e : Nat × Check} (he : e ∈ p.waiting)
    (result : CheckResult) (course : Course) :
    Uncalled (p.finish e.1 result) (before ++ [.start e.1]) (done ++ [(e.1, course)]) := by
  refine ⟨fun x hx => ?_, fun x hx hcourse => ?_⟩
  · simpa using h.waiting x (List.mem_of_mem_filter hx)
  · rcases List.mem_append.mp hx with hx | hx
    · simpa using h.done x hx hcourse
    · obtain rfl := List.mem_singleton.mp hx
      simpa using h.waiting e he

/-- A check that is gone on with neither waits nor has its result. -/
theorem advance (h : Uncalled p before done) (hc : Coursed r archive checks p done) {t : Task}
    (ht : t ∈ p.running) : Uncalled p (before ++ [.advance t.position]) done := by
  refine ⟨fun e he => ?_, fun e he hcourse => ?_⟩
  · simpa using ⟨h.waiting e he, hc.accounted.ne_of_waiting he ht⟩
  · have hne : e.1 ≠ t.position := fun heq =>
      hc.accounted.not_mem_keys_running ht (heq ▸ hc.keys.subset (List.mem_map_of_mem he))
    simpa using ⟨h.done e he hcourse, hne⟩

theorem moves (h : Uncalled p before done) (hc : Coursed r archive checks p done)
    (hm : Moves r archive p move course q) :
    Uncalled q (before ++ [move]) (done ++ course.toList) := by
  cases hm with
  | fire =>
    rw [Option.toList_none, List.append_nil]
    exact ⟨by simpa using h.waiting, by simpa using h.done⟩
  | skipped waits free skips => exact h.finish_waiting waits _ _
  | missed waits free skips fired => exact h.finish_waiting waits _ _
  | taken waits free skips fired =>
    rw [Option.toList_none, List.append_nil]
    refine ⟨fun e he => ?_, by simpa using h.done⟩
    simpa using h.waiting e (List.mem_of_mem_filter he)
  | going runs goes =>
    rw [Option.toList_none, List.append_nil]
    exact ⟨(h.advance hc runs).waiting, (h.advance hc runs).done⟩
  | ended runs ends concludes =>
    have hadvance := h.advance hc runs
    refine ⟨fun e he => hadvance.waiting e (List.mem_of_mem_filter he), fun e he hcourse => ?_⟩
    rcases List.mem_append.mp he with he | he
    · exact hadvance.done e he hcourse
    · obtain rfl := List.mem_singleton.mp he
      cases hf : p.fired <;> simp [hf, Course.ended] at hcourse

end Uncalled

/-- Only tasks that were there when the analysis was cancelled can be interrupted. -/
structure Spared (r : Runner) (p : Pool) (done : List (Nat × Course)) : Prop where
  unfired : p.fired = false → done.countP (·.2 = .interrupted) = 0
  bounded : done.countP (·.2 = .interrupted) + p.running.length ≤ r.workers

theorem length_filter_running {t : Task} (ht : t ∈ p.running) :
    (p.running.filter (·.position ≠ t.position)).length + 1 ≤ p.running.length :=
  List.length_filter_lt_length_iff_exists.mpr ⟨t, ht, by simp⟩

namespace Spared

/-- A check that is finished without a task of its own is not interrupted. -/
theorem finish_waiting (h : Spared r p done) {i : Nat} (result : CheckResult) {course : Course}
    (hcourse : course ≠ .interrupted) : Spared r (p.finish i result) (done ++ [(i, course)]) := by
  have hcount : (done ++ [(i, course)]).countP (·.2 = .interrupted) =
      done.countP (·.2 = .interrupted) := by
    simp [List.countP_append, hcourse]
  refine ⟨fun hf => hcount.trans (h.unfired hf), ?_⟩
  rw [hcount]
  exact (Nat.add_le_add_left (List.length_filter_le _ _) _).trans h.bounded

theorem moves (h : Spared r p done) (hm : Moves r archive p move course q) :
    Spared r q (done ++ course.toList) := by
  cases hm with
  | fire =>
    rw [Option.toList_none, List.append_nil]
    exact ⟨by simp, h.bounded⟩
  | skipped waits free skips => exact h.finish_waiting _ (by simp)
  | missed waits free skips fired => exact h.finish_waiting _ (by simp)
  | taken waits free skips fired =>
    rw [Option.toList_none, List.append_nil]
    refine ⟨h.unfired, ?_⟩
    rw [h.unfired fired, Nat.zero_add]
    exact free
  | going runs goes =>
    rw [Option.toList_none, List.append_nil]
    refine ⟨fun hf => h.unfired (Bool.or_eq_false_iff.mp hf).1, ?_⟩
    simpa [putTask] using h.bounded
  | @ended task ending o t runs ends concludes =>
    have hlen := length_filter_running runs
    have hbounded := h.bounded
    have hcount : (done ++ [(task.position, Course.ended p.fired)]).countP (·.2 = .interrupted) =
        done.countP (·.2 = .interrupted) + if p.fired then 1 else 0 := by
      cases p.fired <;> simp [List.countP_append, Course.ended]
    refine ⟨fun hf => ?_, ?_⟩
    · have hp : p.fired = false := hf
      rw [Option.toList_some, hcount, h.unfired hp, hp]
      rfl
    · rw [Option.toList_some, hcount]
      simp only [finish]
      split <;> omega

end Spared

/-- The courses of the checks that are not on the skip list. -/
def kinds (done : List (Nat × Course)) : List Course :=
  (done.map Prod.snd).filter (· ≠ .skipListed)

theorem kinds_concat (done : List (Nat × Course)) (i : Nat) {course : Course}
    (h : course ≠ .skipListed) : kinds (done ++ [(i, course)]) = kinds done ++ [course] := by
  simp [kinds, List.filter_append, h]

theorem kinds_concat_skipListed (done : List (Nat × Course)) (i : Nat) :
    kinds (done ++ [(i, .skipListed)]) = kinds done := by
  simp [kinds, List.filter_append]

/-- Undisturbed checks, then checks that are interrupted, and then checks that are not reached. -/
def CutShort (l : List Course) (undisturbed interrupted unreached : Nat) : Prop :=
  l = List.replicate undisturbed .undisturbed ++ List.replicate interrupted .interrupted ++
    List.replicate unreached .unreached

namespace CutShort

variable {l : List Course} {n k m : Nat}

theorem unreached (h : CutShort l n k m) : CutShort (l ++ [.unreached]) n k (m + 1) := by
  rw [CutShort, h, List.replicate_succ', List.append_assoc]

theorem ended (h : CutShort l n 0 0) (fired : Bool) :
    ∃ n' k, k ≤ 1 ∧ CutShort (l ++ [.ended fired]) n' k 0 ∧ (fired = false → k = 0) := by
  rw [CutShort, List.replicate_zero, List.append_nil, List.replicate_zero, List.append_nil] at h
  cases fired with
  | false =>
    exact ⟨n + 1, 0, by simp, by simp [CutShort, h, List.replicate_succ', Course.ended], by simp⟩
  | true => exact ⟨n, 1, by simp, by simp [CutShort, h, Course.ended], by simp⟩

end CutShort

/-- The run of a single worker: checks get their results in the order in which they are taken up. -/
structure Single (p : Pool) (before : List Move) (done : List (Nat × Course)) : Prop where
  order : done.map Prod.fst ++ p.running.map Task.position = before.filterMap Move.started?
  cut : ∃ n k m, k ≤ 1 ∧ CutShort (kinds done) n k m ∧ (p.fired = false → k + m = 0) ∧
    (p.running ≠ [] → k + m = 0)

namespace Single

theorem running_eq_nil (hw : r.workers = 1) (hfree : p.running.length < r.workers) :
    p.running = [] :=
  List.eq_nil_of_length_eq_zero (by omega)

theorem running_eq_singleton (hw : r.workers = 1) (ha : Accounted r checks p) {t : Task}
    (ht : t ∈ p.running) : p.running = [t] := by
  cases hr : p.running with
  | nil => simp [hr] at ht
  | cons u rest =>
    obtain rfl : rest = [] := by simpa [hr, hw] using ha.bounded
    rw [hr] at ht
    rw [List.mem_singleton.mp ht]

/-- A check that is finished without a task of its own, while nothing else is taken up. -/
theorem finish_waiting (h : Single p before done) (hnil : p.running = []) {i : Nat}
    (result : CheckResult) {course : Course} {n k m : Nat} (hk : k ≤ 1)
    (hcut : CutShort (kinds (done ++ [(i, course)])) n k m)
    (hunfired : p.fired = false → k + m = 0) :
    Single (p.finish i result) (before ++ [.start i]) (done ++ [(i, course)]) where
  order := by
    have horder : done.map Prod.fst = before.filterMap Move.started? := by
      simpa [hnil] using h.order
    simp [finish, hnil, horder]
  cut := ⟨n, k, m, hk, hcut, hunfired, by simp [finish, hnil]⟩

theorem moves (h : Single p before done) (hw : r.workers = 1) (ha : Accounted r checks p)
    (hm : Moves r archive p move course q) :
    Single q (before ++ [move]) (done ++ course.toList) := by
  obtain ⟨n, k, m, hk, hcut, hunfired, hrunning⟩ := h.cut
  have horder := h.order
  cases hm with
  | fire =>
    rw [Option.toList_none, List.append_nil]
    exact ⟨by simpa [List.filterMap_cons] using horder, n, k, m, hk, hcut, by simp, hrunning⟩
  | @skipped i c waits free skips =>
    have hsame : CutShort (kinds (done ++ [(i, .skipListed)])) n k m := by
      rwa [kinds_concat_skipListed]
    exact h.finish_waiting (running_eq_nil hw free) _ hk hsame hunfired
  | @missed i c waits free skips fired =>
    have hmore : CutShort (kinds (done ++ [(i, .unreached)])) n k (m + 1) := by
      rw [kinds_concat _ _ (by simp)]
      exact hcut.unreached
    exact h.finish_waiting (running_eq_nil hw free) _ hk hmore (by simp [fired])
  | @taken i c waits free skips fired =>
    have hnil := running_eq_nil hw free
    rw [Option.toList_none, List.append_nil]
    refine ⟨?_, n, k, m, hk, hcut, fun _ => hunfired fired, fun _ => hunfired fired⟩
    rw [hnil, List.map_nil, List.append_nil] at horder
    simp [hnil, horder]
  | @going task script trace runs goes =>
    have hzero := hrunning (List.ne_nil_of_mem runs)
    rw [Option.toList_none, List.append_nil]
    refine ⟨?_, n, k, m, hk, hcut, fun _ => hzero, fun _ => hzero⟩
    rw [positions_running_putTask, horder]
    simp
  | @ended task ending o t runs ends concludes =>
    have hzero := hrunning (List.ne_nil_of_mem runs)
    obtain ⟨rfl, rfl⟩ : k = 0 ∧ m = 0 := by omega
    obtain ⟨n', k', hk', hcut', hfired⟩ := hcut.ended p.fired
    have hone := running_eq_singleton hw ha runs
    refine ⟨?_, n', k', 0, hk', ?_, hfired, by simp [Pool.finish, hone]⟩
    · rw [hone] at horder
      simp [Pool.finish, hone, ← horder]
    · rw [Option.toList_some, kinds_concat _ _ (by cases p.fired <;> simp [Course.ended])]
      exact hcut'

end Single

/-- The moves up to the end when polls are answered so that scripts take longest. -/
def load (r : Runner) (archive : Archive) (p : Pool) : Nat :=
  (p.waiting.map fun e => (e.2.script archive).mostSteps (.empty r.limit) + 2).sum +
    (p.running.map fun t => t.script.mostSteps t.trace.examples + 1).sum

theorem load_finish_waiting (ha : Accounted r checks p) {e : Nat × Check} (he : e ∈ p.waiting)
    (result : CheckResult) : (p.finish e.1 result).load r archive < p.load r archive := by
  have hw := ha.sum_waiting he fun e => (e.2.script archive).mostSteps (.empty r.limit) + 2
  simp only [load, finish, ha.filter_running he, hw]
  omega

theorem countP_singleton (h : move ≠ .fire) : [move].countP (· ≠ .fire) = 1 := by simp [h]

/-- Every move but a cancellation brings the end nearer. -/
theorem load_moves (ha : Accounted r checks p) (hm : Moves r archive p move course q) :
    q.load r archive + [move].countP (· ≠ .fire) ≤ p.load r archive := by
  cases hm with
  | fire => exact Nat.le_refl _
  | skipped waits free skips => exact load_finish_waiting ha waits _
  | missed waits free skips fired => exact load_finish_waiting ha waits _
  | @taken i c waits free skips fired =>
    have hw := ha.sum_waiting waits fun e => (e.2.script archive).mostSteps (.empty r.limit) + 2
    rw [countP_singleton (by simp)]
    simp only [load, hw, List.map_cons, List.sum_cons, Trace.fresh]
    omega
  | @going task script trace runs goes =>
    have hr := ha.sum_running runs fun t => t.script.mostSteps t.trace.examples + 1
    have hput := ha.putTask_running runs { task with script, trace } rfl
      fun t => t.script.mostSteps t.trace.examples + 1
    have hless := Script.mostSteps_of_going goes
    rw [countP_singleton (by simp)]
    simp only [load, hr, hput]
    simp only [putTask]
    omega
  | @ended task ending o t runs ends concludes =>
    have hr := ha.sum_running runs fun t => t.script.mostSteps t.trace.examples + 1
    rw [countP_singleton (by simp)]
    simp only [load, finish, ha.filter_waiting runs, hr]
    omega

end Pool

end CaptureAudit
