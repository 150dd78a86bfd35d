import CaptureAudit.Proofs.Ascending
import CaptureAudit.Proofs.PoolMoves
import Mathlib.Data.List.Perm.Basic

/-! The account of the checks: at every moment each check waits, is taken up or has its result, and
is only one of these. -/

namespace CaptureAudit

/-- Among items with different keys, one comes first and the others follow. -/
theorem perm_cons_filter_key {α : Type} {f : α → Nat} {l : List α} {a : α}
    (hnd : (l.map f).Nodup) (ha : a ∈ l) : l.Perm (a :: l.filter (f · ≠ f a)) := by
  have hl : l.Nodup := hnd.of_map
  have hnd' : (a :: l.filter (f · ≠ f a)).Nodup :=
    List.nodup_cons.mpr ⟨by simp, hl.filter _⟩
  refine (List.perm_ext_iff_of_nodup hl hnd').mpr fun x => ?_
  by_cases hx : f x = f a
  · have he : x ∈ l → x = a := fun hm => List.inj_on_of_nodup_map hnd hm ha hx
    simp only [List.mem_cons, List.mem_filter, hx, ne_eq, not_true, decide_false,
      Bool.false_eq_true, and_false, or_false]
    exact ⟨he, fun h => h ▸ ha⟩
  · have hne : x ≠ a := fun h => hx (congrArg f h)
    simp [hx, hne]

namespace Pool

variable {p q : Pool} {r : Runner} {archive : Archive} {checks : List Check}

/-- While a worker is there, a pool that is not complete can go on. -/
theorem exists_move (hw : 0 < r.workers) (hc : p.isComplete = false) :
    ∃ move ≠ Move.fire, (p.step r archive move).isSome = true := by
  cases hr : p.running with
  | cons task rest =>
    refine ⟨.advance task.position, by simp, ?_⟩
    simp only [step, advance, hr, List.find?_cons, decide_true]
    cases task.script.step p.fired task.trace <;> rfl
  | nil =>
    cases hq : p.waiting with
    | nil => simp [isComplete, hr, hq] at hc
    | cons e rest =>
      refine ⟨.start e.1, by simp, ?_⟩
      simp only [step, start, hq, hr, List.find?_cons, decide_true, List.length_nil,
        Nat.not_le.mpr hw, if_false]
      split <;> [rfl; (split <;> rfl)]

/-- The positions of all checks, whatever became of them. -/
def positions (p : Pool) : List Nat :=
  p.waiting.map Prod.fst ++ (p.running.map Task.position ++ p.finished.keys)

theorem positions_ofChecks (fired : Bool) (checks : List Check) :
    (ofChecks fired checks).positions = List.range checks.length := by
  simp [positions, ofChecks, SortedMap.empty, SortedMap.keys, List.map_map, Function.comp_def,
    List.range_eq_range', List.zipIdx_map_snd]

theorem positions_finish (p : Pool) (position : Nat) (result : CheckResult) :
    (p.finish position result).positions.Perm
      (position :: p.positions.filter (· ≠ position)) := by
  have hw : (p.waiting.filter (·.1 ≠ position)).map Prod.fst =
      (p.waiting.map Prod.fst).filter (· ≠ position) := by
    rw [List.filter_map]
    rfl
  have hr : (p.running.filter (·.position ≠ position)).map Task.position =
      (p.running.map Task.position).filter (· ≠ position) := by
    rw [List.filter_map]
    rfl
  have hk : (p.finished.insert position result).keys.Perm
      (position :: p.finished.keys.filter (· ≠ position)) := SortedMap.keys_insert_perm
  simp only [positions, finish, hw, hr, List.filter_append]
  refine (List.Perm.append_left _ (List.Perm.append_left _ hk)).trans ?_
  rw [← List.append_assoc, ← List.append_assoc]
  exact List.perm_middle

theorem positions_running_putTask (p : Pool) (t : Task) :
    (p.putTask t).running.map Task.position = p.running.map Task.position := by
  rw [putTask, List.map_map]
  refine List.map_congr_left fun other _ => ?_
  by_cases ho : other.position = t.position <;> simp [ho]

theorem positions_putTask (p : Pool) (t : Task) : (p.putTask t).positions = p.positions := by
  rw [positions, positions_running_putTask]
  rfl

/-- Every check is accounted for once, under its own position, and no more checks are taken up than
there are workers. -/
structure Accounted (r : Runner) (checks : List Check) (p : Pool) : Prop where
  positions : p.positions.Perm (List.range checks.length)
  waiting : ∀ e ∈ p.waiting, checks[e.1]? = some e.2
  running : ∀ t ∈ p.running, checks[t.position]? = some t.check ∧ r.skips t.check = false
  bounded : p.running.length ≤ r.workers

namespace Accounted

theorem nodup (h : Accounted r checks p) : p.positions.Nodup :=
  h.positions.nodup_iff.mpr List.nodup_range

theorem nodup_waiting (h : Accounted r checks p) : (p.waiting.map Prod.fst).Nodup :=
  (List.nodup_append.mp h.nodup).1

theorem nodup_running (h : Accounted r checks p) : (p.running.map Task.position).Nodup :=
  (List.nodup_append.mp (List.nodup_append.mp h.nodup).2.1).1

theorem ofChecks (fired : Bool) (checks : List Check) :
    Accounted r checks (Pool.ofChecks fired checks) where
  positions := by rw [positions_ofChecks]
  waiting := by
    intro e he
    obtain ⟨⟨c, i⟩, hm, rfl⟩ := List.mem_map.mp he
    exact List.mem_zipIdx_iff_getElem?.mp hm
  running := by simp [Pool.ofChecks]
  bounded := by simp [Pool.ofChecks]

theorem finish (h : Accounted r checks p) {position : Nat} (hp : position ∈ p.positions)
    (result : CheckResult) : Accounted r checks (p.finish position result) where
  positions := by
    have hback : (position :: p.positions.filter (· ≠ position)).Perm p.positions := by
      simpa using (perm_cons_filter_key (f := id) (by simpa using h.nodup) hp).symm
    exact (positions_finish p position result).trans (hback.trans h.positions)
  waiting e he := h.waiting e (List.mem_of_mem_filter he)
  running t ht := h.running t (List.mem_of_mem_filter ht)
  bounded := (List.length_filter_le _ _).trans h.bounded

theorem mem_positions_waiting {e : Nat × Check} (he : e ∈ p.waiting) : e.1 ∈ p.positions :=
  List.mem_append_left _ (List.mem_map_of_mem he)

theorem mem_positions_running {t : Task} (ht : t ∈ p.running) : t.position ∈ p.positions :=
  List.mem_append_right _ (List.mem_append_left _ (List.mem_map_of_mem ht))

theorem moves (h : Accounted r checks p) {move : Move} {course : Option (Nat × Course)}
    (hm : Moves r archive p move course q) : Accounted r checks q := by
  cases hm with
  | fire => exact ⟨h.positions, h.waiting, h.running, h.bounded⟩
  | skipped waits free skips => exact h.finish (mem_positions_waiting waits) _
  | missed waits free skips fired => exact h.finish (mem_positions_waiting waits) _
  | taken waits free skips fired =>
    refine ⟨?_, fun e he => h.waiting e (List.mem_of_mem_filter he), ?_, free⟩
    · have hw := (perm_cons_filter_key h.nodup_waiting waits).map Prod.fst
      refine List.Perm.trans ?_ h.positions
      exact List.perm_middle.trans (hw.symm.append_right _)
    · intro t ht
      rcases List.mem_cons.mp ht with rfl | ht
      · exact ⟨h.waiting _ waits, skips⟩
      · exact h.running t ht
  | @going task script trace runs goes =>
    refine ⟨?_, h.waiting, ?_, ?_⟩
    · rw [positions_putTask]
      exact h.positions
    · intro t ht
      obtain ⟨other, ho, rfl⟩ := List.mem_map.mp ht
      by_cases he : other.position = task.position
      · simpa [he] using h.running task runs
      · simpa [he] using h.running other ho
    · simpa [putTask] using h.bounded
  | ended runs ends concludes => exact h.finish (mem_positions_running runs) _

theorem step (h : Accounted r checks p) {move : Move} (hs : p.step r archive move = some q) :
    Accounted r checks q :=
  h.moves (moves_of_step hs)

/-- When all is done there is exactly one result for each check. -/
theorem keys_of_complete (h : Accounted r checks p) (hc : p.isComplete = true) :
    p.finished.keys = List.range checks.length := by
  have hempty : p.waiting = [] ∧ p.running = [] := by simpa [isComplete] using hc
  have hp : p.finished.keys.Perm (List.range checks.length) := by
    simpa [Pool.positions, hempty.1, hempty.2] using h.positions
  have hk : p.finished.keys.Pairwise (· < ·) :=
    p.finished.ascending_keys.imp fun hlt => Nat.compare_eq_lt.mp hlt
  exact hp.eq_of_pairwise (fun a b _ _ hab hba => absurd hab (Nat.lt_asymm hba)) hk
    List.pairwise_lt_range

theorem length_results (h : Accounted r checks p) (hc : p.isComplete = true) :
    p.results.length = checks.length := by
  have hlen := congrArg List.length (h.keys_of_complete hc)
  simpa [results, SortedMap.values, SortedMap.keys] using hlen

/-- The result of a check stands where the check does. -/
theorem results_getElem? (h : Accounted r checks p) (hc : p.isComplete = true) (i : Nat) :
    p.results[i]? = p.finished.get? i := by
  have hk := h.keys_of_complete hc
  cases he : p.finished.entries[i]? with
  | some e =>
    have hi : e.1 = i := by
      have hki : p.finished.keys[i]? = some e.1 := by simp [SortedMap.keys, he]
      rw [hk] at hki
      obtain ⟨_, hget⟩ := List.getElem?_eq_some_iff.mp hki
      simpa using hget.symm
    have hget := SortedMap.get?_eq_some_iff.mpr (List.mem_of_getElem? he)
    rw [← hi, hget, hi]
    simp [results, SortedMap.values, he]
  | none =>
    have hnone : p.finished.get? i = none := by
      refine Option.eq_none_iff_forall_ne_some.mpr fun v hv => ?_
      have hmem := SortedMap.mem_keys_iff.mpr ⟨v, hv⟩
      rw [hk, List.mem_range, ← h.length_results hc] at hmem
      have hle := List.getElem?_eq_none_iff.mp he
      simp only [results, SortedMap.values, List.length_map] at hmem
      omega
    rw [hnone]
    simp [results, SortedMap.values, he]

end Accounted

end Pool

end CaptureAudit
