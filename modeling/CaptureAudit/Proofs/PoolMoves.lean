import CaptureAudit.Runner.Pool

/-! What a move does to a pool. A move that gives a check its result tells of the course that the
check took. -/

namespace CaptureAudit

/-- How a check came by its result. -/
inductive Course where
  /-- It is on the skip list. -/
  | skipListed
  /-- The analysis was cancelled before the check was taken up. -/
  | unreached
  /-- The analysis was cancelled after the check was taken up and before it ended. -/
  | interrupted
  | undisturbed
  deriving DecidableEq, Repr

/-- The course of a check whose script comes to its end. -/
def Course.ended (fired : Bool) : Course := if fired then .interrupted else .undisturbed

namespace Pool

/-- The check that gets its result by a move, and the course that it took. -/
def course? (p : Pool) (r : Runner) : Move → Option (Nat × Course)
  | .fire => none
  | .start position =>
    match p.waiting.find? (·.1 = position) with
    | none => none
    | some (_, c) =>
      if r.skips c then some (position, .skipListed)
      else if p.fired then some (position, .unreached)
      else none
  | .advance position =>
    match p.running.find? (·.position = position) with
    | none => none
    | some task =>
      match task.script.step p.fired task.trace with
      | .going _ _ => none
      | .ended _ => some (position, .ended p.fired)

/-- The courses of all checks that get their results on a schedule, in the order of time. -/
def courses (r : Runner) (archive : Archive) : Pool → List Move → List (Nat × Course)
  | _, [] => []
  | p, move :: rest =>
    match p.step r archive move with
    | some q => (p.course? r move).toList ++ q.courses r archive rest
    | none => []

/-- All that a move can do, with the course that it tells of. Taking up a check needs a free
worker. -/
inductive Moves (r : Runner) (archive : Archive) (p : Pool) :
    Move → Option (Nat × Course) → Pool → Prop where
  | fire : Moves r archive p .fire none { p with fired := true }
  | skipped {i : Nat} {c : Check} (waits : (i, c) ∈ p.waiting)
      (free : p.running.length < r.workers) (skips : r.skips c = true) :
      Moves r archive p (.start i) (some (i, .skipListed)) (p.finish i (r.notRun c none))
  | missed {i : Nat} {c : Check} (waits : (i, c) ∈ p.waiting)
      (free : p.running.length < r.workers) (skips : r.skips c = false) (fired : p.fired = true) :
      Moves r archive p (.start i) (some (i, .unreached))
        (p.finish i (r.notRun c (some cancelledError)))
  | taken {i : Nat} {c : Check} (waits : (i, c) ∈ p.waiting)
      (free : p.running.length < r.workers) (skips : r.skips c = false) (fired : p.fired = false) :
      Moves r archive p (.start i) none { p with
        waiting := p.waiting.filter (·.1 ≠ i)
        running := ⟨i, c, c.script archive, .fresh r.limit false⟩ :: p.running }
  | going {task : Task} {script : Script Outcome} {trace : Trace} (runs : task ∈ p.running)
      (goes : task.script.step p.fired task.trace = .going script trace) :
      Moves r archive p (.advance task.position) none (p.putTask { task with script, trace })
  | ended {task : Task} {ending : Ending} {o : Outcome} {t : Trace} (runs : task ∈ p.running)
      (ends : task.script.step p.fired task.trace = .ended ending)
      (concludes : conclude task.check.code (ending, task.trace) = (o, t)) :
      Moves r archive p (.advance task.position)
        (some (task.position, .ended p.fired))
        (p.finish task.position (Runner.keep task.check o t.examples p.fired))

variable {p q : Pool} {r : Runner} {archive : Archive}

theorem moves_of_start {i : Nat} (h : p.start r archive i = some q) :
    Moves r archive p (.start i) (p.course? r (.start i)) q := by
  unfold start at h
  cases hfind : p.waiting.find? (·.1 = i) with
  | none => simp [hfind] at h
  | some e =>
    obtain ⟨k, c⟩ := e
    obtain rfl : k = i := by simpa using List.find?_some hfind
    have hm := List.mem_of_find?_eq_some hfind
    by_cases hw : r.workers ≤ p.running.length
    · simp [hfind, hw] at h
    · have hfree := Nat.lt_of_not_le hw
      simp only [hfind, hw, if_false] at h
      cases hs : r.skips c with
      | true =>
        have hcourse : p.course? r (.start k) = some (k, .skipListed) := by
          simp [course?, hfind, hs]
        simp only [hs, if_true] at h
        rw [hcourse, ← Option.some.inj h]
        exact .skipped hm hfree hs
      | false =>
        simp only [hs, Bool.false_eq_true, if_false] at h
        cases hf : p.fired with
        | true =>
          have hcourse : p.course? r (.start k) = some (k, .unreached) := by
            simp [course?, hfind, hs, hf]
          simp only [hf, if_true] at h
          rw [hcourse, ← Option.some.inj h]
          exact .missed hm hfree hs hf
        | false =>
          have hcourse : p.course? r (.start k) = none := by simp [course?, hfind, hs, hf]
          simp only [hf, Bool.false_eq_true, if_false] at h
          rw [hcourse, ← Option.some.inj h]
          simpa only [hf] using Moves.taken hm hfree hs hf

theorem moves_of_advance {i : Nat} (h : p.advance i = some q) :
    Moves r archive p (.advance i) (p.course? r (.advance i)) q := by
  unfold advance at h
  cases hfind : p.running.find? (·.position = i) with
  | none => simp [hfind] at h
  | some task =>
    obtain rfl : task.position = i := by simpa using List.find?_some hfind
    have hm := List.mem_of_find?_eq_some hfind
    simp only [hfind] at h
    cases hs : task.script.step p.fired task.trace with
    | going script trace =>
      have hcourse : p.course? r (.advance task.position) = none := by simp [course?, hfind, hs]
      simp only [hs] at h
      rw [hcourse, ← Option.some.inj h]
      exact .going hm hs
    | ended ending =>
      have hcourse : p.course? r (.advance task.position) =
          some (task.position, .ended p.fired) := by
        simp [course?, hfind, hs]
      simp only [hs] at h
      rw [hcourse, ← Option.some.inj h]
      exact .ended hm hs rfl

theorem moves_of_step {move : Move} (h : p.step r archive move = some q) :
    Moves r archive p move (p.course? r move) q := by
  cases move with
  | fire =>
    rw [← Option.some.inj h]
    exact .fire
  | start i => exact moves_of_start h
  | advance i => exact moves_of_advance h

end Pool

end CaptureAudit
