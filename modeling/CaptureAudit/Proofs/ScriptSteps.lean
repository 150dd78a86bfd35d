import CaptureAudit.Check.Script

/-! A script that is carried out one step at a time ends as it does when it is carried out at once,
as long as each poll is answered by the same signal. -/

namespace CaptureAudit.Script

/-- Only a poll looks at the signal. -/
theorem run_of_going {signal : Nat → Bool} {fired : Bool} {s s' : Script Outcome} {t t' : Trace}
    (h : s.step fired t = .going s' t') (hpoll : t.polls < t'.polls → signal t.polls = fired) :
    s.run signal t = s'.run signal t' := by
  cases s with
  | done o | fail chain | panic message => simp [step] at h
  | add e next | setError e next | tell e next | look next | cancel next =>
    simp only [step, Stage.going.injEq] at h
    obtain ⟨rfl, rfl⟩ := h
    rfl
  | poll next =>
    simp only [step, Stage.going.injEq] at h
    obtain ⟨rfl, rfl⟩ := h
    rw [← hpoll (Nat.lt_succ_self _)]
    rfl

theorem polls_of_going {fired : Bool} {s s' : Script Outcome} {t t' : Trace}
    (h : s.step fired t = .going s' t') : t.polls ≤ t'.polls := by
  cases s with
  | done o | fail chain | panic message => simp [step] at h
  | add e next | setError e next | tell e next | look next | poll next | cancel next =>
    simp only [step, Stage.going.injEq] at h
    obtain ⟨-, rfl⟩ := h
    simp

theorem run_of_ended {signal : Nat → Bool} {fired : Bool} {s : Script Outcome} {t : Trace}
    {e : Ending} (h : s.step fired t = .ended e) : s.run signal t = (e, t) := by
  cases s with
  | done o | fail chain | panic message =>
    simp only [step, Stage.ended.injEq] at h
    subst e
    rfl
  | add e next | setError e next | tell e next | look next | poll next | cancel next =>
    simp [step] at h

/-- What a script cancelled stays cancelled. -/
theorem cancelled_run (signal : Nat → Bool) (s : Script Outcome) {t : Trace}
    (h : t.cancelled = true) : (s.run signal t).2.cancelled = true := by
  induction s generalizing t with
  | done o | fail chain | panic message => exact h
  | add e next ih | setError e next ih | tell e next ih => exact ih h
  | look next ih | poll next ih => exact ih _ h
  | cancel next ih => exact ih rfl

/-- The steps that a script has before it. -/
def steps (signal : Nat → Bool) : Script Outcome → Trace → Nat
  | .done _, _ => 0
  | .fail _, _ => 0
  | .panic _, _ => 0
  | .add e next, t => next.steps signal { t with examples := t.examples.add e } + 1
  | .setError text next, t => next.steps signal { t with examples := t.examples.setError text } + 1
  | .tell event next, t => next.steps signal { t with events := t.events ++ [event] } + 1
  | .look next, t => (next t.examples).steps signal t + 1
  | .poll next, t =>
    (next (t.cancelled || signal t.polls)).steps signal { t with polls := t.polls + 1 } + 1
  | .cancel next, t => next.steps signal { t with cancelled := true } + 1

theorem steps_of_going {signal : Nat → Bool} {s s' : Script Outcome} {t t' : Trace}
    (h : s.step (signal t.polls) t = .going s' t') :
    s.steps signal t = s'.steps signal t' + 1 := by
  cases s with
  | done o | fail chain | panic message => simp [step] at h
  | add e next | setError e next | tell e next | look next | poll next | cancel next =>
    simp only [step, Stage.going.injEq] at h
    obtain ⟨rfl, rfl⟩ := h
    rfl

theorem steps_of_ended {signal : Nat → Bool} {fired : Bool} {s : Script Outcome} {t : Trace}
    {e : Ending} (h : s.step fired t = .ended e) : s.steps signal t = 0 := by
  cases s with
  | done o | fail chain | panic message => rfl
  | add e next | setError e next | tell e next | look next | poll next | cancel next =>
    simp [step] at h

/-- The steps that a script has before it when its polls are answered so that it takes longest. -/
def mostSteps : Script Outcome → Examples → Nat
  | .done _, _ | .fail _, _ | .panic _, _ => 0
  | .add text next, e => next.mostSteps (e.add text) + 1
  | .setError text next, e => next.mostSteps (e.setError text) + 1
  | .tell _ next, e | .cancel next, e => next.mostSteps e + 1
  | .look next, e => (next e).mostSteps e + 1
  | .poll next, e => max ((next true).mostSteps e) ((next false).mostSteps e) + 1

theorem mostSteps_of_going {fired : Bool} {s s' : Script Outcome} {t t' : Trace}
    (h : s.step fired t = .going s' t') : s'.mostSteps t'.examples < s.mostSteps t.examples := by
  cases s with
  | done o | fail chain | panic message => simp [step] at h
  | add e next | setError e next | tell e next | look next | cancel next =>
    simp only [step, Stage.going.injEq] at h
    obtain ⟨rfl, rfl⟩ := h
    exact Nat.lt_succ_self _
  | poll next =>
    simp only [step, Stage.going.injEq] at h
    obtain ⟨rfl, rfl⟩ := h
    refine Nat.lt_succ_of_le ?_
    cases t.cancelled || fired with
    | true => exact Nat.le_max_left _ _
    | false => exact Nat.le_max_right _ _

end CaptureAudit.Script
