import CaptureAudit.Check.Script
import CaptureAudit.Proofs.ScriptSteps

/-! What a script that nobody cancels does to its evidence. Its events are left out, so scripts that
tell of different things can have one effect. -/

namespace CaptureAudit

/-- Why a script stopped before its end. -/
inductive Halt where
  | error (chain : List String)
  | panic (message : Option String)

abbrev Effect := ExceptT Halt (StateM Examples)

namespace Script

variable {α β : Type}

/-- Polls find nothing cancelled. -/
def effect : Script α → Effect α
  | .done a => pure a
  | .fail chain => throw (.error chain)
  | .panic message => throw (.panic message)
  | .add e next => fun examples => next.effect (examples.add e)
  | .setError text next => fun examples => next.effect (examples.setError text)
  | .tell _ next => next.effect
  | .look next => fun examples => (next examples).effect examples
  | .poll next => (next false).effect
  | .cancel next => next.effect

/-- The script never cancels the analysis. -/
def Calm : Script α → Prop
  | .done _ | .fail _ | .panic _ => True
  | .add _ next | .setError _ next | .tell _ next => next.Calm
  | .look next => ∀ examples, (next examples).Calm
  | .poll next => ∀ cancelled, (next cancelled).Calm
  | .cancel _ => False

/-- The script never cancels the analysis and looks at its evidence only for how many examples were
offered. -/
def Steady : Script α → Prop
  | .done _ | .fail _ | .panic _ => True
  | .add _ next | .setError _ next | .tell _ next => next.Steady
  | .look next =>
    (∀ e e', e.offered = e'.offered → next e = next e') ∧ ∀ examples, (next examples).Steady
  | .poll next => ∀ cancelled, (next cancelled).Steady
  | .cancel _ => False

theorem Steady.calm {s : Script α} (h : s.Steady) : s.Calm := by
  induction s with
  | done a | fail chain | panic message => trivial
  | add e next ih | setError text next ih | tell event next ih => exact ih h
  | look next ih => exact fun examples => ih examples (h.2 examples)
  | poll next ih => exact fun cancelled => ih cancelled (h cancelled)
  | cancel next ih => exact h

theorem bind_bind {γ : Type} (s : Script α) (f : α → Script β) (g : β → Script γ) :
    s >>= f >>= g = s >>= fun a => f a >>= g := by
  change (s.bind f).bind g = s.bind fun a => (f a).bind g
  induction s with
  | done a | fail chain | panic message => rfl
  | add e next ih => exact congrArg (add e) ih
  | setError text next ih => exact congrArg (setError text) ih
  | tell event next ih => exact congrArg (tell event) ih
  | look next ih => exact congrArg look (funext ih)
  | poll next ih => exact congrArg poll (funext ih)
  | cancel next ih => exact congrArg cancel ih

@[simp] theorem effect_pure (a : α) : (pure a : Script α).effect = pure a := rfl

@[simp] theorem effect_bind (s : Script α) (f : α → Script β) :
    (s >>= f).effect = s.effect >>= fun a => (f a).effect := by
  change (s.bind f).effect = _
  induction s with
  | done a => rfl
  | fail chain | panic message => rfl
  | add e next ih => exact funext fun examples => congrFun ih (examples.add e)
  | setError text next ih => exact funext fun examples => congrFun ih (examples.setError text)
  | tell event next ih => exact ih
  | look next ih => exact funext fun examples => congrFun (ih examples) examples
  | poll next ih => exact ih false
  | cancel next ih => exact ih

@[simp] theorem effect_note (event : Event) : (note event).effect = pure () := rfl

@[simp] theorem effect_checkpoint : checkpoint.effect = pure () := rfl

@[simp] theorem effect_notes (events : List Event) : (forM events note).effect = pure () := by
  induction events with
  | nil => rfl
  | cons event events ih => exact ih

/-- Items on which a loop does nothing may be left out. -/
theorem effect_foldlM_filter {f : β → α → Script β} {keep : α → Bool}
    (h : ∀ x a, keep a = false → (f x a).effect = pure x) (l : List α) (x : β) :
    (l.foldlM f x).effect = ((l.filter keep).foldlM f x).effect := by
  induction l generalizing x with
  | nil => rfl
  | cons a l ih =>
    cases hk : keep a with
    | true => simp [hk, ih]
    | false => simp [hk, ih, h x a hk]

theorem effect_foldlM_congr {f g : β → α → Script β} {l : List α}
    (h : ∀ x, ∀ a ∈ l, (f x a).effect = (g x a).effect) (x : β) :
    (l.foldlM f x).effect = (l.foldlM g x).effect := by
  induction l generalizing x with
  | nil => rfl
  | cons a l ih =>
    have hrest := ih fun x b hb => h x b (by simp [hb])
    simp [h x a (by simp), hrest]

theorem steady_bind {s : Script α} {f : α → Script β} (hs : s.Steady) (hf : ∀ a, (f a).Steady) :
    (s >>= f).Steady := by
  change (s.bind f).Steady
  induction s with
  | done a => exact hf a
  | fail chain | panic message => trivial
  | add e next ih | setError text next ih | tell event next ih => exact ih hs
  | look next ih =>
    exact ⟨fun e e' h => congrArg (Script.bind · f) (hs.1 e e' h), fun e => ih e (hs.2 e)⟩
  | poll next ih => exact fun cancelled => ih cancelled (hs cancelled)
  | cancel next ih => exact hs

theorem steady_pure (a : α) : (pure a : Script α).Steady := trivial

theorem steady_note (event : Event) : (note event).Steady := trivial

theorem steady_record (text : String) : (record text).Steady := trivial

theorem steady_checkpoint : checkpoint.Steady := by
  intro cancelled
  cases cancelled <;> trivial

theorem steady_evidence_bind {f : Examples → Script β}
    (hsame : ∀ e e', e.offered = e'.offered → f e = f e') (hf : ∀ e, (f e).Steady) :
    (evidence >>= f).Steady := ⟨hsame, hf⟩

theorem steady_forM {l : List α} {f : α → Script Unit} (h : ∀ a, (f a).Steady) :
    (l.forM f).Steady := by
  induction l with
  | nil => trivial
  | cons a l ih => exact steady_bind (h a) fun _ => ih

theorem steady_foldlM {l : List α} {f : β → α → Script β} {x : β} (h : ∀ x a, (f x a).Steady) :
    (l.foldlM f x).Steady := by
  induction l generalizing x with
  | nil => trivial
  | cons a l ih => exact steady_bind (h x a) fun _ => ih

/-- A loop without a result is one that hands on the empty tuple. -/
theorem forM_eq_foldlM (l : List α) (f : α → Script Unit) :
    l.forM f = l.foldlM (fun _ a => f a) () := by
  induction l with
  | nil => rfl
  | cons a l ih => exact congrArg (f a >>= ·) (funext fun _ => ih)

end Script

/-- How a script ends that has this result. -/
def Ending.ofExcept : Except Halt Outcome → Ending
  | .ok o => .outcome o
  | .error (.error chain) => .error chain
  | .error (.panic message) => .panic message

theorem Script.run_calm {signal : Nat → Bool} (hsignal : ∀ n, signal n = false) {s : Script Outcome}
    (hs : s.Calm) {t : Trace} (ht : t.cancelled = false) :
    (s.run signal t).1 = .ofExcept (s.effect t.examples).1 ∧
      (s.run signal t).2.examples = (s.effect t.examples).2 ∧
      (s.run signal t).2.cancelled = false := by
  induction s generalizing t with
  | done o | fail chain | panic message => exact ⟨rfl, rfl, ht⟩
  | add e next ih | setError text next ih | tell event next ih => exact ih hs ht
  | look next ih => exact ih _ (hs _) ht
  | poll next ih =>
    simp only [run, ht, hsignal, Bool.or_self]
    exact ih false (hs false) rfl
  | cancel next ih => exact hs.elim

end CaptureAudit
