import CaptureAudit.Proofs.ScriptEffect

/-! What a script that nobody cancels records and tells of. A loop records and tells of what its
steps do, in their order, up to the first step that stops. -/

namespace CaptureAudit

namespace Script

variable {α β : Type}

/-- The events that a script tells of, from the evidence recorded before it. Polls find nothing
cancelled. -/
def told : Script α → Examples → List Event
  | .done _, _ | .fail _, _ | .panic _, _ => []
  | .add e next, examples => next.told (examples.add e)
  | .setError text next, examples => next.told (examples.setError text)
  | .tell event next, examples => event :: next.told examples
  | .look next, examples => (next examples).told examples
  | .poll next, examples => (next false).told examples
  | .cancel next, examples => next.told examples

theorem run_told {signal : Nat → Bool} (hsignal : ∀ n, signal n = false) {s : Script Outcome}
    (hs : s.Calm) {t : Trace} (ht : t.cancelled = false) :
    (s.run signal t).2.events = t.events ++ s.told t.examples := by
  induction s generalizing t with
  | done o | fail chain | panic message => exact (List.append_nil _).symm
  | add e next ih | setError text next ih => exact ih hs ht
  | tell event next ih =>
    have hnext : (next.run signal { t with events := t.events ++ [event] }).2.events =
        t.events ++ [event] ++ next.told t.examples := ih hs ht
    rw [List.append_assoc] at hnext
    exact hnext
  | look next ih => exact ih _ (hs _) ht
  | poll next ih =>
    simp only [run, ht, hsignal, Bool.or_self]
    exact ih false (hs false) rfl
  | cancel next ih => exact hs.elim

theorem effect_bind_apply (s : Script α) (f : α → Script β) (e : Examples) :
    (s >>= f).effect e =
      match s.effect e with
      | (.ok a, e') => (f a).effect e'
      | (.error halt, e') => (.error halt, e') := by
  rw [effect_bind]
  generalize s.effect = x
  change ExceptT.bindCont (fun a => (f a).effect) (x e).1 (x e).2 = _
  rcases x e with ⟨_ | _, e'⟩ <;> rfl

theorem told_bind (s : Script α) (f : α → Script β) (e : Examples) :
    (s >>= f).told e = s.told e ++
      match s.effect e with
      | (.ok a, e') => (f a).told e'
      | (.error _, _) => [] := by
  change (s.bind f).told e = _
  induction s generalizing e with
  | done a | fail chain | panic message => rfl
  | add text next ih => exact ih (e.add text)
  | setError text next ih => exact ih (e.setError text)
  | tell event next ih => exact congrArg (event :: ·) (ih e)
  | look next ih => exact ih e e
  | poll next ih => exact ih false e
  | cancel next ih => exact ih e

/-- Started on the evidence `e` the script records the texts, tells of the events and has the
result. -/
structure Performs (s : Script α) (e : Examples) (texts : List String) (events : List Event)
    (r : Except Halt α) : Prop where
  effect : s.effect e = (r, texts.foldl Examples.add e)
  told : s.told e = events

namespace Performs

variable {s : Script α} {f : α → Script β} {e : Examples} {texts more : List String}
  {events next : List Event} {a : α} {halt : Halt}

theorem pure (a : α) (e : Examples) : (Pure.pure a : Script α).Performs e [] [] (.ok a) :=
  ⟨rfl, rfl⟩

theorem fail (chain : List String) (e : Examples) :
    (Script.fail chain : Script α).Performs e [] [] (.error (.error chain)) := ⟨rfl, rfl⟩

theorem note (event : Event) (e : Examples) : (Script.note event).Performs e [] [event] (.ok ()) :=
  ⟨rfl, rfl⟩

theorem record (text : String) (e : Examples) :
    (Script.record text).Performs e [text] [] (.ok ()) :=
  ⟨rfl, rfl⟩

theorem checkpoint (e : Examples) : Script.checkpoint.Performs e [] [] (.ok ()) := ⟨rfl, rfl⟩

theorem evidence (e : Examples) : Script.evidence.Performs e [] [] (.ok e) := ⟨rfl, rfl⟩

theorem bind {r : Except Halt β} (hs : s.Performs e texts events (.ok a))
    (hf : (f a).Performs (texts.foldl Examples.add e) more next r) :
    (s >>= f).Performs e (texts ++ more) (events ++ next) r where
  effect := by
    rw [effect_bind_apply, hs.effect, List.foldl_append]
    exact hf.effect
  told := by
    rw [told_bind, hs.effect, hs.told]
    exact congrArg (events ++ ·) hf.told

theorem bind_of_halt (hs : s.Performs e texts events (.error halt)) :
    (s >>= f).Performs e texts events (.error halt) where
  effect := by rw [effect_bind_apply, hs.effect]
  told := by rw [told_bind, hs.effect, hs.told, List.append_nil]

theorem notes (events : List Event) (e : Examples) :
    (events.forM Script.note).Performs e [] events (.ok ()) := by
  induction events with
  | nil => exact pure () e
  | cons event events ih => exact (note event e).bind ih

theorem records (l : List α) (text : α → String) (e : Examples) :
    (l.forM fun a => Script.record (text a)).Performs e (l.map text) [] (.ok ()) := by
  induction l generalizing e with
  | nil => exact pure () e
  | cons a l ih => exact (record (text a) e).bind (ih _)

section

variable {l before after : List α} {step : β → α → β} {f : β → α → Script β}
  {texts : α → List String} {events : α → List Event}

theorem foldlM (h : ∀ x, ∀ a ∈ l, ∀ e, (f x a).Performs e (texts a) (events a) (.ok (step x a)))
    (x : β) (e : Examples) :
    (l.foldlM f x).Performs e (l.flatMap texts) (l.flatMap events) (.ok (l.foldl step x)) := by
  induction l generalizing x e with
  | nil => exact pure x e
  | cons a l ih =>
    have hrest := ih fun x b hb => h x b (by simp [hb])
    exact (h x a (by simp) e).bind (hrest _ _)

/-- A loop that stops has done what the items before the one at which it stops ask for. -/
theorem foldlM_of_halt
    (h : ∀ x, ∀ b ∈ before, ∀ e, (f x b).Performs e (texts b) (events b) (.ok (step x b)))
    {last : List Event} (ha : ∀ x e, (f x a).Performs e [] last (.error halt)) (x : β)
    (e : Examples) :
    ((before ++ a :: after).foldlM f x).Performs e (before.flatMap texts)
      (before.flatMap events ++ last) (.error halt) := by
  induction before generalizing x e with
  | nil => exact (ha x e).bind_of_halt
  | cons b before ih =>
    have hrest := ih fun x c hc => h x c (by simp [hc])
    rw [List.flatMap_cons, List.flatMap_cons, List.append_assoc]
    exact (h x b (by simp) e).bind (hrest _ _)

end

end Performs

end Script

end CaptureAudit
