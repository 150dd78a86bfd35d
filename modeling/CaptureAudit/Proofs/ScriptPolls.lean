import CaptureAudit.Proofs.PoolOrder
import CaptureAudit.Proofs.ScriptTelling

/-! Scripts that are polled while the analysis may be cancelled. Until a poll finds it cancelled a
run is the undisturbed one, and from there on it offers nothing more. -/

namespace CaptureAudit

/-- A trace to which texts, events and polls were added. -/
def Trace.after (t : Trace) (texts : List String) (events : List Event) (polls : Nat) : Trace :=
  { t with
    examples := texts.foldl .add t.examples
    events := t.events ++ events
    polls := t.polls + polls }

namespace Script

variable {α β : Type} {signal : Nat → Bool}

def play (signal : Nat → Bool) : Script α → Trace → Except Halt α × Trace
  | .done a, t => (.ok a, t)
  | .fail chain, t => (.error (.error chain), t)
  | .panic message, t => (.error (.panic message), t)
  | .add text next, t => next.play signal { t with examples := t.examples.add text }
  | .setError text next, t => next.play signal { t with examples := t.examples.setError text }
  | .tell event next, t => next.play signal { t with events := t.events ++ [event] }
  | .look next, t => (next t.examples).play signal t
  | .poll next, t =>
    (next (t.cancelled || signal t.polls)).play signal { t with polls := t.polls + 1 }
  | .cancel next, t => next.play signal { t with cancelled := true }

/-- The texts that a run offers as examples, in their order. -/
def offers (signal : Nat → Bool) : Script α → Trace → List String
  | .done _, _ | .fail _, _ | .panic _, _ => []
  | .add text next, t => text :: next.offers signal { t with examples := t.examples.add text }
  | .setError text next, t => next.offers signal { t with examples := t.examples.setError text }
  | .tell event next, t => next.offers signal { t with events := t.events ++ [event] }
  | .look next, t => (next t.examples).offers signal t
  | .poll next, t =>
    (next (t.cancelled || signal t.polls)).offers signal { t with polls := t.polls + 1 }
  | .cancel next, t => next.offers signal { t with cancelled := true }

theorem run_eq_play (s : Script Outcome) (t : Trace) :
    s.run signal t = (.ofExcept (s.play signal t).1, (s.play signal t).2) := by
  induction s generalizing t with
  | done o | fail chain | panic message => rfl
  | add text next ih | setError text next ih | tell event next ih | cancel next ih => exact ih _
  | look next ih => exact ih t.examples t
  | poll next ih => exact ih (t.cancelled || signal t.polls) _

theorem play_bind (s : Script α) (f : α → Script β) (t : Trace) :
    (s >>= f).play signal t =
      match s.play signal t with
      | (.ok a, t') => (f a).play signal t'
      | (.error halt, t') => (.error halt, t') := by
  change (s.bind f).play signal t = _
  induction s generalizing t with
  | done a | fail chain | panic message => rfl
  | add text next ih | setError text next ih | tell event next ih | cancel next ih => exact ih _
  | look next ih => exact ih t.examples t
  | poll next ih => exact ih (t.cancelled || signal t.polls) _

theorem polls_le_polls_run (signal : Nat → Bool) (s : Script Outcome) (t : Trace) :
    t.polls ≤ (s.run signal t).2.polls := by
  induction s generalizing t with
  | done o | fail chain | panic message => exact Nat.le_refl _
  | add text next ih => exact ih { t with examples := t.examples.add text }
  | setError text next ih => exact ih { t with examples := t.examples.setError text }
  | tell event next ih => exact ih { t with events := t.events ++ [event] }
  | cancel next ih => exact ih { t with cancelled := true }
  | look next ih => exact ih t.examples t
  | poll next ih =>
    have hnext := ih (t.cancelled || signal t.polls) { t with polls := t.polls + 1 }
    exact Nat.le_trans (Nat.le_succ _) hnext

/-- A signal that comes only after the polls of the undisturbed run is not seen. -/
theorem run_eq_of_unseen (s : Script Outcome) (t : Trace)
    (h : ∀ n, t.polls ≤ n → n < (s.run quiet t).2.polls → signal n = false) :
    s.run signal t = s.run quiet t := by
  induction s generalizing t with
  | done o | fail chain | panic message => rfl
  | add text next ih | setError text next ih | tell event next ih | cancel next ih => exact ih _ h
  | look next ih => exact ih t.examples t h
  | poll next ih =>
    have hpolls := polls_le_polls_run quiet (next (t.cancelled || quiet t.polls))
      { t with polls := t.polls + 1 }
    have hsignal : signal t.polls = quiet t.polls := h t.polls (Nat.le_refl _) hpolls
    rw [run, run, hsignal]
    exact ih _ _ fun n hn hlt => h n (Nat.le_of_succ_le hn) hlt

theorem stored_run (s : Script Outcome) {t : Trace}
    (ht : t.examples.stored.length ≤ t.examples.limit.toNat) :
    (s.run signal t).2.examples.stored =
      (t.examples.stored ++ s.offers signal t).take t.examples.limit.toNat := by
  induction s generalizing t with
  | done o | fail chain | panic message =>
    rw [offers, List.append_nil]
    exact (List.take_of_length_le ht).symm
  | add text next ih =>
    rw [run, offers]
    by_cases hroom : t.examples.stored.length < t.examples.limit.toNat
    · have hstored : (t.examples.add text).stored = t.examples.stored ++ [text] := if_pos hroom
      have hlength : (t.examples.add text).stored.length ≤ t.examples.limit.toNat := by
        rw [hstored, List.length_append, List.length_singleton]
        omega
      have hnext := ih (t := { t with examples := t.examples.add text }) hlength
      rw [hstored, List.append_assoc] at hnext
      exact hnext
    · have hstored : (t.examples.add text).stored = t.examples.stored := if_neg hroom
      have hfull : t.examples.limit.toNat ≤ t.examples.stored.length := Nat.le_of_not_lt hroom
      have hnext := ih (t := { t with examples := t.examples.add text }) (hstored ▸ ht)
      change _ = List.take t.examples.limit.toNat ((t.examples.add text).stored ++ _) at hnext
      rw [hstored] at hnext
      rw [List.take_append_of_le_length hfull] at hnext ⊢
      exact hnext
  | setError text next ih | tell event next ih | cancel next ih => exact ih ht
  | look next ih => exact ih t.examples ht
  | poll next ih => exact ih (t.cancelled || signal t.polls) ht

/-- The script neither polls nor cancels the analysis. -/
def Plain : Script α → Prop
  | .done _ | .fail _ | .panic _ => True
  | .add _ next | .setError _ next | .tell _ next => next.Plain
  | .look next => ∀ examples, (next examples).Plain
  | .poll _ | .cancel _ => False

/-- The script never cancels the analysis and ends at the first poll that finds it cancelled. -/
def Yields : Script α → Prop
  | .done _ | .fail _ | .panic _ => True
  | .add _ next | .setError _ next | .tell _ next => next.Yields
  | .look next => ∀ examples, (next examples).Yields
  | .poll next => next true = .fail [cancelledError] ∧ (next false).Yields
  | .cancel _ => False

theorem plain_bind {s : Script α} {f : α → Script β} (hs : s.Plain) (hf : ∀ a, (f a).Plain) :
    (s >>= f).Plain := by
  change (s.bind f).Plain
  induction s with
  | done a => exact hf a
  | fail chain | panic message => trivial
  | add text next ih | setError text next ih | tell event next ih => exact ih hs
  | look next ih => exact fun e => ih e (hs e)
  | poll next ih | cancel next ih => exact hs.elim

theorem plain_pure (a : α) : (pure a : Script α).Plain := trivial

theorem plain_note (event : Event) : (note event).Plain := trivial

theorem plain_record (text : String) : (record text).Plain := trivial

theorem plain_forM {l : List α} {f : α → Script Unit} (h : ∀ a, (f a).Plain) :
    (l.forM f).Plain := by
  induction l with
  | nil => trivial
  | cons a l ih => exact plain_bind (h a) fun _ => ih

theorem Plain.yields {s : Script α} (h : s.Plain) : s.Yields := by
  induction s with
  | done a | fail chain | panic message => trivial
  | add text next ih | setError text next ih | tell event next ih => exact ih h
  | look next ih => exact fun e => ih e (h e)
  | poll next ih | cancel next ih => exact h.elim

theorem Plain.play_eq {s : Script α} (h : s.Plain) (t : Trace) :
    s.play signal t = ((s.effect t.examples).1,
      { t with examples := (s.effect t.examples).2, events := t.events ++ s.told t.examples }) := by
  induction s generalizing t with
  | done a | fail chain | panic message =>
    simp only [told, List.append_nil]
    rfl
  | add text next ih | setError text next ih => exact ih h _
  | tell event next ih =>
    have hnext := ih h { t with events := t.events ++ [event] }
    rw [List.append_assoc] at hnext
    exact hnext
  | look next ih => exact ih t.examples (h t.examples) t
  | poll next ih | cancel next ih => exact h.elim

theorem yields_bind {s : Script α} {f : α → Script β} (hs : s.Yields) (hf : ∀ a, (f a).Yields) :
    (s >>= f).Yields := by
  change (s.bind f).Yields
  induction s with
  | done a => exact hf a
  | fail chain | panic message => trivial
  | add text next ih | setError text next ih | tell event next ih => exact ih hs
  | look next ih => exact fun e => ih e (hs e)
  | poll next ih => exact ⟨congrArg (Script.bind · f) hs.1, ih false hs.2⟩
  | cancel next ih => exact hs.elim

theorem yields_checkpoint : checkpoint.Yields := ⟨rfl, trivial⟩

theorem yields_foldlM {l : List α} {f : β → α → Script β} (h : ∀ x a, (f x a).Yields) (x : β) :
    (l.foldlM f x).Yields := by
  induction l generalizing x with
  | nil => trivial
  | cons a l ih => exact yields_bind (h x a) ih

/-- Whenever it is cancelled, a run offers the first of the texts that the undisturbed one does. -/
theorem Yields.isPrefix_offers {s : Script α} (hs : s.Yields) (signal : Nat → Bool) {t : Trace}
    (ht : t.cancelled = false) : s.offers signal t <+: s.offers quiet t := by
  induction s generalizing t with
  | done a | fail chain | panic message => exact List.prefix_refl _
  | add text next ih => exact (List.prefix_cons_inj text).mpr (ih hs ht)
  | setError text next ih | tell event next ih => exact ih hs ht
  | look next ih => exact ih t.examples (hs t.examples) ht
  | poll next ih =>
    obtain ⟨hcancelled, hnext⟩ := hs
    rw [offers, offers, ht, Bool.false_or, Bool.false_or]
    cases hsignal : signal t.polls with
    | true =>
      rw [hcancelled]
      exact List.nil_prefix
    | false => exact ih false hnext rfl
  | cancel next ih => exact hs.elim

/-- From this trace on the script adds the texts, the events and the polls to it and has the result.
-/
def Plays (signal : Nat → Bool) (s : Script α) (t : Trace) (texts : List String)
    (events : List Event) (polls : Nat) (r : Except Halt α) : Prop :=
  s.play signal t = (r, t.after texts events polls)

/-- The next polls find nothing cancelled. -/
structure Unseen (signal : Nat → Bool) (t : Trace) (polls : Nat) : Prop where
  calm : t.cancelled = false
  silent : ∀ i < polls, signal (t.polls + i) = false

variable {s : Script α} {f : α → Script β} {t : Trace} {texts more : List String}
  {events next : List Event} {n m : Nat} {a : α} {halt : Halt}

theorem Unseen.quiet (ht : t.cancelled = false) (n : Nat) : Unseen quiet t n := ⟨ht, fun _ _ => rfl⟩

theorem Unseen.mono (h : Unseen signal t n) (hle : m ≤ n) : Unseen signal t m :=
  ⟨h.calm, fun i hi => h.silent i (Nat.lt_of_lt_of_le hi hle)⟩

theorem Unseen.after (h : Unseen signal t (n + m)) (texts : List String) (events : List Event) :
    Unseen signal (t.after texts events n) m :=
  ⟨h.calm, fun i hi => Nat.add_assoc t.polls n i ▸ h.silent (n + i) (Nat.add_lt_add_left hi n)⟩

theorem Trace.after_after (t : Trace) (texts more : List String) (events next : List Event)
    (n m : Nat) : (t.after texts events n).after more next m =
      t.after (texts ++ more) (events ++ next) (n + m) := by
  simp only [Trace.after, List.foldl_append, List.append_assoc, Nat.add_assoc]

namespace Plays

theorem pure (a : α) (t : Trace) : (Pure.pure a : Script α).Plays signal t [] [] 0 (.ok a) := by
  rw [Plays, Trace.after, List.append_nil]
  rfl

theorem bind {r : Except Halt β} (hs : s.Plays signal t texts events n (.ok a))
    (hf : (f a).Plays signal (t.after texts events n) more next m r) :
    (s >>= f).Plays signal t (texts ++ more) (events ++ next) (n + m) r := by
  rw [Plays, play_bind, hs, ← Trace.after_after]
  exact hf

theorem bind_of_halt (hs : s.Plays signal t texts events n (.error halt)) :
    (s >>= f).Plays signal t texts events n (.error halt) := by
  rw [Plays, play_bind, hs]

theorem of_plain {r : Except Halt α} (hs : s.Plain) (h : s.Performs t.examples texts events r) :
    s.Plays signal t texts events 0 r := by
  rw [Plays, hs.play_eq, h.effect, h.told]
  rfl

theorem polls_play {r : Except Halt α} (hs : s.Plays signal t texts events n r) :
    (s.play signal t).2.polls = t.polls + n := by
  rw [hs]
  rfl

theorem polls_play_bind (hs : s.Plays signal t texts events n (.ok a)) (hf : (f a).Plain) :
    ((s >>= f).play signal t).2.polls = t.polls + n := by
  rw [play_bind, hs]
  change ((f a).play signal (t.after texts events n)).2.polls = _
  rw [hf.play_eq]
  rfl

theorem checkpoint_unseen (h : Unseen signal t 1) :
    checkpoint.Plays signal t [] [] 1 (.ok ()) := by
  have hsignal : signal t.polls = false := h.silent 0 Nat.one_pos
  rw [Plays, checkpoint, play, h.calm, hsignal, Trace.after, List.append_nil, h.calm]
  rfl

theorem checkpoint_seen (h : signal t.polls = true) :
    checkpoint.Plays signal t [] [] 1 (.error (.error [cancelledError])) := by
  rw [Plays, checkpoint, play, h, Bool.or_true, Trace.after, List.append_nil]
  rfl

section

variable {l before rest : List α} {f : β → α → Script β} {step : β → α → β}
  {texts : α → List String} {events : α → List Event} {polls : α → Nat}

theorem foldlM
    (h : ∀ x, ∀ a ∈ l, ∀ t, Unseen signal t (polls a) →
      (f x a).Plays signal t (texts a) (events a) (polls a) (.ok (step x a)))
    (ht : Unseen signal t (l.map polls).sum) (x : β) :
    (l.foldlM f x).Plays signal t (l.flatMap texts) (l.flatMap events) (l.map polls).sum
      (.ok (l.foldl step x)) := by
  induction l generalizing x t with
  | nil => exact pure x t
  | cons a l ih =>
    rw [List.map_cons, List.sum_cons] at ht ⊢
    have hfirst := h x a List.mem_cons_self t (ht.mono (Nat.le_add_right _ _))
    have hrest := ih (fun x b hb => h x b (List.mem_cons_of_mem a hb))
      (ht.after (texts a) (events a))
      (step x a)
    exact hfirst.bind hrest

theorem foldlM_of_halt
    (h : ∀ x, ∀ b ∈ before, ∀ t, Unseen signal t (polls b) →
      (f x b).Plays signal t (texts b) (events b) (polls b) (.ok (step x b)))
    (ht : Unseen signal t (before.map polls).sum) {last : List Event}
    (ha : ∀ x t', t'.cancelled = false → t'.polls = t.polls + (before.map polls).sum →
      (f x a).Plays signal t' [] last n (.error halt)) (x : β) :
    ((before ++ a :: rest).foldlM f x).Plays signal t (before.flatMap texts)
      (before.flatMap events ++ last) ((before.map polls).sum + n) (.error halt) := by
  induction before generalizing x t with
  | nil =>
    have hlast := ha x t ht.calm rfl
    rw [List.map_nil, List.sum_nil, Nat.zero_add]
    exact hlast.bind_of_halt
  | cons b before ih =>
    rw [List.map_cons, List.sum_cons] at ht ha ⊢
    have hfirst := h x b List.mem_cons_self t (ht.mono (Nat.le_add_right _ _))
    have hrest := ih (fun x c hc => h x c (List.mem_cons_of_mem b hc))
      (ht.after (texts b) (events b))
      (fun x t' hcalm hpolls => ha x t' hcalm (hpolls.trans (Nat.add_assoc _ _ _))) (step x b)
    rw [List.flatMap_cons, List.flatMap_cons, List.append_assoc, Nat.add_assoc]
    exact hfirst.bind hrest

end

end Plays

/-- The script tells of these events, then polls once, and only then does what it is for. -/
def PollsAfter (lead : List Event) (s : Script α) : Prop :=
  ∃ rest : Script α, rest.Plain ∧
    s = lead.forM note >>= fun _ => checkpoint >>= fun _ => rest

namespace PollsAfter

variable {lead : List Event}

theorem yields (h : PollsAfter lead s) : s.Yields := by
  obtain ⟨rest, hrest, rfl⟩ := h
  refine yields_bind (plain_forM plain_note).yields fun _ => ?_
  exact yields_bind yields_checkpoint fun _ => hrest.yields

theorem plays {r : Except Halt α} (h : PollsAfter lead s)
    (hs : s.Performs t.examples texts events r) (ht : Unseen signal t 1) :
    s.Plays signal t texts events 1 r := by
  obtain ⟨rest, hplain, rfl⟩ := h
  have hlead := Performs.notes lead t.examples
  have heffect : (lead.forM note >>= fun _ => checkpoint >>= fun _ => rest).effect t.examples =
      rest.effect t.examples := by
    rw [effect_bind_apply, hlead.effect]
    rfl
  have htold : (lead.forM note >>= fun _ => checkpoint >>= fun _ => rest).told t.examples =
      lead ++ rest.told t.examples := by
    rw [told_bind, hlead.effect, hlead.told]
    rfl
  have hrest : rest.Performs t.examples texts (rest.told t.examples) r :=
    ⟨heffect.symm.trans hs.effect, rfl⟩
  have hpoll : checkpoint.Plays signal (t.after [] lead 0) [] [] 1 (.ok ()) :=
    .checkpoint_unseen (Unseen.after (n := 0) (by simpa using ht) [] lead)
  have hnotes : (lead.forM note).Plays signal t [] lead 0 (.ok ()) :=
    .of_plain (plain_forM plain_note) hlead
  have hall := hnotes.bind (f := fun _ => checkpoint >>= fun _ => rest)
    (hpoll.bind (.of_plain hplain hrest))
  rw [← hs.told, htold]
  exact hall

theorem halts (h : PollsAfter lead s) (hsignal : signal t.polls = true) :
    s.Plays signal t [] lead 1 (.error (.error [cancelledError])) := by
  obtain ⟨rest, -, rfl⟩ := h
  have hnotes : (lead.forM note).Plays signal t [] lead 0 (.ok ()) :=
    .of_plain (plain_forM plain_note) (.notes lead t.examples)
  have hpoll : checkpoint.Plays signal (t.after [] lead 0) [] [] 1
      (.error (.error [cancelledError])) := .checkpoint_seen hsignal
  have hall := hnotes.bind (f := fun _ => checkpoint >>= fun _ => rest) hpoll.bind_of_halt
  simpa only [List.append_nil, Nat.zero_add] using hall

section

variable {l before rest : List α} {f : β → α → Script β} {step : β → α → β}
  {texts : α → List String} {events lead : α → List Event}

theorem foldlM (hpolls : ∀ x a, PollsAfter (lead a) (f x a))
    (h : ∀ x, ∀ a ∈ l, ∀ e, (f x a).Performs e (texts a) (events a) (.ok (step x a)))
    (ht : Unseen signal t l.length) (x : β) :
    (l.foldlM f x).Plays signal t (l.flatMap texts) (l.flatMap events) l.length
      (.ok (l.foldl step x)) := by
  have hlength : (l.map fun _ => 1).sum = l.length := by simp
  have hsteps : ∀ x, ∀ a ∈ l, ∀ t, Unseen signal t 1 →
      (f x a).Plays signal t (texts a) (events a) 1 (.ok (step x a)) :=
    fun x a ha t ht => (hpolls x a).plays (h x a ha t.examples) ht
  rw [← hlength] at ht ⊢
  exact .foldlM hsteps ht x

theorem foldlM_of_halt (hpolls : ∀ x a, PollsAfter (lead a) (f x a))
    (h : ∀ x, ∀ b ∈ before, ∀ e, (f x b).Performs e (texts b) (events b) (.ok (step x b)))
    (ht : Unseen signal t before.length) {last : List Event}
    (ha : ∀ x t', t'.cancelled = false → t'.polls = t.polls + before.length →
      (f x a).Plays signal t' [] last 1 (.error halt)) (x : β) :
    ((before ++ a :: rest).foldlM f x).Plays signal t (before.flatMap texts)
      (before.flatMap events ++ last) (before.length + 1) (.error halt) := by
  have hlength : (before.map fun _ => 1).sum = before.length := by simp
  have hsteps : ∀ x, ∀ b ∈ before, ∀ t, Unseen signal t 1 →
      (f x b).Plays signal t (texts b) (events b) 1 (.ok (step x b)) :=
    fun x b hb t ht => (hpolls x b).plays (h x b hb t.examples) ht
  rw [← hlength] at ht ha ⊢
  exact .foldlM_of_halt hsteps ht ha x

end

end PollsAfter

end Script

end CaptureAudit
