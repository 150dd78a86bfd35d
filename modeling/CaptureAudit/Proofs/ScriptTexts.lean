import CaptureAudit.Proofs.CodeLookup

/-! Texts that a run keeps of its checks. What every text has that the scripts record or fail with,
the examples and errors of the report have, however the run is scheduled or cancelled. -/

namespace CaptureAudit

/-- The examples and the error are such texts. -/
structure Examples.Holds (P : String → Prop) (e : Examples) : Prop where
  stored : ∀ text ∈ e.stored, P text
  error : ∀ text ∈ e.error, P text

namespace Examples.Holds

variable {P : String → Prop} {e : Examples} {text : String}

theorem empty (limit : UInt64) : (Examples.empty limit).Holds P := ⟨by simp [Examples.empty],
  by simp [Examples.empty]⟩

theorem add (h : e.Holds P) (ht : P text) : (e.add text).Holds P := by
  refine ⟨fun other hother => ?_, h.error⟩
  simp only [Examples.add] at hother
  split at hother
  · rcases List.mem_append.mp hother with hold | hnew
    · exact h.stored other hold
    · exact List.mem_singleton.mp hnew ▸ ht
  · exact h.stored other hother

theorem setError (h : e.Holds P) (ht : P text) : (e.setError text).Holds P :=
  ⟨h.stored, fun _ hother => Option.some.inj hother ▸ ht⟩

end Examples.Holds

namespace Script

variable {α β : Type} {P : String → Prop} {Q : α → Prop} {R : β → Prop}

/-- All that the script records or fails with is such a text, and the value that it ends with, if it
does, is such a value. -/
def Says (P : String → Prop) (Q : α → Prop) : Script α → Prop
  | .done a => Q a
  | .fail chain => P (String.intercalate ": " chain)
  | .panic message => P s!"check panicked: {panicText message}"
  | .add text next | .setError text next => P text ∧ next.Says P Q
  | .tell _ next | .cancel next => next.Says P Q
  | .look next => ∀ examples, (next examples).Says P Q
  | .poll next => ∀ cancelled, (next cancelled).Says P Q

theorem says_bind {s : Script α} {f : α → Script β} (hs : s.Says P Q)
    (hf : ∀ a, Q a → (f a).Says P R) : (s >>= f).Says P R := by
  change (s.bind f).Says P R
  induction s with
  | done a => exact hf a hs
  | fail chain | panic message => exact hs
  | add text next ih | setError text next ih => exact ⟨hs.1, ih hs.2⟩
  | tell event next ih | cancel next ih => exact ih hs
  | look next ih => exact fun examples => ih examples (hs examples)
  | poll next ih => exact fun cancelled => ih cancelled (hs cancelled)

theorem says_pure {a : α} (h : Q a) : (pure a : Script α).Says P Q := h

theorem says_note (event : Event) : (note event).Says P fun _ => True := trivial

theorem says_record {text : String} (h : P text) : (record text).Says P fun _ => True :=
  ⟨h, trivial⟩

theorem says_checkpoint (h : P cancelledError) : checkpoint.Says P fun _ => True := by
  intro cancelled
  cases cancelled with
  | true => simpa [Says] using h
  | false => trivial

theorem says_evidence : evidence.Says P fun _ => True := fun _ => trivial

theorem says_forM {l : List α} {f : α → Script Unit}
    (h : ∀ a ∈ l, (f a).Says P fun _ => True) : (l.forM f).Says P fun _ => True := by
  induction l with
  | nil => trivial
  | cons a l ih =>
    exact says_bind (h a List.mem_cons_self) fun _ _ =>
      ih fun b hb => h b (List.mem_cons_of_mem a hb)

theorem says_foldlM {l : List α} {f : β → α → Script β} {x : β} (hx : R x)
    (h : ∀ x, ∀ a ∈ l, R x → (f x a).Says P R) : (l.foldlM f x).Says P R := by
  induction l generalizing x with
  | nil => exact hx
  | cons a l ih =>
    exact says_bind (h x a List.mem_cons_self hx) fun y hy =>
      ih hy fun z b hb => h z b (List.mem_cons_of_mem a hb)

theorem Says.run {s : Script Outcome} {Q : Outcome → Prop} (hs : s.Says P Q) (code : String)
    (signal : Nat → Bool) {t : Trace} (ht : t.examples.Holds P) :
    (conclude code (s.run signal t)).2.examples.Holds P := by
  induction s generalizing t with
  | done o => exact ht
  | fail chain => exact ht.setError hs
  | panic message => exact ht.setError hs
  | add text next ih => exact ih hs.2 (ht.add hs.1)
  | setError text next ih => exact ih hs.2 (ht.setError hs.1)
  | tell event next ih => exact ih hs ht
  | look next ih => exact ih _ (hs _) ht
  | poll next ih => exact ih _ (hs _) ht
  | cancel next ih => exact ih hs ht

end Script

section

variable {P : String → Prop} {archive : Archive} {r : Runner} {c : Check} {checks : List Check}

/-- All that the check records or fails with is such a text. -/
def Check.Says (P : String → Prop) (archive : Archive) (c : Check) : Prop :=
  (c.script archive).Says P fun _ => True

theorem Check.Says.runCheck (h : c.Says P archive) (signal : Nat → Bool) (cancelled : Bool)
    (limit : UInt64) : (runCheck signal cancelled limit archive c).2.examples.Holds P :=
  Script.Says.run h c.code signal (.empty limit)

theorem Check.Says.execute (h : c.Says P archive) (hcancelled : P cancelledError) (r : Runner)
    (cancelled : Bool) : (r.execute archive cancelled c).result.examples.Holds P := by
  have hrun := h.runCheck (fun _ => false) cancelled r.limit
  unfold Runner.execute
  split
  · exact .empty r.limit
  split
  · exact (Examples.Holds.empty r.limit).setError hcancelled
  · simp only [Runner.keep]
    split
    · exact hrun.setError hcancelled
    · exact hrun

theorem Course.Gives.holds {result : CheckResult} {course : Course}
    (hgives : course.Gives r archive c result) (h : c.Says P archive)
    (hcancelled : P cancelledError) : result.examples.Holds P := by
  cases course with
  | skipListed =>
    rw [hgives.2]
    exact .empty r.limit
  | unreached =>
    rw [hgives.2]
    exact (Examples.Holds.empty r.limit).setError hcancelled
  | interrupted =>
    obtain ⟨_, first, rfl⟩ := hgives
    exact (h.runCheck (firedFrom first) false r.limit).setError hcancelled
  | undisturbed =>
    rw [hgives.2]
    exact h.runCheck quiet false r.limit

theorem Runner.holds_executeAll (h : ∀ c ∈ checks, c.Says P archive) (hcancelled : P cancelledError)
    (cancelled : Bool) :
    ∀ step ∈ r.executeAll archive cancelled checks, step.result.examples.Holds P := by
  induction checks generalizing cancelled with
  | nil => simp [executeAll]
  | cons c rest ih =>
    rw [executeAll, List.forall_mem_cons]
    exact ⟨(h c List.mem_cons_self).execute hcancelled r cancelled,
      ih (fun d hd => h d (List.mem_cons_of_mem c hd)) _⟩

theorem Runner.Reports.holds {report : Report} (hreport : r.Reports archive checks report)
    (h : ∀ c ∈ checks, c.Says P archive) (hcancelled : P cancelledError) :
    ∀ result ∈ report.results, result.examples.Holds P := by
  intro result hresult
  cases hreport with
  | inOrder time cancelled =>
    obtain ⟨step, hstep, rfl⟩ := List.mem_map.mp hresult
    exact holds_executeAll h hcancelled cancelled step hstep
  | byWorkers time follows complete =>
    obtain ⟨i, hi⟩ := List.getElem?_of_mem hresult
    have hcoursed := (Pool.Traced.follow follows).coursed
    have hlt : i < checks.length := by
      rw [← hcoursed.accounted.length_results complete]
      exact (List.getElem?_eq_some_iff.mp hi).1
    obtain ⟨course, result', _, hresult', hgives⟩ :=
      hcoursed.result_of_complete complete (List.getElem?_eq_getElem hlt)
    obtain rfl : result' = result := Option.some.inj (hresult'.symm.trans hi)
    exact hgives.holds (h _ (List.getElem_mem hlt)) hcancelled

theorem Runner.Reports.exists_ofResults {report : Report}
    (hreport : r.Reports archive checks report) : ∃ time results,
      report = .ofResults time (metadataOf archive).1 r.skip results := by
  cases hreport with
  | inOrder time cancelled => exact ⟨time, _, rfl⟩
  | byWorkers time follows complete => exact ⟨time, _, rfl⟩

end

end CaptureAudit
