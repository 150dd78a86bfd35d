import CaptureAudit.Configuration.Apply
import CaptureAudit.Proofs.Batch
import CaptureAudit.Proofs.Override

/-! Catalogs that calls lead to. Every call keeps the agreement between the parts of a catalog, also
when it is refused halfway, so every catalog there is has it. -/

namespace CaptureAudit

namespace Catalog

inductive Call where
  | register (batch : List Check)
  | set (item text : String)
  | apply (configuration : Configuration)

/-- The catalog after a call. A refused batch or item leaves it as it is; of a configuration the
items before the refused one are set. -/
def after (c : Catalog) : Call → Catalog
  | .register batch => (c.register batch).toOption.getD c
  | .set item text => (c.set item text).toOption.getD c
  | .apply configuration => (configuration.apply c).catalog

/-- The catalog that calls lead to, in their order, from the empty one. -/
def ofCalls (calls : List Call) : Catalog := calls.foldl after empty

variable {c : Catalog}

theorem WellFormed.setAll (h : c.WellFormed) (entries : List (String × String)) :
    (c.setAll entries).catalog.WellFormed := by
  induction entries generalizing c with
  | nil => exact h
  | cons entry rest ih =>
    obtain ⟨item, text⟩ := entry
    unfold Catalog.setAll
    cases hset : c.set item text with
    | error e => exact h
    | ok d => exact ih (h.set hset)

theorem WellFormed.apply (h : c.WellFormed) (configuration : Configuration) :
    (configuration.apply c).catalog.WellFormed := by
  unfold Configuration.apply Configuration.applyTable
  cases Configuration.itemTexts ((configuration.table? Configuration.checksKey).getD []) with
  | error e => exact h
  | ok texts => exact h.setAll texts

theorem WellFormed.toOption_getD (h : c.WellFormed) {ε : Type} {r : Except ε Catalog}
    (hr : ∀ d, r = .ok d → d.WellFormed) : (r.toOption.getD c).WellFormed := by
  cases hcase : r with
  | ok d => exact hr d hcase
  | error e => exact h

theorem WellFormed.after (h : c.WellFormed) (call : Call) : (c.after call).WellFormed := by
  cases call with
  | register batch => exact h.toOption_getD fun d hd => h.register hd
  | set item text => exact h.toOption_getD fun d hd => h.set hd
  | apply configuration => exact h.apply configuration

theorem wellFormed_ofCalls (calls : List Call) : (ofCalls calls).WellFormed := by
  have hall : ∀ c : Catalog, c.WellFormed → (calls.foldl after c).WellFormed := by
    induction calls with
    | nil => exact fun c h => h
    | cons call rest ih => exact fun c h => ih (c.after call) (h.after call)
  exact hall empty .empty

theorem WellFormed.set_unknownItem_iff (h : c.WellFormed) {item text other : String} :
    c.set item text = .error (.unknownItem other) ↔
      other = item ∧ ∀ t ∈ c.tunables, t.item ≠ item := by
  rcases h.set_cases item text with ⟨t, ht, hitem, hset⟩ | ⟨hnot, hset⟩
  · refine iff_of_false ?_ fun hnone => hnone.2 t ht hitem
    rw [hset]
    cases haccept : Tunable.accept t.unit t.key text with
    | ok x => simp [Except.map]
    | error e =>
      have hne := Tunable.accept_ne_unknownItem t.unit t.key text other
      rw [haccept] at hne
      exact fun he => hne (congrArg _ (Except.error.inj he))
  · rw [hset]
    exact ⟨fun he => ⟨by simpa using he.symm, hnot⟩, fun hother => by rw [hother.1]⟩

theorem WellFormed.after_set_cases (h : c.WellFormed) (item text : String) :
    (∃ t ∈ c.tunables, t.item = item ∧ ∃ x, Tunable.accept t.unit t.key text = .ok x ∧
        c.set item text = .ok (c.setOverride item x) ∧
        c.after (.set item text) = c.setOverride item x) ∨
      (∃ e, c.set item text = .error e) ∧ c.after (.set item text) = c := by
  rcases h.set_cases item text with ⟨t, ht, hitem, hset⟩ | ⟨_, hset⟩
  · cases haccept : Tunable.accept t.unit t.key text with
    | ok x =>
      have hok : c.set item text = .ok (c.setOverride item x) := by rw [hset, haccept]; rfl
      exact .inl ⟨t, ht, hitem, x, haccept, hok, by simp [Catalog.after, hok, Except.toOption]⟩
    | error e =>
      have herr : c.set item text = .error e := by rw [hset, haccept]; rfl
      exact .inr ⟨⟨e, herr⟩, by simp [Catalog.after, herr, Except.toOption]⟩
  · exact .inr ⟨⟨_, hset⟩, by simp [Catalog.after, hset, Except.toOption]⟩

/-- However a catalog came about, its parts agree, an item name leads to the one tunable that has
it, and setting the item changes that tunable or nothing. -/
theorem consistent_ofCalls (calls : List Call) :
    let c := ofCalls calls
    c.WellFormed ∧ (c.tunables.map Tunable.item).Nodup ∧
      ∀ item text,
        (∀ other, c.set item text = .error (.unknownItem other) ↔
          other = item ∧ ∀ t ∈ c.tunables, t.item ≠ item) ∧
        (∀ name key, c.items.get? item = some (name, key) →
          ∃ check t, c.find? item = some ⟨name, check, key, t⟩ ∧ t.item = item) ∧
        ((∃ t ∈ c.tunables, t.item = item ∧ ∃ x, Tunable.accept t.unit t.key text = .ok x ∧
            c.set item text = .ok (c.setOverride item x) ∧
            c.after (.set item text) = c.setOverride item x) ∨
          (∃ e, c.set item text = .error e) ∧ c.after (.set item text) = c) := by
  intro c
  have h : c.WellFormed := wellFormed_ofCalls calls
  refine ⟨h, h.nodup_item, fun item text => ⟨fun other => h.set_unknownItem_iff, ?_, ?_⟩⟩
  · intro name key hplace
    obtain ⟨check, t, hcheck, ht, hitem⟩ := h.get?_items_iff.mp hplace
    exact ⟨check, t, by simp [find?, hplace, hcheck, ht], hitem⟩
  · exact h.after_set_cases item text

end Catalog

end CaptureAudit
