import CaptureAudit.Proofs.ScriptTelling
import CaptureAudit.Proofs.SnapshotChecks

/-! Visits whose snapshots are missing, could be read, or could not be read, and what checks of
snapshots have in common on them. -/

namespace CaptureAudit

open Script (Performs)

namespace Visit

/-- A snapshot was captured and could not be read. -/
def isUnreadable (v : Visit) : Bool :=
  match v.snapshot with
  | .ok _ => false
  | .error e => !e.isNoMatches

/-- What an enabled server reports of its JetStream state. -/
def jetStream? (v : Visit) : Option JetStream :=
  match v.snapshot with
  | .ok s => s.data.filter fun data => !data.disabled
  | .error _ => none

/-- The meta group in which an enabled server takes part. -/
def metaGroup? (v : Visit) : Option CaptureAudit.MetaGroup := v.jetStream?.bind (·.metaGroup)

/-- The events of a visit: those of the loading, then a warning when the snapshot is missing and
else what there is to remark on it. -/
def tells (warning : Visit → Event) (remarks : Visit → List Event) (v : Visit) : List Event :=
  v.events ++ if v.isMissing then [warning v] else remarks v

theorem snapshot_cases {v : Visit} (h : v.isUnreadable = false) :
    (∃ s, v.snapshot = .ok s ∧ v.isMissing = false) ∨
      ∃ e, v.snapshot = .error e ∧ e.isNoMatches = true ∧ v.isMissing = true ∧
        v.jetStream? = none := by
  cases hs : v.snapshot with
  | ok s => exact .inl ⟨s, rfl, by simp [isMissing, hs]⟩
  | error e =>
    have hmissing : e.isNoMatches = true := by simpa [isUnreadable, hs] using h
    exact .inr ⟨e, rfl, hmissing, by simp [isMissing, hs, hmissing], by simp [jetStream?, hs]⟩

theorem jetStream?_cases {v : Visit} {s : Snapshot} (hs : v.snapshot = .ok s) :
    (s.data = none ∧ v.jetStream? = none) ∨
      (∃ data, s.data = some data ∧ data.disabled = true ∧ v.jetStream? = none) ∨
      ∃ data, s.data = some data ∧ data.disabled = false ∧ v.jetStream? = some data := by
  cases hdata : s.data with
  | none => exact .inl ⟨rfl, by simp [jetStream?, hs, hdata]⟩
  | some data =>
    cases hdisabled : data.disabled with
    | true => exact .inr (.inl ⟨data, rfl, hdisabled, by simp [jetStream?, hs, hdata, hdisabled]⟩)
    | false => exact .inr (.inr ⟨data, rfl, hdisabled, by simp [jetStream?, hs, hdata, hdisabled]⟩)

theorem jetStream?_eq_some_iff {v : Visit} {data : JetStream} : v.jetStream? = some data ↔
    ∃ s, v.snapshot = .ok s ∧ s.data = some data ∧ data.disabled = false := by
  cases hs : v.snapshot with
  | error e => simp [jetStream?, hs]
  | ok s => simp [jetStream?, hs, Option.filter_eq_some_iff]

theorem metaGroup?_eq_some_iff {v : Visit} {group : CaptureAudit.MetaGroup} :
    v.metaGroup? = some group ↔ ∃ s data, v.snapshot = .ok s ∧ s.data = some data ∧
      data.disabled = false ∧ data.metaGroup = some group := by
  rw [metaGroup?, Option.bind_eq_some_iff]
  constructor
  · rintro ⟨data, hjet, hgroup⟩
    obtain ⟨s, hs, hdata, hdisabled⟩ := jetStream?_eq_some_iff.mp hjet
    exact ⟨s, data, hs, hdata, hdisabled, hgroup⟩
  · rintro ⟨s, data, hs, hdata, hdisabled, hgroup⟩
    exact ⟨data, jetStream?_eq_some_iff.mpr ⟨s, hs, hdata, hdisabled⟩, hgroup⟩

end Visit

section

variable {α : Type} {s : Script α} {v : Visit} {e : Examples} {texts : List String}
  {events : List Event} {r : Except Halt α}

theorem performs_notes_checkpoint (h : s.Performs e texts events r) :
    (v.events.forM Script.note >>= fun _ => Script.checkpoint >>= fun _ => s).Performs e texts
      (v.events ++ events) r :=
  (Performs.notes v.events e).bind ((Performs.checkpoint e).bind h)

theorem performs_checkpoint_notes (h : s.Performs e texts events r) :
    (Script.checkpoint >>= fun _ => v.events.forM Script.note >>= fun _ => s).Performs e texts
      (v.events ++ events) r :=
  (Performs.checkpoint e).bind ((Performs.notes v.events e).bind h)

end

end CaptureAudit
