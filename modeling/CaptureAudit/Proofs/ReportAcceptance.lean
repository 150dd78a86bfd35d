import CaptureAudit.Proofs.Tally

/-! Which saved reports are accepted: those of the right type whose labels are those of their
outcomes and whose tally counts their results. The first of these that fails gives the error. -/

namespace CaptureAudit

theorem Tally.entries_eq_map_keys (t : Tally) : t.entries = t.keys.map fun o => (o, t.count o) := by
  have hcount : ∀ e ∈ t.entries, e = (e.1, t.count e.1) := by
    intro e he
    have hget : t.get? e.1 = some e.2 := SortedMap.get?_eq_some_iff.mpr he
    rw [Tally.count, hget]
    rfl
  have hentries : t.entries.map id = t.entries.map fun e => (e.1, t.count e.1) :=
    List.map_congr_left hcount
  rwa [List.map_id, ← Function.comp_def (fun o => (o, t.count o)) Prod.fst, ← List.map_map]
    at hentries

namespace Report

variable {r : Report} {s : String}

/-- The label of every result is that of its outcome. -/
def LabelsAgree (r : Report) : Prop := ∀ c ∈ r.results, c.label = c.outcome.label

/-- The tally has the four outcomes, each with the number of results that have it. -/
def TallyAgrees (r : Report) : Prop :=
  r.outcomes.entries = Outcome.all.map fun o => (o, r.results.countP fun c => c.outcome = o)

theorem entries_tally (results : List CheckResult) :
    (tally results).entries =
      Outcome.all.map fun o => (o, results.countP fun c => c.outcome = o) := by
  have hcount : ∀ o, (tally results).count o = results.countP fun c => c.outcome = o := by
    intro o
    rw [tally, Tally.count_ofOutcomes, List.count, List.countP_map]
    rfl
  rw [Tally.entries_eq_map_keys, show (tally results).keys = Outcome.all from
    Tally.keys_ofOutcomes _]
  exact List.map_congr_left fun o _ => by rw [hcount]

theorem tallyAgrees_iff : r.TallyAgrees ↔ r.outcomes = tally r.results := by
  rw [TallyAgrees, ← entries_tally]
  constructor
  · intro h
    exact SortedMap.ext_entries fun e => by rw [h]
  · intro h
    rw [h]

theorem find?_label_eq_none_iff :
    (r.results.find? fun c => c.outcome.label ≠ c.label) = none ↔ r.LabelsAgree := by
  rw [List.find?_eq_none, LabelsAgree]
  refine forall₂_congr fun c _ => ?_
  rw [eq_comm (a := c.label)]
  simp

theorem verify_of_agrees (ht : r.type = formatType) (hl : r.LabelsAgree) (hc : r.TallyAgrees) :
    verify r = .ok r := by
  rw [verify, if_neg (not_not.mpr ht), find?_label_eq_none_iff.mpr hl]
  exact if_neg (not_not.mpr (tallyAgrees_iff.mp hc))

theorem verify_of_type (ht : r.type ≠ formatType) :
    verify r = .error (.unsupportedType r.type) := by
  rw [verify, if_pos ht]

theorem verify_of_label {before after : List CheckResult} {c : CheckResult}
    (ht : r.type = formatType) (hr : r.results = before ++ c :: after)
    (hbefore : ∀ b ∈ before, b.label = b.outcome.label) (hc : c.label ≠ c.outcome.label) :
    verify r = .error (.inconsistentOutcome c.check.code c.outcome c.label) := by
  have hfind : (r.results.find? fun c => c.outcome.label ≠ c.label) = some c := by
    rw [hr, List.find?_eq_some_iff_append]
    refine ⟨by simpa using Ne.symm hc, before, after, rfl, fun b hb => ?_⟩
    simp [hbefore b hb]
  rw [verify, if_neg (not_not.mpr ht), hfind]

theorem verify_of_tally (ht : r.type = formatType) (hl : r.LabelsAgree) (hc : ¬r.TallyAgrees) :
    verify r = .error (.inconsistentTally r.results.length) := by
  rw [verify, if_neg (not_not.mpr ht), find?_label_eq_none_iff.mpr hl]
  exact if_pos (mt tallyAgrees_iff.mpr hc)

theorem verify_eq_ok_iff {a : Report} :
    verify r = .ok a ↔ r = a ∧ r.type = formatType ∧ r.LabelsAgree ∧ r.TallyAgrees := by
  constructor
  · intro h
    -- What disagrees first is what is refused, so the cases follow the order of the checks.
    by_cases ht : r.type = formatType
    · by_cases hl : r.LabelsAgree
      · by_cases hc : r.TallyAgrees
        · rw [verify_of_agrees ht hl hc] at h
          exact ⟨Except.ok.inj h, ht, hl, hc⟩
        · rw [verify_of_tally ht hl hc] at h
          exact absurd h (by simp)
      · have hfind := mt find?_label_eq_none_iff.mp hl
        obtain ⟨c, hc⟩ := Option.ne_none_iff_exists'.mp hfind
        rw [verify, if_neg (not_not.mpr ht), hc] at h
        exact absurd h (by simp)
    · rw [verify_of_type ht] at h
      exact absurd h (by simp)
  · rintro ⟨rfl, ht, hl, hc⟩
    exact verify_of_agrees ht hl hc

theorem ofText_of_read (h : Json.readText record.read s = .ok r) : ofText s = verify r := by
  rw [ofText, h]
  rfl

theorem ofText_of_fault {fault : Json.Fault} (h : Json.readText record.read s = .error fault) :
    ofText s = .error (.json fault) := by
  rw [ofText, h]
  rfl

/-- A tally that agrees with the results is the one that a new report of them has. -/
theorem eq_ofResults (ht : r.type = formatType) (hc : r.TallyAgrees) :
    r = ofResults r.time r.metadata r.skipped r.results := by
  obtain ⟨type, time, metadata, skipped, results, outcomes⟩ := r
  have htally : outcomes = tally results := tallyAgrees_iff.mp hc
  subst htally
  obtain rfl : type = formatType := ht
  rfl

/-- A text is accepted exactly when it can be read as a report that agrees with itself, and so every
accepted report counts its results. Of a report that can be read and is not accepted, the type is
refused before a label, the first wrong label before the tally. -/
theorem ofText_iff_agrees (s : String) :
    (∀ r, ofText s = .ok r ↔ Json.readText record.read s = .ok r ∧ r.type = formatType ∧
      (∀ c ∈ r.results, c.label = c.outcome.label) ∧
      r.outcomes.entries = Outcome.all.map fun o => (o, r.results.countP fun c => c.outcome = o)) ∧
    (∀ r, ofText s = .ok r →
      (∀ o, r.count o = r.results.countP fun c => c.outcome = o) ∧
      (Outcome.all.map r.count).sum = r.results.length ∧
      (r.hasFailures = true ↔ ∃ c ∈ r.results, c.outcome = .fail)) ∧
    (∀ fault, Json.readText record.read s = .error fault → ofText s = .error (.json fault)) ∧
    ∀ r, Json.readText record.read s = .ok r →
      (r.type ≠ formatType → ofText s = .error (.unsupportedType r.type)) ∧
      (r.type = formatType → ∀ before c after, r.results = before ++ c :: after →
        (∀ b ∈ before, b.label = b.outcome.label) → c.label ≠ c.outcome.label →
        ofText s = .error (.inconsistentOutcome c.check.code c.outcome c.label)) ∧
      (r.type = formatType → (∀ c ∈ r.results, c.label = c.outcome.label) →
        (r.outcomes.entries ≠
          Outcome.all.map fun o => (o, r.results.countP fun c => c.outcome = o)) →
        ofText s = .error (.inconsistentTally r.results.length)) := by
  have hiff : ∀ r, ofText s = .ok r ↔ Json.readText record.read s = .ok r ∧
      r.type = formatType ∧ r.LabelsAgree ∧ r.TallyAgrees := by
    intro r
    cases hread : Json.readText record.read s with
    | error fault => simp [ofText_of_fault hread]
    | ok x =>
      rw [ofText_of_read hread, verify_eq_ok_iff, Except.ok.injEq]
      constructor
      · rintro ⟨rfl, h⟩
        exact ⟨rfl, h⟩
      · rintro ⟨rfl, h⟩
        exact ⟨rfl, h⟩
  refine ⟨hiff, fun r hr => ?_, fun fault => ofText_of_fault, fun r hr => ⟨?_, ?_, ?_⟩⟩
  · obtain ⟨_, ht, _, hc⟩ := (hiff r).mp hr
    rw [eq_ofResults ht hc]
    exact ⟨count_ofResults, sum_count_ofResults, hasFailures_ofResults⟩
  · intro ht
    rw [ofText_of_read hr, verify_of_type ht]
  · intro ht before c after hresults hbefore hc
    rw [ofText_of_read hr, verify_of_label ht hresults hbefore hc]
  · intro ht hl hc
    rw [ofText_of_read hr, verify_of_tally ht hl hc]

end Report

end CaptureAudit
