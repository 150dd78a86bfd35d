import CaptureAudit.Proofs.CatalogCalls

/-! A batch in parts and in other orders. Two batches one after the other are one batch, and the
order of the checks in a batch changes neither whether it is let in nor what the catalog becomes. -/

namespace CaptureAudit

theorem ascending_mergeSort {α : Type} {f : α → α → Ordering} [Std.TransCmp f] {l : List α}
    (h : l.Pairwise fun a b => f a b ≠ .eq) :
    (l.mergeSort fun a b => f a b != .gt).Pairwise fun a b => f a b = .lt := by
  have hsorted : (l.mergeSort fun a b => f a b != .gt).Pairwise fun a b =>
      (f a b != .gt) = true := by
    refine List.pairwise_mergeSort ?_ ?_ l
    · intro a b c hab hbc
      simp only [bne_iff_ne, ne_eq, Ordering.ne_gt_iff_isLE] at hab hbc ⊢
      exact Std.TransCmp.isLE_trans hab hbc
    · intro a b
      simp only [Bool.or_eq_true, bne_iff_ne, ne_eq]
      by_cases hab : f a b = .gt
      · have hba : f b a = .lt := Std.OrientedCmp.lt_of_gt hab
        exact .inr (by simp [hba])
      · exact .inl hab
  have hne : (l.mergeSort fun a b => f a b != .gt).Pairwise fun a b => f a b ≠ .eq := by
    refine h.perm (List.mergeSort_perm l _).symm fun {a b} hab hba => hab ?_
    exact Std.OrientedCmp.eq_symm hba
  refine (hsorted.and hne).imp fun {a b} hab => ?_
  have hgt : f a b ≠ .gt := by simpa using hab.1
  cases hcmp : f a b with
  | lt => rfl
  | eq => exact absurd hcmp hab.2
  | gt => exact absurd hcmp hgt

namespace Catalog

theorem places_own (check : Check) : (own check).places = check.places := by
  simp [Check.places, own, SortedMap.mapValues, Check.code, List.map_map, Function.comp_def]

namespace WellFormed

variable {c d : Catalog} {check : Check} {a b batch : List Check} {name : String}

theorem get?_checks_iff (h : c.WellFormed) :
    c.checks.get? name = some check ↔ check ∈ c.checks.values ∧ check.descriptor.name = name := by
  constructor
  · intro hget
    have hnamed := h.named _ (SortedMap.get?_eq_some_iff.mp hget)
    exact ⟨SortedMap.mem_values_iff.mpr ⟨name, hget⟩, hnamed.symm⟩
  · rintro ⟨hm, rfl⟩
    obtain ⟨name, hget⟩ := SortedMap.mem_values_iff.mp hm
    have hnamed := h.named _ (SortedMap.get?_eq_some_iff.mp hget)
    have hname : name = check.descriptor.name := hnamed
    rwa [← hname]

theorem get?_items_iff_places (h : c.WellFormed) {item : String} {place : String × String} :
    c.items.get? item = some place ↔ ∃ check ∈ c.checks.values, (item, place) ∈ check.places := by
  obtain ⟨name, key⟩ := place
  rw [h.items]
  simp only [h.get?_checks_iff, Check.mem_places_iff]
  constructor
  · rintro ⟨check, t, ⟨hm, hname⟩, ht⟩
    exact ⟨check, hm, hname.symm, t, ht⟩
  · rintro ⟨check, hm, hname, t, ht⟩
    exact ⟨check, t, ⟨hm, hname.symm⟩, ht⟩

theorem entries_register_perm (h : c.WellFormed) (hr : c.register batch = .ok d) :
    d.checks.entries.Perm
      (c.checks.entries ++ batch.map fun check => (check.descriptor.name, own check)) := by
  obtain ⟨ha, rfl⟩ := h.register_ok_iff.mp hr
  exact (h.foldl_addCheck ha).2

theorem values_register_perm (h : c.WellFormed) (hr : c.register batch = .ok d) :
    d.checks.values.Perm (c.checks.values ++ batch.map own) := by
  have hp := (h.entries_register_perm hr).map Prod.snd
  simpa [SortedMap.values, List.map_map, Function.comp_def] using hp

theorem codes_register (h : c.WellFormed) (hr : c.register batch = .ok d) (s : String) :
    s ∈ d.codes.toList ↔
      s ∈ c.codes.toList ∨ ∃ check ∈ batch, Text.lowercase check.code = s := by
  rw [(h.register hr).codes, h.codes]
  simp only [(h.values_register_perm hr).mem_iff, List.mem_append, List.mem_map, or_and_right,
    exists_or, exists_exists_and_eq_and, code_own]

theorem items_register (h : c.WellFormed) (hr : c.register batch = .ok d) (item : String)
    (place : String × String) : d.items.get? item = some place ↔
      c.items.get? item = some place ∨ ∃ check ∈ batch, (item, place) ∈ check.places := by
  rw [(h.register hr).get?_items_iff_places, h.get?_items_iff_places]
  simp only [(h.values_register_perm hr).mem_iff, List.mem_append, List.mem_map, or_and_right,
    exists_or, exists_exists_and_eq_and, places_own]

theorem checkList_register_perm (h : c.WellFormed) (hr : c.register batch = .ok d) :
    d.checkList.Perm (c.checkList ++ batch.map own) := by
  have hd := List.mergeSort_perm d.checks.values fun a b => compare a.code b.code != .gt
  have hc := List.mergeSort_perm c.checks.values fun a b => compare a.code b.code != .gt
  exact hd.trans ((h.values_register_perm hr).trans (hc.symm.append_right _))

/-- Once a batch is in, what the catalog has taken is what it had and what the batch has. -/
theorem covers_register (h : c.WellFormed) (hr : c.register batch = .ok d) :
    d.taken.Covers (c.checks.values ++ batch) := by
  obtain ⟨hnames, hcodes, hitems⟩ := (h.register hr).covers
  have hp := h.values_register_perm hr
  refine ⟨fun s => ?_, fun s => ?_, fun s => ?_⟩
  · rw [hnames, (hp.map _).mem_iff]
    simp [List.map_map, Function.comp_def]
  · rw [hcodes, (hp.map _).mem_iff]
    simp [List.map_map, Function.comp_def]
  · rw [hitems, (hp.flatMap_right _).mem_iff]
    simp [List.flatMap_map]

theorem register_append (h : c.WellFormed) (a b : List Check) :
    c.register (a ++ b) = (c.register a).bind fun d => d.register b := by
  rcases foldlM_claim_cases h.covers h.distinct a with ⟨hok, ha⟩ | ⟨_, _, _, e, _, herr, _⟩
  · have hr : c.register a = .ok (a.foldl Catalog.addCheck c) := register_of_claims hok
    have hd := h.covers_register hr
    have ht := h.covers.foldl_add a
    have hclaims : (a ++ b).foldlM claim c.taken = b.foldlM claim (a.foldl Taken.add c.taken) := by
      rw [List.foldlM_append, hok]
      rfl
    rw [hr]
    change c.register (a ++ b) = (a.foldl Catalog.addCheck c).register b
    -- The pass goes on with lists that differ from those of the new catalog in order only.
    cases hfirst : b.foldlM claim (a.foldl Taken.add c.taken) with
    | error e =>
      rw [register_of_claims_error (hclaims.trans hfirst),
        register_of_claims_error (foldlM_claim_congr ht hd hfirst)]
    | ok t =>
      cases hsecond : b.foldlM claim (a.foldl Catalog.addCheck c).taken with
      | error e =>
        rw [foldlM_claim_congr hd ht hsecond] at hfirst
        exact absurd hfirst (by simp)
      | ok u =>
        rw [register_of_claims (hclaims.trans hfirst), register_of_claims hsecond,
          List.foldl_append]
  · have hclaims : (a ++ b).foldlM claim c.taken = .error e := by
      rw [List.foldlM_append, herr]
      rfl
    rw [register_of_claims_error hclaims, register_of_claims_error herr]
    rfl

theorem register_perm (h : c.WellFormed) (hp : a.Perm b) (hr : c.register a = .ok d) :
    c.register b = .ok d := by
  obtain ⟨ha, _⟩ := h.register_ok_iff.mp hr
  have hb := ha.perm hp
  have hr' : c.register b = .ok (b.foldl Catalog.addCheck c) := h.register_ok_iff.mpr ⟨hb, rfl⟩
  have hentries : d.checks.entries.Perm (b.foldl Catalog.addCheck c).checks.entries :=
    (h.entries_register_perm hr).trans
      (((hp.map _).append_left _).trans (h.entries_register_perm hr').symm)
  have hchecks := SortedMap.ext_entries fun e => hentries.mem_iff
  rw [hr', (h.register hr).ext (h.register hr') hchecks]

theorem ascending_checkList (h : c.WellFormed) :
    c.checkList.Pairwise fun a b => compare a.code b.code = .lt := by
  have hcodes := List.pairwise_map.mp h.nodup_codes
  have hne : c.checks.values.Pairwise fun a b => compareOn Check.code a b ≠ .eq :=
    hcodes.imp fun {a b} hab he => hab (congrArg Text.lowercase (Std.LawfulEqOrd.eq_of_compare he))
  exact ascending_mergeSort (f := compareOn Check.code) hne

theorem ascending_tunables (h : c.WellFormed) : c.tunables.Pairwise fun t u =>
    (compare t.key u.key).then (compare t.check u.check) = .lt := by
  have hitems := List.pairwise_map.mp h.nodup_item
  have hne : (c.checks.values.flatMap fun check => check.descriptor.tunables.values).Pairwise
      fun t u => compareLex (compareOn Tunable.key) (compareOn Tunable.check) t u ≠ .eq := by
    refine (hitems.perm (List.mergeSort_perm _ _) fun {t u} htu => htu.symm).imp ?_
    intro t u htu he
    obtain ⟨hkey, hcheck⟩ := Ordering.then_eq_eq.mp he
    refine htu ?_
    rw [Tunable.item, Tunable.item, Std.LawfulEqOrd.eq_of_compare hkey,
      Std.LawfulEqOrd.eq_of_compare hcheck]
  exact ascending_mergeSort
    (f := compareLex (compareOn Tunable.key) (compareOn Tunable.check)) hne

end WellFormed

/-- A batch is let in when its checks are complete and distinct, among each other and from those
there are. Otherwise the catalog stays as it is, and the error is that of the first check that is
not. Where the batch is cut in two, and how its checks are ordered, makes no difference. -/
theorem register_ofCalls (calls : List Call) (batch : List Check) :
    let c := ofCalls calls
    ((∃ d, c.register batch = .ok d) ↔ Admits c.checks.values batch) ∧
      (∀ e, c.register batch = .error e → c.after (.register batch) = c ∧
        ∃ pre check post, batch = pre ++ check :: post ∧ Admits c.checks.values pre ∧
          ¬Admits c.checks.values (pre ++ [check]) ∧ e.Blames (c.checks.values ++ pre) check) ∧
      (∀ d, c.register batch = .ok d → c.after (.register batch) = d ∧
        d.checks.entries.Perm
          (c.checks.entries ++ batch.map fun check => (check.descriptor.name, own check)) ∧
        (∀ s, s ∈ d.codes.toList ↔
          s ∈ c.codes.toList ∨ ∃ check ∈ batch, Text.lowercase check.code = s) ∧
        (∀ item place, d.items.get? item = some place ↔
          c.items.get? item = some place ∨ ∃ check ∈ batch, (item, place) ∈ check.places) ∧
        d.checkList.Perm (c.checkList ++ batch.map own) ∧
        d.checkList.Pairwise (fun a b => compare a.code b.code = .lt) ∧
        d.tunables.Pairwise fun t u =>
          (compare t.key u.key).then (compare t.check u.check) = .lt) ∧
      (∀ more, c.register (batch ++ more) = (c.register batch).bind fun d => d.register more) ∧
      ∀ other, batch.Perm other → ∀ d, c.register batch = .ok d ↔ c.register other = .ok d := by
  intro c
  have h : c.WellFormed := wellFormed_ofCalls calls
  refine ⟨?_, ?_, ?_, h.register_append batch, ?_⟩
  · constructor
    · rintro ⟨d, hr⟩
      exact (h.register_ok_iff.mp hr).1
    · intro ha
      exact ⟨_, h.register_ok_iff.mpr ⟨ha, rfl⟩⟩
  · intro e hr
    refine ⟨by simp [after, hr, Except.toOption], ?_⟩
    rcases h.register_cases batch with ⟨hok, _⟩ | ⟨pre, check, post, e', hsplit, herr, hrest⟩
    · rw [hok] at hr
      exact absurd hr (by simp)
    · have he : e' = e := Except.error.inj (herr.symm.trans hr)
      rw [he] at hrest
      exact ⟨pre, check, post, hsplit, hrest⟩
  · intro d hr
    have hd := h.register hr
    exact ⟨by simp [after, hr, Except.toOption], h.entries_register_perm hr, h.codes_register hr,
      h.items_register hr, h.checkList_register_perm hr, hd.ascending_checkList,
      hd.ascending_tunables⟩
  · intro other hp d
    exact ⟨h.register_perm hp, h.register_perm hp.symm⟩

end Catalog

end CaptureAudit
