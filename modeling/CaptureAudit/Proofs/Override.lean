import CaptureAudit.Proofs.CatalogShape

/-! Setting one tunable through its item name. In a catalog whose parts agree an item name leads to
one tunable, and setting it changes what that tunable was set to and nothing else. -/

namespace CaptureAudit

namespace Tunable

theorem readNumber_cases (key whole text : String) :
    (∃ x, readNumber key whole text = .ok x) ∨
      ∃ reason, readNumber key whole text = .error (.parse key whole reason) := by
  unfold readNumber
  cases Decimal.read text with
  | error refusal => exact .inr ⟨refusal.message, rfl⟩
  | ok x =>
    by_cases hx : x.isFinite
    · exact .inl ⟨x, by simp [hx]⟩
    · exact .inr ⟨"not a finite number", by simp [hx]⟩

theorem accept_ne_unknownItem (unit : Measure) (key text item : String) :
    accept unit key text ≠ .error (.unknownItem item) := by
  unfold accept
  cases unit with
  | percentage =>
    rcases readNumber_cases key text (dropPercent (Text.trim text)) with ⟨x, hx⟩ | ⟨reason, hx⟩
    · simp only [hx, bind, Except.bind]
      split
      · simp
      split <;> simp
    · simp [hx, bind, Except.bind]
  | uint =>
    rcases readNumber_cases key text (Text.trim text) with ⟨x, hx⟩ | ⟨reason, hx⟩
    · simp only [hx, bind, Except.bind]
      split <;> simp
    · simp [hx, bind, Except.bind]
  | int =>
    rcases readNumber_cases key text (Text.trim text) with ⟨x, hx⟩ | ⟨reason, hx⟩ <;> simp [hx]

end Tunable

theorem Check.mapTunables_eq_self {f : Tunable → Tunable} {check : Check}
    (h : ∀ t ∈ check.descriptor.tunables.values, f t = t) : check.mapTunables f = check := by
  have hsame : check.descriptor.tunables.mapValues f = check.descriptor.tunables := by
    refine SortedMap.ext fun key => ?_
    rw [SortedMap.get?_mapValues]
    cases hget : check.descriptor.tunables.get? key with
    | none => rfl
    | some t => exact congrArg some (h t (SortedMap.mem_values_iff.mpr ⟨key, hget⟩))
  rw [Check.mapTunables, hsame]

namespace Catalog

def mapTunables (f : Tunable → Tunable) (c : Catalog) : Catalog :=
  { c with checks := c.checks.mapValues (Check.mapTunables f) }

/-- The catalog with a value for the tunable of an item name. -/
def setOverride (c : Catalog) (item : String) (x : Float) : Catalog :=
  c.mapTunables fun t => if t.item = item then { t with override := some x } else t

theorem mem_tunables_iff {c : Catalog} {t : Tunable} :
    t ∈ c.tunables ↔ ∃ name check key, c.checks.get? name = some check ∧
      check.descriptor.tunables.get? key = some t := by
  rw [tunables, List.mem_mergeSort, List.mem_flatMap]
  constructor
  · rintro ⟨check, hcheck, ht⟩
    obtain ⟨name, hname⟩ := SortedMap.mem_values_iff.mp hcheck
    obtain ⟨key, hkey⟩ := SortedMap.mem_values_iff.mp ht
    exact ⟨name, check, key, hname, hkey⟩
  · rintro ⟨name, check, key, hname, hkey⟩
    have hcheck := SortedMap.mem_values_iff.mpr ⟨name, hname⟩
    have ht := SortedMap.mem_values_iff.mpr ⟨key, hkey⟩
    exact ⟨check, hcheck, ht⟩

namespace WellFormed

variable {c d : Catalog} {check : Check} {t : Tunable} {item text name key : String}

theorem itemName_eq_item (h : c.WellFormed) (hcheck : check ∈ c.checks.values)
    (ht : t ∈ check.descriptor.tunables.values) : Tunable.itemName check.code t.key = t.item := by
  rw [Tunable.item, h.owned check hcheck t ht]

theorem get?_items_iff (h : c.WellFormed) :
    c.items.get? item = some (name, key) ↔ ∃ check t, c.checks.get? name = some check ∧
      check.descriptor.tunables.get? key = some t ∧ t.item = item := by
  rw [h.items]
  refine exists₂_congr fun check t => and_congr_right fun hcheck => and_congr_right fun ht => ?_
  rw [h.itemName_eq_item (SortedMap.mem_values_iff.mpr ⟨name, hcheck⟩)
    (SortedMap.mem_values_iff.mpr ⟨key, ht⟩)]

theorem nodup_item (h : c.WellFormed) : (c.tunables.map Tunable.item).Nodup := by
  have hitems : (c.checks.values.flatMap fun check => check.descriptor.tunables.values).map
      Tunable.item = c.checks.values.flatMap Check.itemNames := by
    rw [List.map_flatMap]
    refine List.flatMap_congr fun check hcheck => ?_
    exact List.map_congr_left fun t ht => (h.itemName_eq_item hcheck ht).symm
  have hp := (List.mergeSort_perm (c.checks.values.flatMap fun check =>
    check.descriptor.tunables.values) fun a b =>
      (compare a.key b.key).then (compare a.check b.check) != .gt).map Tunable.item
  rw [hitems] at hp
  exact hp.nodup_iff.mpr h.nodup_items

/-- An item name is found when some tunable has it. The look-ups that follow the first one do not
fail. -/
theorem find?_cases (h : c.WellFormed) (item : String) :
    (∃ p, c.find? item = some p ∧ c.checks.get? p.name = some p.check ∧
        p.check.descriptor.tunables.get? p.key = some p.tunable ∧ p.tunable.item = item) ∨
      c.find? item = none ∧ c.items.get? item = none ∧ ∀ t ∈ c.tunables, t.item ≠ item := by
  cases hget : c.items.get? item with
  | some place =>
    obtain ⟨check, t, hcheck, ht, hitem⟩ := h.get?_items_iff.mp hget
    exact .inl ⟨⟨place.1, check, place.2, t⟩, by simp [find?, hget, hcheck, ht], hcheck, ht, hitem⟩
  | none =>
    refine .inr ⟨by simp [find?, hget], rfl, fun t ht hitem => ?_⟩
    obtain ⟨name, check, key, hcheck, hkey⟩ := mem_tunables_iff.mp ht
    have hplace := h.get?_items_iff.mpr ⟨check, t, hcheck, hkey, hitem⟩
    rw [hget] at hplace
    exact absurd hplace (by simp)

theorem insert_eq_mapTunables (h : c.WellFormed) (hcheck : c.checks.get? name = some check)
    (ht : check.descriptor.tunables.get? key = some t) {f : Tunable → Tunable}
    (hf : ∀ u, u.item ≠ t.item → f u = u) :
    { c with checks := c.checks.insert name { check with descriptor :=
      { check.descriptor with tunables := check.descriptor.tunables.insert key (f t) } } } =
      c.mapTunables f := by
  have hplace := h.get?_items_iff.mpr ⟨check, t, hcheck, ht, rfl⟩
  -- One place alone has the item name, so the tunables of all others stay as they are.
  have hother : ∀ name' check' key' u, c.checks.get? name' = some check' →
      check'.descriptor.tunables.get? key' = some u → (name', key') ≠ (name, key) → f u = u := by
    intro name' check' key' u hcheck' hu hne
    refine hf u fun hitem => hne ?_
    have hplace' := h.get?_items_iff.mpr ⟨check', u, hcheck', hu, hitem⟩
    exact Option.some.inj (hplace'.symm.trans hplace)
  have htunables : check.descriptor.tunables.insert key (f t) =
      check.descriptor.tunables.mapValues f :=
    SortedMap.insert_eq_mapValues ht fun key' u hne hu =>
      hother name check key' u hcheck hu (by simp [hne])
  have hchecks : c.checks.insert name (check.mapTunables f) =
      c.checks.mapValues (Check.mapTunables f) := by
    refine SortedMap.insert_eq_mapValues hcheck fun name' check' hne hcheck' => ?_
    refine Check.mapTunables_eq_self fun u hu => ?_
    obtain ⟨key', hkey'⟩ := SortedMap.mem_values_iff.mp hu
    exact hother name' check' key' u hcheck' hkey' (by simp [hne])
  rw [htunables]
  exact congrArg (fun checks => { c with checks := checks }) hchecks

theorem set_cases (h : c.WellFormed) (item text : String) :
    (∃ t ∈ c.tunables, t.item = item ∧
        c.set item text = (Tunable.accept t.unit t.key text).map (c.setOverride item)) ∨
      (∀ t ∈ c.tunables, t.item ≠ item) ∧ c.set item text = .error (.unknownItem item) := by
  rcases h.find?_cases item with ⟨p, hfind, hcheck, ht, rfl⟩ | ⟨hfind, _, hnot⟩
  · refine .inl ⟨p.tunable, mem_tunables_iff.mpr ⟨_, _, _, hcheck, ht⟩, rfl, ?_⟩
    unfold Catalog.set
    simp only [hfind, Tunable.set]
    cases Tunable.accept p.tunable.unit p.tunable.key text with
    | error e => rfl
    | ok x =>
      have hset := h.insert_eq_mapTunables hcheck ht
        (f := fun u => if u.item = p.tunable.item then { u with override := some x } else u)
        fun u hu => if_neg hu
      simp only [if_true] at hset
      exact congrArg Except.ok hset
  · exact .inr ⟨hnot, by simp [Catalog.set, hfind]⟩

theorem mapTunables (h : c.WellFormed) {f : Tunable → Tunable} (hk : ∀ t, (f t).key = t.key)
    (hc : ∀ t, (f t).check = t.check) (hd : ∀ t, (f t).description = t.description) :
    (c.mapTunables f).WellFormed := by
  have hvalues : (c.mapTunables f).checks.values = c.checks.values.map (Check.mapTunables f) :=
    SortedMap.values_mapValues c.checks (Check.mapTunables f)
  refine ⟨?_, ?_, ?_, ?_, ?_, ?_, ?_⟩
  · intro e he
    obtain ⟨old, hold, rfl⟩ := List.mem_map.mp he
    exact h.named old hold
  · intro check hcheck
    rw [hvalues] at hcheck
    obtain ⟨old, hold, rfl⟩ := List.mem_map.mp hcheck
    exact (h.complete old hold).mapTunables hk hd
  · intro check hcheck t ht
    rw [hvalues] at hcheck
    obtain ⟨old, hold, rfl⟩ := List.mem_map.mp hcheck
    rw [Check.mapTunables, SortedMap.values_mapValues] at ht
    obtain ⟨u, hu, rfl⟩ := List.mem_map.mp ht
    rw [hc]
    exact h.owned old hold u hu
  · rw [hvalues, List.map_map]
    exact h.nodup_codes
  · intro s
    change s ∈ c.codes.toList ↔ _
    rw [hvalues]
    simpa only [List.mem_map, exists_exists_and_eq_and, Check.code_mapTunables] using h.codes s
  · have hitems : (c.mapTunables f).checks.values.flatMap Check.itemNames =
        c.checks.values.flatMap Check.itemNames := by
      rw [hvalues, List.flatMap_map]
      exact List.flatMap_congr fun check _ => Check.itemNames_mapTunables hk check
    rw [hitems]
    exact h.nodup_items
  · intro item name key
    have hget : (c.mapTunables f).checks.get? name =
        (c.checks.get? name).map (Check.mapTunables f) := SortedMap.get?_mapValues
    have htunables : ∀ check : Check, (check.mapTunables f).descriptor.tunables.get? key =
        (check.descriptor.tunables.get? key).map f := fun _ => SortedMap.get?_mapValues
    change c.items.get? item = some (name, key) ↔ _
    rw [h.items, hget]
    constructor
    · rintro ⟨check, t, hcheck, ht, hitem⟩
      refine ⟨check.mapTunables f, f t, by rw [hcheck]; rfl, by rw [htunables, ht]; rfl, ?_⟩
      rw [hk]
      exact hitem
    · rintro ⟨check', t', hcheck', ht', hitem⟩
      obtain ⟨check, hcheck, rfl⟩ := Option.map_eq_some_iff.mp hcheck'
      rw [htunables] at ht'
      obtain ⟨t, ht, rfl⟩ := Option.map_eq_some_iff.mp ht'
      rw [hk] at hitem
      exact ⟨check, t, hcheck, ht, hitem⟩

theorem setOverride (h : c.WellFormed) (item : String) (x : Float) :
    (c.setOverride item x).WellFormed := by
  refine h.mapTunables ?_ ?_ ?_ <;>
  · intro t
    split <;> rfl

theorem set (h : c.WellFormed) (hset : c.set item text = .ok d) : d.WellFormed := by
  rcases h.set_cases item text with ⟨t, _, _, hcase⟩ | ⟨_, hcase⟩
  · rw [hcase] at hset
    cases haccept : Tunable.accept t.unit t.key text with
    | error e => simp [haccept, Except.map] at hset
    | ok x =>
      rw [haccept] at hset
      obtain rfl := Except.ok.inj hset
      exact h.setOverride item x
  · rw [hcase] at hset
    exact absurd hset (by simp)

end WellFormed

end Catalog

end CaptureAudit
