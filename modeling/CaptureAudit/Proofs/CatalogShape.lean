import CaptureAudit.Catalog
import CaptureAudit.Proofs.Ascending
import Mathlib.Data.List.Perm.Basic

/-! The agreement between the three parts of a catalog: its checks by name, the lower-cased codes in
use, and the places of the tunables by item name. The last two follow from the first. -/

namespace CaptureAudit

namespace Check

/-- Nothing that a catalog asks of a check is missing. -/
structure Complete (c : Check) : Prop where
  code : c.descriptor.code ≠ ""
  name : c.descriptor.name ≠ ""
  description : c.descriptor.description ≠ ""
  handler : c.handler.isSome = true
  tunables : ∀ t ∈ c.descriptor.tunables.values, t.key ≠ "" ∧ t.description ≠ ""

/-- The item names of a check, by the map keys of its tunables. -/
def itemNames (c : Check) : List String :=
  c.descriptor.tunables.values.map fun t => Tunable.itemName c.code t.key

/-- The check is complete and shares no name, lower-cased code or item name with others. -/
structure Fits (others : List Check) (c : Check) : Prop where
  complete : c.Complete
  name : c.descriptor.name ∉ others.map fun other => other.descriptor.name
  code : Text.lowercase c.code ∉ others.map fun other => Text.lowercase other.code
  nodup_items : c.itemNames.Nodup
  items : ∀ item ∈ c.itemNames, item ∉ others.flatMap itemNames

/-- Where the tunables of a check are found. -/
def places (c : Check) : List (String × String × String) :=
  c.descriptor.tunables.entries.map fun e =>
    (Tunable.itemName c.code e.2.key, (c.descriptor.name, e.1))

theorem map_fst_places (c : Check) : c.places.map Prod.fst = c.itemNames := by
  simp [places, itemNames, SortedMap.values, List.map_map, Function.comp_def]

theorem mem_places_iff {c : Check} {item name key : String} :
    (item, (name, key)) ∈ c.places ↔ name = c.descriptor.name ∧
      ∃ t, c.descriptor.tunables.get? key = some t ∧ Tunable.itemName c.code t.key = item := by
  simp only [places, List.mem_map, Prod.mk.injEq, SortedMap.get?_eq_some_iff, Prod.exists]
  constructor
  · rintro ⟨k, t, hm, hi, rfl, rfl⟩
    exact ⟨rfl, t, hm, hi⟩
  · rintro ⟨rfl, t, hm, hi⟩
    exact ⟨key, t, hm, hi, rfl, rfl⟩

def mapTunables (f : Tunable → Tunable) (c : Check) : Check :=
  { c with descriptor := { c.descriptor with tunables := c.descriptor.tunables.mapValues f } }

@[simp] theorem code_mapTunables (f : Tunable → Tunable) (c : Check) :
    (c.mapTunables f).code = c.code := rfl

theorem itemNames_mapTunables {f : Tunable → Tunable} (hf : ∀ t, (f t).key = t.key) (c : Check) :
    (c.mapTunables f).itemNames = c.itemNames := by
  simp [itemNames, mapTunables, code, List.map_map, Function.comp_def, hf]

theorem Complete.mapTunables {c : Check} (h : c.Complete) {f : Tunable → Tunable}
    (hk : ∀ t, (f t).key = t.key) (hd : ∀ t, (f t).description = t.description) :
    (c.mapTunables f).Complete where
  code := h.code
  name := h.name
  description := h.description
  handler := h.handler
  tunables := by
    intro t ht
    rw [Check.mapTunables, SortedMap.values_mapValues] at ht
    obtain ⟨u, hu, rfl⟩ := List.mem_map.mp ht
    rw [hk, hd]
    exact h.tunables u hu

end Check

namespace Catalog

theorem own_eq_mapTunables (c : Check) :
    own c = c.mapTunables fun t => { t with check := c.code } := rfl

@[simp] theorem name_own (c : Check) : (own c).descriptor.name = c.descriptor.name := rfl

@[simp] theorem code_own (c : Check) : (own c).code = c.code := rfl

@[simp] theorem itemNames_own (c : Check) : (own c).itemNames = c.itemNames :=
  Check.itemNames_mapTunables (f := fun t => { t with check := c.code }) (fun _ => rfl) c

theorem complete_own {c : Check} (h : c.Complete) : (own c).Complete :=
  h.mapTunables (f := fun t => { t with check := c.code }) (fun _ => rfl) fun _ => rfl

theorem owned_own {c : Check} {t : Tunable} (ht : t ∈ (own c).descriptor.tunables.values) :
    t.check = c.code := by
  rw [own_eq_mapTunables, Check.mapTunables, SortedMap.values_mapValues] at ht
  obtain ⟨u, _, rfl⟩ := List.mem_map.mp ht
  rfl

/-- Every check stands under its own name and is complete, names, lower-cased codes and item names
are each taken once, and the codes and the places are those of the checks. -/
structure WellFormed (c : Catalog) : Prop where
  named : ∀ e ∈ c.checks.entries, e.1 = e.2.descriptor.name
  complete : ∀ check ∈ c.checks.values, check.Complete
  owned : ∀ check ∈ c.checks.values, ∀ t ∈ check.descriptor.tunables.values, t.check = check.code
  nodup_codes : (c.checks.values.map fun check => Text.lowercase check.code).Nodup
  codes : ∀ s, s ∈ c.codes.toList ↔ ∃ check ∈ c.checks.values, Text.lowercase check.code = s
  nodup_items : (c.checks.values.flatMap Check.itemNames).Nodup
  items : ∀ item name key, c.items.get? item = some (name, key) ↔
    ∃ check t, c.checks.get? name = some check ∧ check.descriptor.tunables.get? key = some t ∧
      Tunable.itemName check.code t.key = item

theorem WellFormed.empty : WellFormed empty := by
  refine ⟨?_, ?_, ?_, ?_, ?_, ?_, ?_⟩ <;>
    simp [Catalog.empty, SortedMap.empty, SortedMap.values, SortedSet.empty, SortedMap.get?]

namespace WellFormed

variable {c d : Catalog} {check : Check}

theorem keys_checks (h : c.WellFormed) :
    c.checks.keys = c.checks.values.map fun check => check.descriptor.name := by
  rw [SortedMap.keys, SortedMap.values, List.map_map]
  exact List.map_congr_left h.named

theorem mem_keys_items (h : c.WellFormed) {item : String} :
    item ∈ c.items.keys ↔ item ∈ c.checks.values.flatMap Check.itemNames := by
  rw [SortedMap.mem_keys_iff, List.mem_flatMap]
  constructor
  · rintro ⟨⟨name, key⟩, hplace⟩
    obtain ⟨check, t, hcheck, ht, rfl⟩ := (h.items item name key).mp hplace
    exact ⟨check, SortedMap.mem_values_iff.mpr ⟨name, hcheck⟩,
      List.mem_map_of_mem (SortedMap.mem_values_iff.mpr ⟨key, ht⟩)⟩
  · rintro ⟨check, hcheck, hitem⟩
    obtain ⟨t, ht, rfl⟩ := List.mem_map.mp hitem
    obtain ⟨name, hname⟩ := SortedMap.mem_values_iff.mp hcheck
    obtain ⟨key, hkey⟩ := SortedMap.mem_values_iff.mp ht
    exact ⟨(name, key), (h.items _ name key).mpr ⟨check, t, hname, hkey, rfl⟩⟩

/-- The checks determine the rest. -/
theorem ext (hc : c.WellFormed) (hd : d.WellFormed) (h : c.checks = d.checks) : c = d := by
  have hcodes : c.codes = d.codes := SortedSet.ext fun s => by rw [hc.codes, hd.codes, h]
  have hitems : c.items = d.items := by
    refine SortedMap.ext fun item => Option.ext fun place => ?_
    rw [hc.items, hd.items, h]
  cases c
  cases d
  simp only [mk.injEq]
  exact ⟨h, hcodes, hitems⟩

end WellFormed

theorem items_addCheck (c : Catalog) (check : Check) :
    (c.addCheck check).items =
      check.places.foldl (fun items e => items.insert e.1 e.2) c.items := by
  rw [Check.places, List.foldl_map]
  rfl

namespace WellFormed

variable {c : Catalog} {check : Check}

theorem checks_addCheck_perm (h : c.WellFormed) (hf : check.Fits c.checks.values) :
    (c.addCheck check).checks.entries.Perm
      ((check.descriptor.name, own check) :: c.checks.entries) :=
  SortedMap.entries_insert_perm (by rw [h.keys_checks]; exact hf.name)

theorem values_addCheck_perm (h : c.WellFormed) (hf : check.Fits c.checks.values) :
    (c.addCheck check).checks.values.Perm (own check :: c.checks.values) :=
  (h.checks_addCheck_perm hf).map Prod.snd

theorem addCheck (h : c.WellFormed) (hf : check.Fits c.checks.values) :
    (c.addCheck check).WellFormed := by
  have hperm := h.values_addCheck_perm hf
  have hmem : ∀ other, other ∈ (c.addCheck check).checks.values ↔
      other = own check ∨ other ∈ c.checks.values := fun other => by
    rw [hperm.mem_iff, List.mem_cons]
  have hget : ∀ name, (c.addCheck check).checks.get? name =
      if name = check.descriptor.name then some (own check) else c.checks.get? name :=
    fun _ => SortedMap.get?_insert
  refine ⟨?_, ?_, ?_, ?_, ?_, ?_, ?_⟩
  · intro e he
    rcases List.mem_cons.mp ((h.checks_addCheck_perm hf).mem_iff.mp he) with rfl | he
    · rfl
    · exact h.named e he
  · intro other ho
    rcases (hmem other).mp ho with rfl | ho
    · exact complete_own hf.complete
    · exact h.complete other ho
  · intro other ho t ht
    rcases (hmem other).mp ho with rfl | ho
    · exact owned_own (c := check) ht
    · exact h.owned other ho t ht
  · refine (hperm.map _).nodup_iff.mpr (List.nodup_cons.mpr ⟨?_, h.nodup_codes⟩)
    intro hm
    obtain ⟨other, ho, he⟩ := List.mem_map.mp hm
    exact hf.code (List.mem_map.mpr ⟨other, ho, he⟩)
  · intro s
    change s ∈ (c.codes.insert (Text.lowercase check.code)).toList ↔ _
    simp only [SortedSet.mem_insert, h.codes, hmem, exists_eq_or_imp, code_own]
    exact or_congr_left eq_comm
  · refine (hperm.flatMap_right Check.itemNames).nodup_iff.mpr ?_
    rw [List.flatMap_cons, itemNames_own, List.nodup_append]
    refine ⟨hf.nodup_items, h.nodup_items, ?_⟩
    rintro item hi _ hold rfl
    exact hf.items item hi hold
  · intro item name key
    have hnd : (check.places.map Prod.fst).Nodup := by
      rw [Check.map_fst_places]
      exact hf.nodup_items
    rw [items_addCheck, SortedMap.get?_foldl_insert hnd, Check.mem_places_iff, Check.map_fst_places,
      hget]
    -- The name of the new check was free, and so were its item names: no place is overwritten.
    by_cases hn : name = check.descriptor.name
    · subst name
      have hold : c.items.get? item ≠ some (check.descriptor.name, key) := by
        intro hplace
        obtain ⟨other, _, ho, _⟩ := (h.items item _ key).mp hplace
        refine hf.name ?_
        rw [← h.keys_checks]
        exact SortedMap.mem_keys_iff.mpr ⟨other, ho⟩
      have hkey : (own check).descriptor.tunables.get? key =
          (check.descriptor.tunables.get? key).map fun t => { t with check := check.code } :=
        SortedMap.get?_mapValues
      simp [hold, hkey]
    · have hfree : c.items.get? item = some (name, key) → item ∉ check.itemNames := fun hplace hi =>
        hf.items item hi (h.mem_keys_items.mp (SortedMap.mem_keys_iff.mpr ⟨_, hplace⟩))
      rw [if_neg hn, ← h.items]
      exact ⟨fun hplace => hplace.elim (fun hnew => absurd hnew.1 hn) And.right,
        fun hplace => .inr ⟨hfree hplace, hplace⟩⟩

end WellFormed

end Catalog

end CaptureAudit
