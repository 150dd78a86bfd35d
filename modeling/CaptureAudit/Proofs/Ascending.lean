import CaptureAudit.Ascending
import Mathlib.Data.List.Sort

/-! Finite sets and maps through their members and look-ups. Two of them with the same members or
the same look-ups are equal. -/

namespace CaptureAudit

section

variable {α κ β : Type} [Ord α] [Ord κ]

theorem eq_of_ascending [Std.TransOrd α] {l₁ l₂ : List α}
    (h₁ : l₁.Pairwise fun x y => compare x y = .lt)
    (h₂ : l₂.Pairwise fun x y => compare x y = .lt) (h : ∀ a, a ∈ l₁ ↔ a ∈ l₂) : l₁ = l₂ := by
  have hirrefl : Std.Irrefl fun x y : α => compare x y = .lt := ⟨fun x => by simp⟩
  have hanti : Std.Antisymm fun x y : α => compare x y = .lt :=
    ⟨fun _ _ hxy hyx => absurd hyx (Std.OrientedCmp.not_lt_of_lt hxy)⟩
  exact h₁.eq_of_mem_iff h₂ h

theorem sublist_of_ascending [Std.TransOrd α] [DecidableEq α] {l₁ l₂ : List α}
    (h₁ : l₁.Pairwise fun x y => compare x y = .lt)
    (h₂ : l₂.Pairwise fun x y => compare x y = .lt) (h : l₁ ⊆ l₂) : l₁.Sublist l₂ := by
  have hfilter : l₁ = l₂.filter (· ∈ l₁) := by
    refine eq_of_ascending h₁ (h₂.filter _) fun a => ?_
    rw [List.mem_filter, decide_eq_true_eq]
    exact ⟨fun ha => ⟨h ha, ha⟩, And.right⟩
  rw [hfilter]
  exact List.filter_sublist

theorem nodup_of_ascending [Std.TransOrd α] {l : List α}
    (h : l.Pairwise fun x y => compare x y = .lt) : l.Nodup :=
  h.imp fun {a b} hab he => by simp [he] at hab

theorem mem_insertSorted [Std.LawfulEqOrd α] {a x : α} {l : List α} :
    x ∈ insertSorted a l ↔ x = a ∨ x ∈ l := by
  induction l with
  | nil => simp [insertSorted]
  | cons b rest ih =>
    unfold insertSorted
    split
    · exact List.mem_cons
    · next hc =>
      rw [Std.LawfulEqOrd.eq_of_compare hc, List.mem_cons]
      exact ⟨Or.inr, fun h => h.elim .inl id⟩
    · rw [List.mem_cons, List.mem_cons, ih, or_left_comm]

theorem mem_putEntry [Std.TransOrd κ] [Std.LawfulEqOrd κ] {k : κ} {v : β} {e : κ × β}
    {l : List (κ × β)} (h : l.Pairwise fun x y => compare x.1 y.1 = .lt) :
    e ∈ putEntry k v l ↔ e = (k, v) ∨ e.1 ≠ k ∧ e ∈ l := by
  induction l with
  | nil => simp [putEntry]
  | cons b rest ih =>
    obtain ⟨hb, hrest⟩ := List.pairwise_cons.mp h
    unfold putEntry
    split
    · next hc =>
      have hne : ∀ x ∈ b :: rest, x.1 ≠ k := by
        intro x hx he
        have hlt : compare k x.1 = .lt := by
          rcases List.mem_cons.mp hx with rfl | hx
          · exact hc
          · exact Std.TransCmp.lt_trans hc (hb x hx)
        simp [he] at hlt
      rw [List.mem_cons]
      exact or_congr_right ⟨fun hx => ⟨hne e hx, hx⟩, And.right⟩
    · next hc =>
      have hk := Std.LawfulEqOrd.eq_of_compare hc
      have hne : ∀ x ∈ rest, x.1 ≠ k := by
        intro x hx he
        have hlt := hb x hx
        simp [he, hk] at hlt
      rw [List.mem_cons, List.mem_cons]
      refine or_congr_right ⟨fun hx => ⟨hne e hx, .inr hx⟩, ?_⟩
      rintro ⟨hek, rfl | hx⟩
      · exact absurd hk.symm hek
      · exact hx
    · next hc =>
      have hbk : b.1 ≠ k := fun he => by simp [he] at hc
      rw [List.mem_cons, List.mem_cons, ih hrest]
      constructor
      · rintro (rfl | rfl | ⟨hek, hx⟩)
        · exact .inr ⟨hbk, .inl rfl⟩
        · exact .inl rfl
        · exact .inr ⟨hek, .inr hx⟩
      · rintro (rfl | ⟨hek, rfl | hx⟩)
        · exact .inr (.inl rfl)
        · exact .inl rfl
        · exact .inr (.inr ⟨hek, hx⟩)

end

namespace SortedSet

variable {α : Type} [Ord α] {s t : SortedSet α}

theorem contains_iff [Std.LawfulEqOrd α] {a : α} : s.contains a = true ↔ a ∈ s.toList := by
  simp [contains]

variable [Std.TransOrd α]

theorem nodup_toList (s : SortedSet α) : s.toList.Nodup :=
  nodup_of_ascending s.ascending

theorem ext (h : ∀ a, a ∈ s.toList ↔ a ∈ t.toList) : s = t := by
  have he := eq_of_ascending s.ascending t.ascending h
  cases s
  cases t
  simpa only [mk.injEq] using he

variable [Std.LawfulEqOrd α]

theorem mem_insert {a x : α} : x ∈ (s.insert a).toList ↔ x = a ∨ x ∈ s.toList :=
  mem_insertSorted

theorem mem_foldl_insert {l : List α} {x : α} :
    x ∈ (l.foldl insert s).toList ↔ x ∈ l ∨ x ∈ s.toList := by
  induction l generalizing s with
  | nil => simp
  | cons a l ih =>
    simp only [List.foldl_cons, ih, mem_insert, List.mem_cons]
    exact or_left_comm.trans or_assoc.symm

theorem mem_ofList {l : List α} {x : α} : x ∈ (ofList l).toList ↔ x ∈ l := by
  simp [ofList, mem_foldl_insert, empty]

end SortedSet

namespace SortedMap

variable {κ α : Type} [Ord κ] {m m' : SortedMap κ α}

@[simp] theorem get?_empty {k : κ} : (empty : SortedMap κ α).get? k = none := rfl

@[simp] theorem values_mapValues (m : SortedMap κ α) (f : α → α) :
    (m.mapValues f).values = m.values.map f := by
  simp [values, mapValues]

theorem ascending_keys (m : SortedMap κ α) : m.keys.Pairwise fun x y => compare x y = .lt :=
  List.pairwise_map.mpr m.ascending

variable [Std.TransOrd κ]

theorem nodup_keys (m : SortedMap κ α) : m.keys.Nodup :=
  nodup_of_ascending m.ascending_keys

theorem nodup_entries (m : SortedMap κ α) : m.entries.Nodup :=
  m.nodup_keys.of_map

theorem value_unique {k : κ} {v w : α} (hv : (k, v) ∈ m.entries) (hw : (k, w) ∈ m.entries) :
    v = w := by
  have he := List.inj_on_of_nodup_map m.nodup_keys hv hw rfl
  exact congrArg Prod.snd he

theorem ext_entries (h : ∀ e, e ∈ m.entries ↔ e ∈ m'.entries) : m = m' := by
  have hirrefl : Std.Irrefl fun x y : κ × α => compare x.1 y.1 = .lt := ⟨fun x => by simp⟩
  have hanti : Std.Antisymm fun x y : κ × α => compare x.1 y.1 = .lt :=
    ⟨fun _ _ hxy hyx => absurd hyx (Std.OrientedCmp.not_lt_of_lt hxy)⟩
  have he := m.ascending.eq_of_mem_iff m'.ascending h
  cases m
  cases m'
  simpa only [mk.injEq] using he

variable [Std.LawfulEqOrd κ]

theorem get?_eq_some_iff {k : κ} {v : α} : m.get? k = some v ↔ (k, v) ∈ m.entries := by
  constructor
  · intro h
    obtain ⟨e, he, rfl⟩ := Option.map_eq_some_iff.mp h
    have hk : k = e.1 := by simpa using List.find?_some he
    have hm := List.mem_of_find?_eq_some he
    rwa [hk]
  · intro h
    have hs : (m.entries.find? fun e => compare k e.1 == .eq).isSome := by
      rw [List.find?_isSome]
      exact ⟨(k, v), h, by simp⟩
    obtain ⟨e, he⟩ := Option.isSome_iff_exists.mp hs
    have hk : k = e.1 := by simpa using List.find?_some he
    have hm := List.mem_of_find?_eq_some he
    obtain ⟨k', w⟩ := e
    subst hk
    simp [get?, he, value_unique hm h]

theorem mem_keys_iff {k : κ} : k ∈ m.keys ↔ ∃ v, m.get? k = some v := by
  simp [keys, get?_eq_some_iff]

theorem mem_values_iff {v : α} : v ∈ m.values ↔ ∃ k, m.get? k = some v := by
  simp [values, get?_eq_some_iff]

theorem ext (h : ∀ k, m.get? k = m'.get? k) : m = m' :=
  ext_entries fun e => by rw [← get?_eq_some_iff, ← get?_eq_some_iff, h]

theorem mem_insert {k : κ} {v : α} {e : κ × α} :
    e ∈ (m.insert k v).entries ↔ e = (k, v) ∨ e.1 ≠ k ∧ e ∈ m.entries :=
  mem_putEntry m.ascending

theorem entries_insert_perm {k : κ} {v : α} (h : k ∉ m.keys) :
    (m.insert k v).entries.Perm ((k, v) :: m.entries) := by
  have hne : ∀ e ∈ m.entries, e.1 ≠ k := fun e he hk => h (hk ▸ List.mem_map_of_mem he)
  have hnd : ((k, v) :: m.entries).Nodup :=
    List.nodup_cons.mpr ⟨fun hm => hne _ hm rfl, m.nodup_entries⟩
  refine (List.perm_ext_iff_of_nodup (m.insert k v).nodup_entries hnd).mpr fun e => ?_
  rw [mem_insert, List.mem_cons]
  exact or_congr_right ⟨And.right, fun he => ⟨hne e he, he⟩⟩

theorem get?_mapValues {f : α → α} {k : κ} : (m.mapValues f).get? k = (m.get? k).map f := by
  ext w
  simp only [get?_eq_some_iff, mapValues, List.mem_map, Prod.mk.injEq, Option.map_eq_some_iff,
    Prod.exists]
  constructor
  · rintro ⟨_, v, hv, rfl, rfl⟩
    exact ⟨v, hv, rfl⟩
  · rintro ⟨v, hv, rfl⟩
    exact ⟨k, v, hv, rfl, rfl⟩

variable [DecidableEq κ]

theorem get?_insert {k x : κ} {v : α} :
    (m.insert k v).get? x = if x = k then some v else m.get? x := by
  ext w
  rw [get?_eq_some_iff, mem_insert]
  by_cases hx : x = k
  · simp [hx, eq_comm]
  · simp [hx, get?_eq_some_iff]

theorem insert_eq_mapValues {k : κ} {v : α} {f : α → α} (hk : m.get? k = some v)
    (hf : ∀ x w, x ≠ k → m.get? x = some w → f w = w) : m.insert k (f v) = m.mapValues f := by
  refine ext fun x => ?_
  rw [get?_insert, get?_mapValues]
  by_cases hx : x = k
  · rw [if_pos hx, hx, hk]
    rfl
  · rw [if_neg hx]
    cases hw : m.get? x with
    | none => rfl
    | some w => exact congrArg some (hf x w hx hw).symm

theorem get?_foldl_insert {l : List (κ × α)} (hnd : (l.map Prod.fst).Nodup) {k : κ} {v : α} :
    (l.foldl (fun m e => m.insert e.1 e.2) m).get? k = some v ↔
      (k, v) ∈ l ∨ k ∉ l.map Prod.fst ∧ m.get? k = some v := by
  induction l generalizing m with
  | nil => simp
  | cons e l ih =>
    obtain ⟨he, hl⟩ := List.nodup_cons.mp hnd
    rw [List.foldl_cons, ih hl, get?_insert]
    obtain ⟨x, w⟩ := e
    by_cases hk : k = x
    · subst k
      have hnot : (x, v) ∉ l := fun hm => he (List.mem_map.mpr ⟨_, hm, rfl⟩)
      simp only [if_true, he, not_false_eq_true, true_and, hnot, false_or, List.mem_cons,
        Option.some.injEq, Prod.mk.injEq, List.map_cons, not_true, or_false, false_and, eq_comm]
    · simp [hk]

theorem get?_alter {k x : κ} {fresh : α} {f : α → α} :
    (m.alter k fresh f).get? x = if x = k then some (f ((m.get? k).getD fresh)) else m.get? x :=
  get?_insert

theorem mem_keys_insert {k x : κ} {v : α} : x ∈ (m.insert k v).keys ↔ x = k ∨ x ∈ m.keys := by
  simp only [mem_keys_iff, get?_insert]
  by_cases hx : x = k <;> simp [hx]

theorem keys_insert_of_mem {k : κ} {v : α} (h : k ∈ m.keys) : (m.insert k v).keys = m.keys := by
  refine eq_of_ascending (m.insert k v).ascending_keys m.ascending_keys fun x => ?_
  rw [mem_keys_insert]
  exact or_iff_right_of_imp fun hx => hx ▸ h

theorem keys_insert_perm {k : κ} {v : α} :
    (m.insert k v).keys.Perm (k :: m.keys.filter (· ≠ k)) := by
  have hnd : (k :: m.keys.filter (· ≠ k)).Nodup :=
    List.nodup_cons.mpr ⟨by simp, m.nodup_keys.filter _⟩
  refine (List.perm_ext_iff_of_nodup (m.insert k v).nodup_keys hnd).mpr fun x => ?_
  by_cases hx : x = k <;> simp [mem_keys_insert, hx]

end SortedMap

end CaptureAudit
