import CaptureAudit.Proofs.CatalogShape

/-! What a check may not share with the checks before it, and the error that is given when it
does. -/

namespace CaptureAudit

/-- What the error says is so of the check, given the checks before it. -/
def RegistrationError.Blames (others : List Check) (c : Check) : RegistrationError → Prop
  | .missingCode name => name = c.descriptor.name ∧ c.code = ""
  | .missingName code => code = c.code ∧ c.descriptor.name = ""
  | .missingDescription code => code = c.code ∧ c.descriptor.description = ""
  | .missingHandler code => code = c.code ∧ c.handler = none
  | .missingKey code => code = c.code ∧ ∃ t ∈ c.descriptor.tunables.values, t.key = ""
  | .missingKeyDescription code key =>
    code = c.code ∧ ∃ t ∈ c.descriptor.tunables.values, t.key = key ∧ t.description = ""
  | .duplicateName name =>
    name = c.descriptor.name ∧ name ∈ others.map fun other => other.descriptor.name
  | .duplicateCode code =>
    code = c.code ∧ Text.lowercase code ∈ others.map fun other => Text.lowercase other.code
  | .duplicateItem code item =>
    code = c.code ∧ item ∈ c.itemNames ∧
      (item ∈ others.flatMap Check.itemNames ∨ 2 ≤ c.itemNames.count item)

namespace Catalog

theorem missing?_cases (c : Check) (others : List Check) :
    missing? c = none ∧ c.Complete ∨
      ∃ e, missing? c = some e ∧ ¬c.Complete ∧ e.Blames others c := by
  unfold missing?
  by_cases hcode : c.descriptor.code = ""
  · exact .inr ⟨.missingCode c.descriptor.name, by simp [hcode], fun h => h.code hcode, rfl, hcode⟩
  by_cases hname : c.descriptor.name = ""
  · exact .inr ⟨.missingName c.code, by simp [hcode, hname, Check.code],
      fun h => h.name hname, rfl, hname⟩
  by_cases hdescription : c.descriptor.description = ""
  · exact .inr ⟨.missingDescription c.code, by simp [hcode, hname, hdescription, Check.code],
      fun h => h.description hdescription, rfl, hdescription⟩
  by_cases hhandler : c.handler = none
  · refine .inr ⟨.missingHandler c.code, ?_, fun h => ?_, rfl, hhandler⟩
    · simp [hcode, hname, hdescription, hhandler, Check.code]
    · have hsome := h.handler
      simp [hhandler] at hsome
  have hhas : c.handler.isSome = true := Option.isSome_iff_ne_none.mpr hhandler
  simp only [String.isEmpty_iff, hcode, hname, hdescription, Option.isNone_iff_eq_none, hhandler,
    if_false]
  cases hfind : c.descriptor.tunables.values.findSome? fun t =>
      if t.key = "" then some (RegistrationError.missingKey c.descriptor.code)
      else if t.description = "" then some (.missingKeyDescription c.descriptor.code t.key)
      else none with
  | none =>
    refine .inl ⟨rfl, hcode, hname, hdescription, hhas, fun t ht => ?_⟩
    have hnone := List.findSome?_eq_none_iff.mp hfind t ht
    by_cases hk : t.key = "" <;> by_cases hd : t.description = "" <;> simp_all
  | some e =>
    obtain ⟨t, ht, he⟩ := List.exists_of_findSome?_eq_some hfind
    refine .inr ⟨e, rfl, fun h => ?_, ?_⟩
    · simp [(h.tunables t ht).1, (h.tunables t ht).2] at he
    by_cases hk : t.key = ""
    · rw [if_pos hk] at he
      obtain rfl := Option.some.inj he
      exact ⟨rfl, t, ht, hk⟩
    by_cases hd : t.description = ""
    · rw [if_neg hk, if_pos hd] at he
      obtain rfl := Option.some.inj he
      exact ⟨rfl, t, ht, rfl, hd⟩
    · simp [hk, hd] at he

/-- What is taken once a check has been let in. -/
def Taken.add (t : Taken) (c : Check) : Taken :=
  ⟨c.descriptor.name :: t.names, Text.lowercase c.code :: t.codes, c.itemNames.reverse ++ t.items⟩

/-- Taken is what the given checks have. -/
structure Taken.Covers (t : Taken) (others : List Check) : Prop where
  names : ∀ s, s ∈ t.names ↔ s ∈ others.map fun other => other.descriptor.name
  codes : ∀ s, s ∈ t.codes ↔ s ∈ others.map fun other => Text.lowercase other.code
  items : ∀ s, s ∈ t.items ↔ s ∈ others.flatMap Check.itemNames

theorem Taken.Covers.add {t : Taken} {others : List Check} (h : t.Covers others) (c : Check) :
    (t.add c).Covers (others ++ [c]) := by
  refine ⟨fun s => ?_, fun s => ?_, fun s => ?_⟩
  · simp only [Taken.add, List.mem_cons, h.names, List.map_append, List.mem_append,
      List.map_singleton, List.not_mem_nil, or_false]
    exact or_comm
  · simp only [Taken.add, List.mem_cons, h.codes, List.map_append, List.mem_append,
      List.map_singleton, List.not_mem_nil, or_false]
    exact or_comm
  · simp only [Taken.add, List.mem_append, List.mem_reverse, h.items, List.flatMap_append,
      List.flatMap_cons, List.flatMap_nil, List.append_nil]
    exact or_comm

theorem Taken.Covers.foldl_add {t : Taken} {others : List Check} (h : t.Covers others)
    (batch : List Check) : (batch.foldl Taken.add t).Covers (others ++ batch) := by
  induction batch generalizing t others with
  | nil => simpa using h
  | cons c rest ih => simpa using ih (h.add c)

theorem WellFormed.covers {c : Catalog} (h : c.WellFormed) : c.taken.Covers c.checks.values := by
  refine ⟨fun s => ?_, fun s => ?_, fun s => h.mem_keys_items⟩
  · rw [← h.keys_checks]
    rfl
  · rw [List.mem_map]
    exact h.codes s

theorem claimItems_cases (code : String) (ts : List Tunable) (items : List String) :
    let names := ts.map fun t => Tunable.itemName code t.key
    claimItems code ts items = .ok (names.reverse ++ items) ∧ names.Nodup ∧
        (∀ item ∈ names, item ∉ items) ∨
      ∃ item ∈ names, claimItems code ts items = .error (.duplicateItem code item) ∧
        (item ∈ items ∨ 2 ≤ names.count item) := by
  induction ts generalizing items with
  | nil => simp [claimItems]
  | cons t ts ih =>
    intro names
    unfold claimItems
    by_cases hm : Tunable.itemName code t.key ∈ items
    · refine .inr ⟨Tunable.itemName code t.key, by simp [names], ?_, .inl hm⟩
      simp [hm]
    · have hnot : items.contains (Tunable.itemName code t.key) = false := by simpa using hm
      simp only [hnot, Bool.false_eq_true, if_false]
      rcases ih (Tunable.itemName code t.key :: items) with ⟨hok, hnd, hfree⟩ | ⟨item, hi, herr, hc⟩
      · refine .inl ⟨by simp [hok, names], ?_, ?_⟩
        · refine List.nodup_cons.mpr ⟨fun hin => ?_, hnd⟩
          exact hfree _ hin List.mem_cons_self
        · intro item hitem
          rcases List.mem_cons.mp hitem with rfl | hitem
          · exact hm
          · exact fun hin => hfree item hitem (List.mem_cons_of_mem _ hin)
      · refine .inr ⟨item, List.mem_cons_of_mem _ hi, herr, ?_⟩
        simp only [names, List.map_cons, List.count_cons]
        -- A refused name that was not taken before is this one, so the check has it twice.
        rcases hc with hin | hc
        · rcases List.mem_cons.mp hin with rfl | hin
          · have hpos := List.count_pos_iff.mpr hi
            rw [beq_self_eq_true, if_pos rfl]
            exact .inr (by omega)
          · exact .inl hin
        · exact .inr (by omega)

theorem claimItems_congr {code : String} {ts : List Tunable} {items items' : List String}
    (h : ∀ s, s ∈ items ↔ s ∈ items') {e : RegistrationError}
    (he : claimItems code ts items = .error e) : claimItems code ts items' = .error e := by
  induction ts generalizing items items' with
  | nil => simp [claimItems] at he
  | cons t ts ih =>
    unfold claimItems at he ⊢
    by_cases hm : Tunable.itemName code t.key ∈ items
    · simpa [hm, (h _).mp hm] using he
    · have hm' : Tunable.itemName code t.key ∉ items' := fun hin => hm ((h _).mpr hin)
      have hcons : ∀ s, s ∈ Tunable.itemName code t.key :: items ↔
          s ∈ Tunable.itemName code t.key :: items' := by simp [h]
      simp only [List.contains_eq_mem, hm, hm', decide_false, Bool.false_eq_true, if_false] at he ⊢
      exact ih hcons he

/-- A check is let in when it fits, and otherwise blamed for what is so. -/
theorem claim_cases {t : Taken} {others : List Check} (ht : t.Covers others) (c : Check) :
    claim t c = .ok (t.add c) ∧ c.Fits others ∨
      ∃ e, claim t c = .error e ∧ ¬c.Fits others ∧ e.Blames others c := by
  unfold claim
  rcases missing?_cases c others with ⟨hmissing, hcomplete⟩ | ⟨e, hmissing, hnot, hblames⟩
  · simp only [hmissing]
    by_cases hname : c.descriptor.name ∈ t.names
    · have hn := (ht.names _).mp hname
      exact .inr ⟨.duplicateName c.descriptor.name, by simp [hname], fun hf => hf.name hn, rfl, hn⟩
    by_cases hcode : Text.lowercase c.descriptor.code ∈ t.codes
    · have hc := (ht.codes _).mp hcode
      exact .inr ⟨.duplicateCode c.descriptor.code, by simp [hname, hcode], fun hf => hf.code hc,
        rfl, hc⟩
    simp only [List.contains_eq_mem, hname, hcode, decide_false, Bool.false_eq_true, if_false]
    rcases claimItems_cases c.descriptor.code c.descriptor.tunables.values t.items with
      ⟨hok, hnd, hfree⟩ | ⟨item, hitem, herr, hc⟩
    · refine .inl ⟨by rw [hok]; rfl, hcomplete, ?_, ?_, hnd, ?_⟩
      · exact fun hn => hname ((ht.names _).mpr hn)
      · exact fun hn => hcode ((ht.codes _).mpr hn)
      · exact fun item hi hn => hfree item hi ((ht.items _).mpr hn)
    · refine .inr ⟨.duplicateItem c.descriptor.code item, by rw [herr]; rfl, fun hf => ?_, rfl,
        hitem, hc.imp_left (ht.items _).mp⟩
      rcases hc with hin | hcount
      · exact hf.items item hitem ((ht.items _).mp hin)
      · have hone := List.nodup_iff_count_le_one.mp hf.nodup_items item
        exact absurd hcount (Nat.not_le.mpr (Nat.lt_succ_of_le hone))
  · exact .inr ⟨e, by rw [hmissing], fun hf => hnot hf.complete, hblames⟩

theorem claim_congr {t t' : Taken} {others : List Check} (ht : t.Covers others)
    (ht' : t'.Covers others) {c : Check} {e : RegistrationError} (h : claim t c = .error e) :
    claim t' c = .error e := by
  have hnames : t'.names.contains c.descriptor.name = t.names.contains c.descriptor.name := by
    rw [Bool.eq_iff_iff, List.contains_iff_mem, List.contains_iff_mem, ht.names, ht'.names]
  have hcodes : t'.codes.contains (Text.lowercase c.descriptor.code) =
      t.codes.contains (Text.lowercase c.descriptor.code) := by
    rw [Bool.eq_iff_iff, List.contains_iff_mem, List.contains_iff_mem, ht.codes, ht'.codes]
  have hitems : ∀ s, s ∈ t.items ↔ s ∈ t'.items := fun s => by rw [ht.items, ht'.items]
  dsimp only [claim] at h ⊢
  rw [hnames, hcodes]
  cases hmissing : missing? c with
  | some e' => simpa [hmissing] using h
  | none =>
    simp only [hmissing] at h ⊢
    split at h
    · next hn => simpa only [hn, if_true] using h
    next hn =>
    split at h
    · next hc => simpa only [hn, hc, Bool.false_eq_true, if_true, if_false] using h
    next hc =>
    simp only [hn, hc, Bool.false_eq_true, if_false]
    cases hi : claimItems c.descriptor.code c.descriptor.tunables.values t.items with
    | ok items =>
      rw [hi] at h
      exact absurd h (by simp [bind, Except.bind])
    | error e' =>
      rw [hi] at h
      rw [claimItems_congr hitems hi]
      exact h

end Catalog

end CaptureAudit
